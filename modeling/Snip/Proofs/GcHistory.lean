/-
No sweep deletes a chunk that a push brought, or one that was there first.

`Guarded` is what keeps one chunk file: memory protects it while a sweep may delete, and
whatever a crash leaves of the list names it or cannot be read.  Where there is no list
the next open protects all that is there.  Recording the exemption before the chunk is
written establishes it, every event keeps it, and no step takes the file away.
-/
import Snip.Lib.Steps
import Snip.Proofs.Archive
import Snip.Proofs.Sidecar
import Snip.Node.GcHistory
import Snip.Store.Publication

namespace Snip

/-! ### Lines -/

private theorem hexValue_hexDigit : ∀ d < 16, (hexValue (hexDigit d)).isSome = true := by decide

theorem hexEncode_all_hexValue (b : Bytes) :
    ((hexEncode b).all fun c => (hexValue c).isSome) = true := by
  rw [List.all_eq_true]
  intro c hc
  obtain ⟨x, -, hx⟩ := List.mem_flatMap.mp hc
  have hlt : x.toNat < 256 := x.toNat_lt
  simp only [List.mem_cons, List.not_mem_nil, or_false] at hx
  rcases hx with rfl | rfl
  · exact hexValue_hexDigit _ (by omega)
  · exact hexValue_hexDigit _ (Nat.mod_lt _ (by norm_num))

/-- The reader gets this name back from its line. -/
structure ListableKey (key : Str) : Prop where
  noSpace : ' ' ∉ key
  noNewline : '\n' ∉ key
  noReturn : key.getLast? ≠ some '\r'

theorem PlainText.listable {key : Str} (h : PlainText key) : ListableKey key :=
  ⟨h.not_mem rfl, h.not_mem rfl, fun hlast => h.not_mem rfl (List.mem_of_getLast? hlast)⟩

/-- What the store takes as a name is not empty. -/
theorem ne_nil_of_publicationName {key : Str} (h : publicationName key = .ok ()) : key ≠ [] := by
  rintro rfl
  simp [publicationName] at h

namespace GcEntry

/-- The line of the entry is read as the entry. -/
structure Readable (e : GcEntry) : Prop where
  named : e.cid ≠ []
  listable : ListableKey e.cid

variable {e : GcEntry}

theorem Readable.of_plain (h : PlainText e.cid) : e.Readable := ⟨h.1, h.listable⟩

/-- **A line reads back as the chunk it was written for.** -/
theorem parse_line (hspace : ' ' ∉ e.cid) (hne : e.cid ≠ []) :
    parseGcProtectedLine e.line = some e.cid := by
  unfold parseGcProtectedLine
  cases e with
  | v2 root cid =>
      change ' ' ∉ cid at hspace
      change cid ≠ [] at hne
      have hsplit : (v2 root cid).line.splitOn ' ' = [['v', '2'], hexEncode root.bytes, cid] := by
        show (['v', '2'] ++ ' ' :: (hexEncode root.bytes ++ ' ' :: cid)).splitOn ' ' = _
        rw [List.splitOn_append_cons_self_of_not_mem (by decide),
          List.splitOn_append_cons_self_of_not_mem ((hexEncode_plain root).not_mem rfl),
          List.splitOn_eq_singleton hspace]
      rw [hsplit]
      dsimp only
      rw [if_neg hne, if_pos]
      · rfl
      · refine .inl ⟨rfl, ?_, hexEncode_all_hexValue _⟩
        rw [hexEncode_length, root.size]
  | legacy cid =>
      change ' ' ∉ cid at hspace
      change cid ≠ [] at hne
      have hsplit : (legacy cid).line.splitOn ' ' = [['l', 'e', 'g', 'a', 'c', 'y'], ['-'], cid] := by
        show (['l', 'e', 'g', 'a', 'c', 'y'] ++ ' ' :: (['-'] ++ ' ' :: cid)).splitOn ' ' = _
        rw [List.splitOn_append_cons_self_of_not_mem (by decide),
          List.splitOn_append_cons_self_of_not_mem (by decide),
          List.splitOn_eq_singleton hspace]
      rw [hsplit]
      dsimp only
      rw [if_neg hne, if_pos (.inr ⟨rfl, rfl⟩)]
      rfl

/-- A line has no newline but the one that ends it. -/
theorem not_mem_line (h : e.Readable) : '\n' ∉ e.line := by
  have hcid := h.listable.noNewline
  cases e with
  | v2 root cid =>
      have hroot : '\n' ∉ hexEncode root.bytes := (hexEncode_plain root).not_mem rfl
      simp_all [line, GcEntry.cid]
  | legacy cid => simp_all [line, GcEntry.cid]

/-- A line ends as its chunk does. -/
theorem getLast?_line (hne : e.cid ≠ []) : e.line.getLast? = e.cid.getLast? := by
  cases e with
  | v2 root cid =>
      have hline : (v2 root cid).line = ("v2 ".toList ++ hexEncode root.bytes ++ [' ']) ++ cid := by
        simp [line]
      rw [hline]
      exact List.getLast?_append_of_ne_nil _ hne
  | legacy cid =>
      have hline : (legacy cid).line = "legacy - ".toList ++ cid := rfl
      rw [hline]
      exact List.getLast?_append_of_ne_nil _ hne

end GcEntry

/-! ### What is read of a list -/

/-- A reader finds these entries. -/
structure GcReads (text : Str) (es : List GcEntry) : Prop where
  holds : LineFile.Holds (es.map GcEntry.line) text
  readable : ∀ e ∈ es, e.Readable

namespace GcReads

variable {text : Str} {es : List GcEntry} {e : GcEntry}

theorem parse (h : GcReads text es) : parseGcLines text = some (es.map GcEntry.cid) := by
  unfold parseGcLines
  rw [h.holds.lines_eq_of_getLast]
  · have hreadable := h.readable
    clear h
    induction es with
    | nil => rfl
    | cons e es ih =>
        have he := hreadable e (List.mem_cons_self ..)
        rw [List.map_cons, List.mapM_cons, GcEntry.parse_line he.listable.noSpace he.named,
          ih fun e' he' => hreadable e' (List.mem_cons_of_mem _ he')]
        rfl
  · intro l hl
    obtain ⟨e, he, rfl⟩ := List.mem_map.mp hl
    rw [GcEntry.getLast?_line (h.readable e he).named]
    exact (h.readable e he).listable.noReturn

theorem cut (h : GcReads text es) : GcReads (LineFile.complete text) es :=
  ⟨h.holds.cut, h.readable⟩

theorem append (h : GcReads text es) (hcomplete : LineFile.complete text = text)
    (he : e.Readable) : GcReads (text ++ (e.line ++ ['\n'])) (es ++ [e]) := by
  have hholds := h.holds.append (GcEntry.not_mem_line he)
  rw [hcomplete] at hholds
  refine ⟨?_, ?_⟩
  · rwa [List.map_append]
  · intro e' he'
    rcases List.mem_append.mp he' with he' | he'
    · exact h.readable e' he'
    · rw [List.mem_singleton.mp he']
      exact he

theorem write (h : ∀ e ∈ es, e.Readable) : GcReads (LineFile.write (es.map GcEntry.line)) es := by
  refine ⟨LineFile.holds_write ?_, h⟩
  intro l hl
  obtain ⟨e, he, rfl⟩ := List.mem_map.mp hl
  exact GcEntry.not_mem_line (h e he)

end GcReads

theorem complete_complete (text : Str) : LineFile.complete (LineFile.complete text)
    = LineFile.complete text := by
  unfold LineFile.complete
  exact List.rdropWhile_idempotent ..

theorem complete_append_newline (text line : Str) :
    LineFile.complete (text ++ (line ++ ['\n'])) = text ++ (line ++ ['\n']) := by
  rw [← List.append_assoc]
  exact complete_concat _

namespace GcListFile

variable {f : GcListFile} {es : List GcEntry}

/-- Whatever a crash leaves, a reader finds these entries, and perhaps more. -/
def Durable (f : GcListFile) (es : List GcEntry) : Prop :=
  ∀ n, ∃ es', es ⊆ es' ∧ GcReads (f.synced ++ f.unsynced.take n) es'

/-- No reader accepts the list. -/
def Malformed (f : GcListFile) : Prop := f.unsynced = [] ∧ parseGcLines f.synced = none

theorem Durable.of_reads {text : Str} (h : GcReads text es) : Durable ⟨text, []⟩ es := by
  intro n
  refine ⟨es, List.Subset.refl _, ?_⟩
  rw [List.take_nil, List.append_nil]
  exact h

theorem Durable.content (h : f.Durable es) : ∃ es', es ⊆ es' ∧ GcReads f.content es' := by
  obtain ⟨es', hsub, hreads⟩ := h f.unsynced.length
  rw [List.take_length] at hreads
  exact ⟨es', hsub, hreads⟩

theorem Durable.mono {es' : List GcEntry} (h : f.Durable es') (hsub : es ⊆ es') : f.Durable es := by
  intro n
  obtain ⟨es'', hsub', hreads⟩ := h n
  exact ⟨es'', fun e he => hsub' (hsub he), hreads⟩

theorem Durable.crash (h : f.Durable es) (n : Nat) :
    Durable ⟨f.synced ++ f.unsynced.take n, []⟩ es := by
  obtain ⟨es', hsub, hreads⟩ := h n
  exact (Durable.of_reads hreads).mono hsub

/-- A part of a line after what is synced. -/
theorem Durable.torn {text : Str} {e : GcEntry} (h : GcReads text es)
    (hcomplete : LineFile.complete text = text) (he : e.Readable) (n : Nat) :
    Durable ⟨text, (e.line ++ ['\n']).take n⟩ es := by
  intro k
  show ∃ es', es ⊆ es' ∧ GcReads (text ++ ((e.line ++ ['\n']).take n).take k) es'
  rw [List.take_take]
  have hcase := h.holds.append_take (GcEntry.not_mem_line he) (min k n)
  rw [hcomplete] at hcase
  rcases hcase with hholds | hholds
  · exact ⟨es, List.Subset.refl _, hholds, h.readable⟩
  · refine ⟨es ++ [e], List.subset_append_left .., ?_, ?_⟩
    · rwa [List.map_append]
    · intro e' he'
      rcases List.mem_append.mp he' with he' | he'
      · exact h.readable e' he'
      · rw [List.mem_singleton.mp he']
        exact he

end GcListFile

/-! ### The operations on the files -/

namespace GcFiles

variable {f : GcFiles}

theorem writeMarker_list (io : Io) (f : GcFiles) : (f.writeMarker io).1.list = f.list := by
  cases io with
  | done => rfl
  | lost => rfl
  | unsynced => rfl

theorem loadMarker_cases (io : Io) (f : GcFiles) (cids : List Str) :
    (f.loadMarker io cids).1.list = f.list ∧
      ((f.loadMarker io cids).2 = ([], some false) ∨ (f.loadMarker io cids).2 = (cids, some true)) := by
  unfold loadMarker
  split
  · exact ⟨rfl, .inr rfl⟩
  · cases io with
    | done => exact ⟨rfl, .inr rfl⟩
    | lost => exact ⟨rfl, .inl rfl⟩
    | unsynced => exact ⟨rfl, .inl rfl⟩

/-- What a load makes of a list: it is not read, or all of it is and its torn end is gone. -/
theorem load_some (io : GcLoadIo) {file : GcListFile} (hlist : f.list = some file) :
    ∃ file', (f.load io).1.list = some file' ∧
      (file.Malformed → file'.Malformed) ∧
      (∀ es, file.Durable es → file'.Durable es) ∧
      (((f.load io).2 = ([], some false)) ∨
        (∃ cids, (f.load io).2 = (cids, some true) ∧ parseGcLines file.content = some cids ∧
          file' = ⟨LineFile.complete file.content, []⟩)) := by
  have hdurable : ∀ es, file.Durable es → GcListFile.Durable ⟨file.content, []⟩ es := by
    intro es h
    obtain ⟨es', hsub, hreads⟩ := h.content
    exact (GcListFile.Durable.of_reads hreads).mono hsub
  have hcut : ∀ es, file.Durable es →
      GcListFile.Durable ⟨LineFile.complete file.content, []⟩ es := by
    intro es h
    obtain ⟨es', hsub, hreads⟩ := h.content
    exact (GcListFile.Durable.of_reads hreads.cut).mono hsub
  unfold load
  rw [hlist]
  dsimp only
  split
  · exact ⟨file, hlist, fun h => h, fun _ h => h, .inl rfl⟩
  cases hparse : parseGcLines file.content with
  | none => exact ⟨⟨file.content, []⟩, rfl, fun _ => ⟨rfl, hparse⟩, hdurable, .inl rfl⟩
  | some cids =>
      have hformed : ∀ {P : Prop}, file.Malformed → P := by
        intro P hm
        have hcontent : file.content = file.synced := by
          unfold GcListFile.content
          rw [hm.1, List.append_nil]
        rw [hcontent, hm.2] at hparse
        cases hparse
      dsimp only
      by_cases htorn : LineFile.complete file.content = file.content
      · rw [if_pos htorn]
        obtain ⟨hlist', hout⟩ := loadMarker_cases io.marks { f with list := some ⟨file.content, []⟩ } cids
        refine ⟨_, hlist', hformed, hdurable, hout.imp_right fun hout => ⟨cids, hout, rfl, ?_⟩⟩
        rw [htorn]
      · rw [if_neg htorn]
        cases io.truncates with
        | lost => exact ⟨_, rfl, hformed, hdurable, .inl rfl⟩
        | unsynced => exact ⟨_, rfl, hformed, hcut, .inl rfl⟩
        | done =>
            obtain ⟨hlist', hout⟩ := loadMarker_cases io.marks
              { f with list := some ⟨LineFile.complete file.content, []⟩ } cids
            exact ⟨_, hlist', hformed, hcut, hout.imp_right fun hout => ⟨cids, hout, rfl, rfl⟩⟩

theorem load_none (io : GcLoadIo) (hlist : f.list = none) :
    f.load io = (f, [], if f.marker then some false else none) := by
  unfold load
  rw [hlist]

/-- A seed writes the whole list or none of it. -/
theorem seed_list (io : GcSeedIo) (f : GcFiles) (cids : List Str) :
    ((f.seed io cids).1.list = f.list ∧ (f.seed io cids).2 = .error .io) ∨
      (f.seed io cids).1.list
        = some ⟨LineFile.write ((cids.map GcEntry.legacy).map GcEntry.line), []⟩ := by
  unfold seed
  split
  · exact .inl ⟨rfl, rfl⟩
  right
  rw [List.map_map]
  dsimp only
  split
  · rfl
  · rw [writeMarker_list]
    rfl

/-- An append that returns has its line; any other leaves the rest as it was. -/
theorem append_cases (io : GcAppendIo) {file : GcListFile} (hlist : f.list = some file)
    (line : Str) :
    (∃ e, (f.append io line).2 = .error e ∧
      ((f.append io line).1 = f ∨
        ∃ n, (f.append io line).1.list = some ⟨file.synced, file.unsynced ++ (line ++ ['\n']).take n⟩)) ∨
    ((f.append io line).2 = .ok () ∧
      (f.append io line).1.list = some ⟨file.content ++ (line ++ ['\n']), []⟩) := by
  unfold append
  rw [hlist]
  dsimp only
  split
  · exact .inl ⟨.io, rfl, .inl rfl⟩
  cases hwrites : io.writes with
  | some n =>
      rw [if_neg (by simp)]
      exact .inl ⟨.io, rfl, .inr ⟨n, rfl⟩⟩
  | none =>
      split
      · exact .inr ⟨rfl, rfl⟩
      · refine .inl ⟨.io, rfl, .inr ⟨(line ++ ['\n']).length, ?_⟩⟩
        rw [List.take_length]

end GcFiles

/-! ### A sweep -/

/-- What may not be deleted is not deleted. -/
theorem mem_foldl_sweepOne {deletable deletes : Str → Bool} {now : Nat} {cid : Str}
    (hcid : deletable cid = false) (cids : List Str) (s : GarbageCollector × ChunkStore)
    (h : cid ∈ s.2) : cid ∈ (cids.foldl (sweepOne deletable deletes now) s).2 := by
  induction cids generalizing s with
  | nil => exact h
  | cons c cids ih =>
      rw [List.foldl_cons]
      apply ih
      unfold sweepOne
      split
      · exact h
      rename_i hdeletable
      dsimp only
      split
      · have hne : cid ≠ c := by
          rintro rfl
          simp [hcid] at hdeletable
        show cid ∈ s.2.erase c
        rw [AList.mem_erase]
        exact ⟨hne, h⟩
      · exact h

theorem foldl_sweepOne_subset {deletable deletes : Str → Bool} {now : Nat} {cid : Str}
    (cids : List Str) (s : GarbageCollector × ChunkStore)
    (h : cid ∈ (cids.foldl (sweepOne deletable deletes now) s).2) : cid ∈ s.2 := by
  induction cids generalizing s with
  | nil => exact h
  | cons c cids ih =>
      rw [List.foldl_cons] at h
      have hone := ih _ h
      unfold sweepOne at hone
      split at hone
      · exact hone
      dsimp only at hone
      split at hone
      · exact (AList.mem_erase.mp hone).2
      · exact hone

namespace StoreRoot

variable {s t : StoreRoot} {cid : Str}

theorem mem_candidates [Blake3] {w : MarketSyncWorker} {rows : List StorageFileInfo} {nodeAddrs : List Addr}
    {idx : ManifestIndex} (h : cid ∈ w.computeGcCandidates rows nodeAddrs idx) :
    idx.gcProtectionIntact = some true ∧ cid ∉ idx.gcProtected := by
  unfold MarketSyncWorker.computeGcCandidates at h
  by_cases hintact : idx.gcProtectionIntact = some true
  · rw [if_neg (by simpa using hintact)] at h
    obtain ⟨-, hkeep⟩ := List.mem_filter.mp h
    simp [ManifestIndex.isGcProtected] at hkeep
    exact ⟨hintact, hkeep.2⟩
  · rw [if_pos hintact] at h
    cases h

/-- A sweep deletes only while protection is intact, and nothing that is protected. -/
theorem mem_sweep [Blake3] (s : StoreRoot) (rows : List StorageFileInfo) (nodeAddrs : List Addr)
    (pollAge now : Nat) (deletes : Str → Bool) (h : cid ∈ s.files)
    (hsafe : s.idx.gcProtectionIntact = some true → cid ∈ s.idx.gcProtected) :
    cid ∈ (s.sweep rows nodeAddrs pollAge now deletes).files := by
  show cid ∈ (s.worker.gc.sweepCandidates s.files _ pollAge now deletes).2
  unfold GarbageCollector.sweepCandidates GarbageCollector.sweepWhere
  split
  · exact h
  · apply mem_foldl_sweepOne
    · rw [decide_eq_false_iff_not]
      intro hcand
      obtain ⟨hintact, hno⟩ := mem_candidates hcand
      exact hno (hsafe hintact)
    · exact h

theorem sweep_subset [Blake3] (s : StoreRoot) (rows : List StorageFileInfo) (nodeAddrs : List Addr)
    (pollAge now : Nat) (deletes : Str → Bool)
    (h : cid ∈ (s.sweep rows nodeAddrs pollAge now deletes).files) : cid ∈ s.files := by
  have h : cid ∈ (s.worker.gc.sweepCandidates s.files _ pollAge now deletes).2 := h
  unfold GarbageCollector.sweepCandidates GarbageCollector.sweepWhere at h
  split at h
  · exact h
  · exact foldl_sweepOne_subset _ _ h

/-- No sweep deletes anything while protection is not intact. -/
theorem sweep_files [Blake3] (s : StoreRoot) (rows : List StorageFileInfo) (nodeAddrs : List Addr)
    (pollAge now : Nat) (deletes : Str → Bool) (h : s.idx.gcProtectionIntact ≠ some true) :
    (s.sweep rows nodeAddrs pollAge now deletes).files = s.files := by
  have hnone : s.worker.computeGcCandidates rows nodeAddrs s.idx = [] := by
    unfold MarketSyncWorker.computeGcCandidates
    rw [if_pos h]
  show (s.worker.gc.sweepCandidates s.files (s.worker.computeGcCandidates rows nodeAddrs s.idx)
    pollAge now deletes).2 = s.files
  rw [hnone]
  unfold GarbageCollector.sweepCandidates GarbageCollector.sweepWhere
  split
  · rfl
  · dsimp only
    rw [foldl_sweepOne]
    intro cid _
    simp

theorem call_sameGc [Blake3] (idx : ManifestIndex) (c : IndexCall) : SameGc idx (idx.call c) := by
  cases c with
  | insert m io =>
      cases io with
      | done => exact ⟨rfl, rfl, rfl⟩
      | lost => exact ⟨rfl, rfl, rfl⟩
      | unsynced => exact ⟨rfl, rfl, rfl⟩
  | commitValidated v io =>
      show SameGc idx (idx.commitValidated io v).1
      unfold ManifestIndex.commitValidated
      split
      · exact ⟨rfl, rfl, rfl⟩
      · cases io with
        | done => exact ⟨rfl, rfl, rfl⟩
        | lost => exact ⟨rfl, rfl, rfl⟩
        | unsynced => exact ⟨rfl, rfl, rfl⟩
  | insertPrivate root bytes io =>
      cases io with
      | done => exact ⟨rfl, rfl, rfl⟩
      | lost => exact ⟨rfl, rfl, rfl⟩
      | unsynced => exact ⟨rfl, rfl, rfl⟩
  | recordPrivateChunkCid root cid io => exact recordPrivateChunkCid_sameGc io idx root cid
  | recordV2HeldIndex root i cid io => exact recordV2HeldIndex_sameGc io idx root i cid
  | recordV2PushedProof root i leaf path io =>
      exact recordV2PushedProof_sameGc io idx root i leaf path

/-! ### What holds in every state -/

/-- Whatever a crash leaves, the list names the chunk. -/
def Listed (s : StoreRoot) (cid : Str) : Prop :=
  ∃ f es, s.gcFiles.list = some f ∧ f.Durable es ∧ ∃ e ∈ es, e.cid = cid

/-- The list is read in full, ends in a newline, and names all that memory protects. -/
def ListIntact (s : StoreRoot) : Prop :=
  ∃ text es, s.gcFiles.list = some ⟨text, []⟩ ∧ LineFile.complete text = text ∧ GcReads text es ∧
    ∀ cid ∈ s.idx.gcProtected, ∃ e ∈ es, e.cid = cid

structure Sound (s : StoreRoot) : Prop where
  names : ∀ cid ∈ s.files, (GcEntry.legacy cid).Readable
  list : ∀ f, s.gcFiles.list = some f → f.Malformed ∨ ∃ es, f.Durable es
  intact : s.isOpen = true → s.idx.gcProtectionIntact = some true → s.ListIntact
  memory : s.isOpen = true → ∀ cid ∈ s.idx.gcProtected, s.Listed cid
  recorded : s.isOpen = true → ∀ cid ∈ s.recorded, cid ∈ s.idx.gcProtected
  failed : s.isOpen = true → s.writeFailed = true → s.idx.gcProtectionIntact ≠ some true

/-- What keeps one chunk file. -/
structure Guarded (cid : Str) (s : StoreRoot) : Prop where
  file : cid ∈ s.files
  memory : s.isOpen = true → s.idx.gcProtectionIntact = some true → cid ∈ s.idx.gcProtected
  list : ∀ f, s.gcFiles.list = some f → f.Malformed ∨ ∃ es, f.Durable es ∧ ∃ e ∈ es, e.cid = cid

theorem Listed.guards (h : s.Listed cid) : ∀ f, s.gcFiles.list = some f →
    f.Malformed ∨ ∃ es, f.Durable es ∧ ∃ e ∈ es, e.cid = cid := by
  intro f hf
  obtain ⟨f', es, hf', hdurable, he⟩ := h
  rw [hf, Option.some.injEq] at hf'
  subst hf'
  exact .inr ⟨es, hdurable, he⟩

/-- A closed store keeps what is on disk. -/
theorem Sound.closed (h : s.Sound) (hfiles : t.files = s.files)
    (hlist : ∀ f, t.gcFiles.list = some f → f.Malformed ∨ ∃ es, f.Durable es)
    (hopen : t.isOpen = false) : t.Sound := by
  refine ⟨?_, hlist, ?_, ?_, ?_, ?_⟩
  · rw [hfiles]
    exact h.names
  all_goals
    intro ho
    rw [hopen] at ho
    cases ho

theorem Guarded.closed (h : s.Guarded cid) (hfiles : t.files = s.files)
    (hlist : ∀ f, t.gcFiles.list = some f →
      f.Malformed ∨ ∃ es, f.Durable es ∧ ∃ e ∈ es, e.cid = cid)
    (hopen : t.isOpen = false) : t.Guarded cid := by
  refine ⟨?_, ?_, hlist⟩
  · rw [hfiles]
    exact h.file
  · intro ho
    rw [hopen] at ho
    cases ho

/-! ### Opening -/

/-- The state after the list is loaded, before it is seeded. -/
theorem new_cases [Blake3] (legacy : Option DataManifest) (io : OpenIo) (s : StoreRoot)
    (hclosed : s.isOpen = false) :
    (s.new legacy io).files = s.files ∧ (s.new legacy io).recorded = [] ∧
      (s.new legacy io).writeFailed = false ∧
    -- The open fails, and the list is as the load left it,
    (((s.new legacy io).isOpen = false ∧
        (s.new legacy io).gcFiles.list = (s.gcFiles.load io.gc).1.list) ∨
      -- or there was no list, and it is seeded from the files,
      (s.gcFiles.list = none ∧
        (s.new legacy io).gcFiles.list = some ⟨LineFile.write
          ((s.files.listAllCids.map GcEntry.legacy).map GcEntry.line), []⟩ ∧
        ((s.new legacy io).isOpen = true → (s.new legacy io).idx.gcProtectionIntact = some true ∧
          (s.new legacy io).idx.gcProtected = s.files.listAllCids)) ∨
      -- or it was there or lost, and the store is open with what was read.
      ((s.new legacy io).isOpen = true ∧
        (s.new legacy io).gcFiles.list = (s.gcFiles.load io.gc).1.list ∧
        (s.gcFiles.load io.gc).2.2 ≠ none ∧
        (s.new legacy io).idx.gcProtected = (s.gcFiles.load io.gc).2.1 ∧
        (s.new legacy io).idx.gcProtectionIntact = (s.gcFiles.load io.gc).2.2)) := by
  unfold new
  cases hload : s.gcFiles.load io.gc with
  | mk gcFiles rest =>
    obtain ⟨cids, intact⟩ := rest
    dsimp only
    split
    · exact ⟨rfl, rfl, rfl, .inl ⟨hclosed, rfl⟩⟩
    split
    · rename_i hintact
      subst hintact
      -- Only a list that is not there leaves it open whether protection is intact.
      have hnone : s.gcFiles.list = none ∧ cids = [] ∧ gcFiles = s.gcFiles := by
        cases hlist : s.gcFiles.list with
        | none =>
            rw [GcFiles.load_none io.gc hlist] at hload
            simp only [Prod.mk.injEq] at hload
            exact ⟨rfl, hload.2.1.symm, hload.1.symm⟩
        | some file =>
            obtain ⟨_, -, -, -, hout | ⟨_, hout, -⟩⟩ := GcFiles.load_some io.gc hlist
            · rw [hload] at hout
              cases hout
            · rw [hload] at hout
              cases hout
      obtain ⟨hlist, rfl, rfl⟩ := hnone
      split
      · exact ⟨rfl, rfl, rfl, .inl ⟨hclosed, rfl⟩⟩
      · have hseed := GcFiles.seed_list io.seed s.gcFiles s.files.listAllCids
        split
        · rename_i hout
          rw [hout] at hseed
          refine ⟨rfl, rfl, rfl, ?_⟩
          rcases hseed with ⟨hsame, -⟩ | hnew
          · exact .inl ⟨hclosed, hsame⟩
          · refine .inr (.inl ⟨hlist, hnew, fun hopen => ?_⟩)
            rw [hclosed] at hopen
            cases hopen
        · rename_i hout
          rw [hout] at hseed
          refine ⟨rfl, rfl, rfl, .inr (.inl ⟨hlist, ?_, fun _ => ⟨rfl, List.append_nil _⟩⟩)⟩
          rcases hseed with ⟨-, herror⟩ | hnew
          · cases herror
          · exact hnew
    · rename_i hintact
      exact ⟨rfl, rfl, rfl, .inr (.inr ⟨rfl, rfl, hintact, rfl, rfl⟩)⟩

/-- What the load leaves of a list has what the list had. -/
theorem load_list {P : GcListFile → Prop} {io : GcLoadIo} {f : GcFiles}
    (hkeeps : ∀ file file', (file.Malformed → file'.Malformed) →
      (∀ es, file.Durable es → file'.Durable es) → P file → P file')
    (h : ∀ file, f.list = some file → P file) :
    ∀ file, (f.load io).1.list = some file → P file := by
  cases hlist : f.list with
  | none =>
      have hnone : (f.load io).1.list = none := by
        rw [GcFiles.load_none io hlist]
        exact hlist
      rw [hnone]
      exact fun _ h => nomatch h
  | some file =>
      obtain ⟨file', hfile', hmalformed, hdurable, -⟩ := GcFiles.load_some io hlist
      rw [hfile']
      rintro _ ⟨rfl⟩
      exact hkeeps file file' hmalformed hdurable (h file hlist)

theorem Sound.load_list (h : s.Sound) (io : GcLoadIo) :
    ∀ f, (s.gcFiles.load io).1.list = some f → f.Malformed ∨ ∃ es, f.Durable es :=
  StoreRoot.load_list
    (fun _ _ hm hd hcase => hcase.imp hm fun ⟨es, hes⟩ => ⟨es, hd es hes⟩) h.list

theorem Guarded.load_list (h : s.Guarded cid) (io : GcLoadIo) :
    ∀ f, (s.gcFiles.load io).1.list = some f →
      f.Malformed ∨ ∃ es, f.Durable es ∧ ∃ e ∈ es, e.cid = cid :=
  StoreRoot.load_list
    (fun _ _ hm hd hcase => hcase.imp hm fun ⟨es, hes, he⟩ => ⟨es, hd es hes, he⟩) h.list

/-- A list that was read in full. -/
theorem load_intact (h : s.Sound) {io : GcLoadIo}
    (hintact : (s.gcFiles.load io).2.2 = some true) :
    ∃ file es, s.gcFiles.list = some file ∧ GcReads file.content es ∧
      (s.gcFiles.load io).1.list = some ⟨LineFile.complete file.content, []⟩ ∧
      (s.gcFiles.load io).2.1 = es.map GcEntry.cid := by
  cases hlist : s.gcFiles.list with
  | none =>
      rw [GcFiles.load_none io hlist] at hintact
      dsimp only at hintact
      split at hintact
      · cases hintact
      · cases hintact
  | some file =>
      obtain ⟨file', hfile', -, -, hout | ⟨cids, hout, hparse, rfl⟩⟩ := GcFiles.load_some io hlist
      · rw [hout] at hintact
        cases hintact
      · rcases h.list file hlist with hmalformed | ⟨es, hdurable⟩
        · have hcontent : file.content = file.synced := by
            unfold GcListFile.content
            rw [hmalformed.1, List.append_nil]
          rw [hcontent, hmalformed.2] at hparse
          cases hparse
        · obtain ⟨es', -, hreads⟩ := hdurable.content
          rw [hreads.parse, Option.some.injEq] at hparse
          refine ⟨file, es', rfl, hreads, hfile', ?_⟩
          rw [hout, hparse]

theorem load_cids (io : GcLoadIo) (hno : (s.gcFiles.load io).2.2 ≠ some true) :
    (s.gcFiles.load io).2.1 = [] := by
  cases hlist : s.gcFiles.list with
  | none => rw [GcFiles.load_none io hlist]
  | some file =>
      obtain ⟨_, -, -, -, hout | ⟨_, hout, -⟩⟩ := GcFiles.load_some io hlist
      · rw [hout]
      · rw [hout] at hno
        exact absurd rfl hno

theorem ListIntact.listed (h : s.ListIntact) : ∀ cid ∈ s.idx.gcProtected, s.Listed cid := by
  obtain ⟨text, es, hlist, -, hreads, hprotected⟩ := h
  intro cid hcid
  exact ⟨_, es, hlist, .of_reads hreads, hprotected cid hcid⟩

theorem seeded_readable (h : s.Sound) :
    ∀ e ∈ s.files.listAllCids.map GcEntry.legacy, e.Readable := by
  intro e he
  obtain ⟨cid, hcid, rfl⟩ := List.mem_map.mp he
  exact h.names cid hcid

theorem Sound.new [Blake3] (h : s.Sound) (legacy : Option DataManifest) (io : OpenIo)
    (hclosed : s.isOpen = false) : (s.new legacy io).Sound := by
  obtain ⟨hfiles, hrecorded, hfailed, hcase⟩ := new_cases legacy io s hclosed
  have hnames : ∀ cid ∈ (s.new legacy io).files, (GcEntry.legacy cid).Readable := by
    rw [hfiles]
    exact h.names
  have hnorecord : ∀ cid ∈ (s.new legacy io).recorded, cid ∈ (s.new legacy io).idx.gcProtected := by
    rw [hrecorded]
    exact fun _ hc => nomatch hc
  have hnofail : (s.new legacy io).writeFailed = true →
      (s.new legacy io).idx.gcProtectionIntact ≠ some true := by
    rw [hfailed]
    exact fun hf => nomatch hf
  rcases hcase with ⟨hopen, hlist⟩ | ⟨-, hlist, hmemory⟩ | ⟨-, hlist, -, hprotected, hintact⟩
  · apply h.closed hfiles _ hopen
    rw [hlist]
    exact h.load_list io.gc
  · have hreads := GcReads.write (seeded_readable h)
    have hseeded : (s.new legacy io).isOpen = true → (s.new legacy io).ListIntact := by
      intro hopen
      refine ⟨_, _, hlist, ?_, hreads, ?_⟩
      · exact LineFile.rdropWhile_write _
      · rw [(hmemory hopen).2]
        intro cid hcid
        exact ⟨.legacy cid, List.mem_map_of_mem hcid, rfl⟩
    refine ⟨hnames, ?_, fun hopen _ => hseeded hopen, fun hopen => (hseeded hopen).listed,
      fun _ => hnorecord, fun _ => hnofail⟩
    rw [hlist]
    rintro f ⟨rfl⟩
    exact .inr ⟨_, .of_reads hreads⟩
  · have hread : (s.new legacy io).idx.gcProtectionIntact = some true →
        (s.new legacy io).ListIntact := by
      intro ht
      rw [hintact] at ht
      obtain ⟨file, es, -, hreads, hlist', hcids⟩ := load_intact h ht
      refine ⟨_, es, hlist.trans hlist', complete_complete _, hreads.cut, ?_⟩
      rw [hprotected, hcids]
      intro cid hcid
      obtain ⟨e, he, rfl⟩ := List.mem_map.mp hcid
      exact ⟨e, he, rfl⟩
    refine ⟨hnames, ?_, fun _ => hread, fun _ => ?_, fun _ => hnorecord, fun _ => hnofail⟩
    · rw [hlist]
      exact h.load_list io.gc
    · by_cases ht : (s.new legacy io).idx.gcProtectionIntact = some true
      · exact (hread ht).listed
      · rw [hprotected, load_cids io.gc (hintact ▸ ht)]
        exact fun _ hc => nomatch hc

theorem Guarded.new [Blake3] (hg : s.Guarded cid) (h : s.Sound) (legacy : Option DataManifest) (io : OpenIo)
    (hclosed : s.isOpen = false) : (s.new legacy io).Guarded cid := by
  obtain ⟨hfiles, -, -, hcase⟩ := new_cases legacy io s hclosed
  have hfile : cid ∈ (s.new legacy io).files := by
    rw [hfiles]
    exact hg.file
  rcases hcase with ⟨hopen, hlist⟩ | ⟨-, hlist, hmemory⟩ | ⟨-, hlist, -, hprotected, hintact⟩
  · apply hg.closed hfiles _ hopen
    rw [hlist]
    exact hg.load_list io.gc
  · -- All that is on disk is protected, and this chunk is.
    refine ⟨hfile, fun hopen _ => ?_, ?_⟩
    · rw [(hmemory hopen).2]
      exact hg.file
    · rw [hlist]
      rintro f ⟨rfl⟩
      exact .inr ⟨_, .of_reads (GcReads.write (seeded_readable h)), .legacy cid,
        List.mem_map_of_mem hg.file, rfl⟩
  · refine ⟨hfile, fun _ ht => ?_, ?_⟩
    · rw [hintact] at ht
      obtain ⟨file, es, hfile', hreads, -, hcids⟩ := load_intact h ht
      rw [hprotected, hcids]
      rcases hg.list file hfile' with hmalformed | ⟨es', hdurable, e, he, rfl⟩
      · have hcontent : file.content = file.synced := by
          unfold GcListFile.content
          rw [hmalformed.1, List.append_nil]
        have hparse := hreads.parse
        rw [hcontent, hmalformed.2] at hparse
        cases hparse
      · obtain ⟨es'', hsub, hreads'⟩ := hdurable.content
        have hsame : es.map GcEntry.cid = es''.map GcEntry.cid := by
          have hboth := hreads.parse.symm.trans hreads'.parse
          exact Option.some.inj hboth
        rw [hsame]
        exact List.mem_map_of_mem (hsub he)
    · rw [hlist]
      exact hg.load_list io.gc

/-! ### Recording an exemption -/

/-- What a call of `record_v2_held_chunk` does in a sound state. -/
theorem record_cases (h : s.Sound) (hopen : s.isOpen = true) (io : GcAppendIo) (root : Hash)
    (cid : Str) :
    (∃ e, s.recordV2HeldChunk io root cid = (s, .error e) ∧ cid ∉ s.idx.gcProtected) ∨
    (s.recordV2HeldChunk io root cid = ({ s with recorded := cid :: s.recorded }, .ok ()) ∧
      cid ∈ s.idx.gcProtected) ∨
    (s.idx.gcProtectionIntact = some true ∧
      ∃ text es, s.gcFiles.list = some ⟨text, []⟩ ∧ LineFile.complete text = text ∧
        GcReads text es ∧ (∀ cid ∈ s.idx.gcProtected, ∃ e ∈ es, e.cid = cid) ∧
        ((∃ gcFiles n e, gcFiles.list = some ⟨text, ((GcEntry.v2 root cid).line ++ ['\n']).take n⟩ ∧
            s.recordV2HeldChunk io root cid =
              ({ s with
                  gcFiles := gcFiles
                  idx := { s.idx with gcProtectionIntact := some false }
                  writeFailed := true }, .error e)) ∨
          ∃ gcFiles, gcFiles.list = some ⟨text ++ ((GcEntry.v2 root cid).line ++ ['\n']), []⟩ ∧
            s.recordV2HeldChunk io root cid =
              ({ s with
                  gcFiles := gcFiles
                  idx := { s.idx with gcProtected := cid :: s.idx.gcProtected }
                  recorded := cid :: s.recorded }, .ok ()))) := by
  unfold recordV2HeldChunk
  by_cases hcid : cid ∈ s.idx.gcProtected
  · rw [if_pos hcid]
    exact .inr (.inl ⟨rfl, hcid⟩)
  rw [if_neg hcid]
  split
  · exact .inl ⟨_, rfl, hcid⟩
  split
  · exact .inl ⟨_, rfl, hcid⟩
  rename_i hintact
  have hintact : s.idx.gcProtectionIntact = some true := not_not.mp hintact
  obtain ⟨text, es, hlist, hcomplete, hreads, hprotected⟩ := h.intact hopen hintact
  refine .inr (.inr ⟨hintact, text, es, hlist, hcomplete, hreads, hprotected, ?_⟩)
  rcases GcFiles.append_cases io hlist (GcEntry.v2 root cid).line with
    ⟨e, herror, hfiles⟩ | ⟨hok, hfiles⟩
  · left
    cases hout : s.gcFiles.append io (GcEntry.v2 root cid).line with
    | mk gcFiles result =>
      rw [hout] at herror hfiles
      obtain rfl : result = .error e := herror
      rcases hfiles with hsame | ⟨n, hn⟩
      · obtain rfl : gcFiles = s.gcFiles := hsame
        exact ⟨s.gcFiles, 0, e, hlist, rfl⟩
      · exact ⟨gcFiles, n, e, hn, rfl⟩
  · right
    cases hout : s.gcFiles.append io (GcEntry.v2 root cid).line with
    | mk gcFiles result =>
      rw [hout] at hok hfiles
      obtain rfl : result = .ok () := hok
      refine ⟨gcFiles, ?_, rfl⟩
      have hcontent : GcListFile.content ⟨text, []⟩ = text := List.append_nil _
      rw [hcontent] at hfiles
      exact hfiles

theorem Sound.record (h : s.Sound) (hopen : s.isOpen = true) (io : GcAppendIo) (root leaf : Hash) :
    (s.recordV2HeldChunk io root (cidFromBlake3Hash leaf)).1.Sound := by
  have hreadable : (GcEntry.v2 root (cidFromBlake3Hash leaf)).Readable :=
    .of_plain (cidFromBlake3Hash_plain leaf)
  rcases record_cases h hopen io root (cidFromBlake3Hash leaf) with ⟨e, hout, -⟩ | ⟨hout, hcid⟩ |
    ⟨hintact, text, es, hlist, hcomplete, hreads, hprotected, ⟨gcFiles, n, e, hfiles, hout⟩ |
      ⟨gcFiles, hfiles, hout⟩⟩
  · rw [hout]
    exact h
  · rw [hout]
    refine ⟨h.names, h.list, h.intact, h.memory, fun _ c hc => ?_, h.failed⟩
    rcases List.mem_cons.mp hc with rfl | hc
    · exact hcid
    · exact h.recorded hopen c hc
  · rw [hout]
    have hdurable := GcListFile.Durable.torn (e := .v2 root (cidFromBlake3Hash leaf)) hreads hcomplete
      hreadable n
    refine ⟨h.names, ?_, (fun _ hi => nomatch hi), ?_, h.recorded, (fun _ _ hi => nomatch hi)⟩
    · intro f hf
      rw [hfiles] at hf
      cases hf
      exact .inr ⟨es, hdurable⟩
    · intro _ c hc
      exact ⟨_, es, hfiles, hdurable, hprotected c hc⟩
  · rw [hout]
    have happend := hreads.append (e := .v2 root (cidFromBlake3Hash leaf)) hcomplete hreadable
    have hlisted : ∀ c ∈ cidFromBlake3Hash leaf :: s.idx.gcProtected,
        ∃ e ∈ es ++ [GcEntry.v2 root (cidFromBlake3Hash leaf)], e.cid = c := by
      intro c hc
      rcases List.mem_cons.mp hc with rfl | hc
      · exact ⟨_, List.mem_append_right _ (List.mem_singleton.mpr rfl), rfl⟩
      · obtain ⟨e, he, hce⟩ := hprotected c hc
        exact ⟨e, List.mem_append_left _ he, hce⟩
    refine ⟨h.names, ?_, fun _ _ => ?_, ?_, ?_, h.failed⟩
    · intro f hf
      rw [hfiles] at hf
      cases hf
      exact .inr ⟨_, .of_reads happend⟩
    · exact ⟨_, _, hfiles, complete_append_newline _ _, happend, hlisted⟩
    · intro _ c hc
      exact ⟨_, _, hfiles, .of_reads happend, hlisted c hc⟩
    · intro _ c hc
      rcases List.mem_cons.mp hc with rfl | hc
      · exact List.mem_cons_self ..
      · exact List.mem_cons_of_mem _ (h.recorded hopen c hc)

theorem Guarded.record (hg : s.Guarded cid) (h : s.Sound) (hopen : s.isOpen = true)
    (io : GcAppendIo) (root leaf : Hash) :
    (s.recordV2HeldChunk io root (cidFromBlake3Hash leaf)).1.Guarded cid := by
  have hreadable : (GcEntry.v2 root (cidFromBlake3Hash leaf)).Readable :=
    .of_plain (cidFromBlake3Hash_plain leaf)
  rcases record_cases h hopen io root (cidFromBlake3Hash leaf) with ⟨e, hout, -⟩ | ⟨hout, -⟩ |
    ⟨hintact, text, es, hlist, hcomplete, hreads, hprotected, ⟨gcFiles, n, e, hfiles, hout⟩ |
      ⟨gcFiles, hfiles, hout⟩⟩
  · rw [hout]
    exact hg
  · rw [hout]
    exact ⟨hg.file, hg.memory, hg.list⟩
  · rw [hout]
    refine ⟨hg.file, (fun _ hi => nomatch hi), ?_⟩
    intro f hf
    rw [hfiles] at hf
    cases hf
    exact .inr ⟨es, .torn (e := .v2 root (cidFromBlake3Hash leaf)) hreads hcomplete hreadable n,
      hprotected cid (hg.memory hopen hintact)⟩
  · rw [hout]
    refine ⟨hg.file, fun _ _ => List.mem_cons_of_mem _ (hg.memory hopen hintact), ?_⟩
    intro f hf
    rw [hfiles] at hf
    cases hf
    obtain ⟨e, he, hce⟩ := hprotected cid (hg.memory hopen hintact)
    exact .inr ⟨_, .of_reads (hreads.append (e := .v2 root (cidFromBlake3Hash leaf)) hcomplete hreadable),
      e, List.mem_append_left _ he, hce⟩

/-! ### Steps and runs -/

/-- An event that happened. -/
def Step [Blake3] (legacy : Option DataManifest) (s : StoreRoot) (e : StoreEvent) (t : StoreRoot) :
    Prop :=
  s.step legacy e = some t

theorem mem_put [Blake3] {files : ChunkStore} {io : Io} {c : Str} {data : Bytes} (h : cid ∈ files) :
    cid ∈ (files.put io c data).1 := by
  rcases (put_cases io files c data).1 with heq | ⟨heq, -⟩
  · rw [heq]
    exact h
  · rw [heq]
    exact AList.mem_insert _ |>.mpr (.inr h)

/-- New files have a content identifier as their name. -/
theorem Sound.put [Blake3] (h : s.Sound) (io : Io) (c : Str) (data : Bytes) :
    Sound { s with files := (s.files.put io c data).1 } := by
  refine ⟨?_, h.list, h.intact, h.memory, h.recorded, h.failed⟩
  show ∀ cid ∈ (s.files.put io c data).1, (GcEntry.legacy cid).Readable
  rcases (put_cases io s.files c data).1 with heq | ⟨heq, -, hcid⟩
  · rw [heq]
    exact h.names
  · rw [heq]
    intro cid hmem
    rcases AList.mem_insert _ |>.mp hmem with rfl | hmem
    · rw [← hcid]
      exact .of_plain (cidFromBlake3Hash_plain _)
    · exact h.names cid hmem

theorem crash_list {f : GcFiles} {kept : Nat} {keepsList keepsMarker : Bool} {l' : GcListFile}
    (h : (f.crash kept keepsList keepsMarker).list = some l') :
    ∃ l, f.list = some l ∧ l' = ⟨l.synced ++ l.unsynced.take kept, []⟩ := by
  unfold GcFiles.crash at h
  dsimp only at h
  split at h
  · obtain ⟨l, hl, rfl⟩ := Option.map_eq_some_iff.mp h
    exact ⟨l, hl, rfl⟩
  · cases h

theorem Malformed.crash {l : GcListFile} (h : l.Malformed) (n : Nat) :
    GcListFile.Malformed ⟨l.synced ++ l.unsynced.take n, []⟩ := by
  refine ⟨rfl, ?_⟩
  rw [h.1, List.take_nil, List.append_nil]
  exact h.2

/-- **One event keeps the state sound, and every chunk that is guarded.** -/
theorem Sound.step [Blake3] {legacy : Option DataManifest} (h : s.Sound) {e : StoreEvent}
    (hstep : Step legacy s e t) : t.Sound ∧ ∀ cid, s.Guarded cid → t.Guarded cid := by
  cases e with
  | new io =>
      simp only [Step, StoreRoot.step, Option.ite_none_left_eq_some, Bool.not_eq_true,
        Option.some.injEq] at hstep
      obtain ⟨hclosed, rfl⟩ := hstep
      exact ⟨h.new legacy io hclosed, fun cid hg => hg.new h legacy io hclosed⟩
  | close =>
      cases hstep
      exact ⟨h.closed rfl h.list rfl, fun cid hg => hg.closed rfl hg.list rfl⟩
  | crash kept keepsList keepsMarker =>
      cases hstep
      refine ⟨h.closed rfl ?_ rfl, fun cid hg => hg.closed rfl ?_ rfl⟩
      · intro l' hl'
        obtain ⟨l, hl, rfl⟩ := crash_list hl'
        exact (h.list l hl).imp (Malformed.crash · kept) fun ⟨es, hes⟩ => ⟨es, hes.crash kept⟩
      · intro l' hl'
        obtain ⟨l, hl, rfl⟩ := crash_list hl'
        exact (hg.list l hl).imp (Malformed.crash · kept) fun ⟨es, hes, he⟩ => ⟨es, hes.crash kept, he⟩
  | record root leaf io =>
      simp only [Step, StoreRoot.step, Option.ite_none_right_eq_some, Option.some.injEq] at hstep
      obtain ⟨hopen, rfl⟩ := hstep
      exact ⟨h.record hopen io root leaf, fun cid hg => hg.record h hopen io root leaf⟩
  | put leaf data io =>
      simp only [Step, StoreRoot.step, Option.ite_none_right_eq_some, Option.some.injEq] at hstep
      obtain ⟨-, rfl⟩ := hstep
      exact ⟨h.put io _ data, fun cid hg => ⟨mem_put hg.file, hg.memory, hg.list⟩⟩
  | otherPut c data io =>
      simp only [Step, StoreRoot.step, Option.ite_none_right_eq_some, Option.some.injEq] at hstep
      obtain ⟨-, rfl⟩ := hstep
      exact ⟨h.put io c data, fun cid hg => ⟨mem_put hg.file, hg.memory, hg.list⟩⟩
  | call c =>
      simp only [Step, StoreRoot.step, Option.ite_none_right_eq_some, Option.some.injEq] at hstep
      obtain ⟨-, rfl⟩ := hstep
      obtain ⟨-, hintact, hmemory⟩ := call_sameGc s.idx c
      refine ⟨⟨h.names, h.list, ?_, ?_, ?_, ?_⟩, fun cid hg => ⟨hg.file, ?_, hg.list⟩⟩
      · intro hopen hi
        obtain ⟨text, es, hlist, hcomplete, hreads, hprotected⟩ := h.intact hopen (hintact ▸ hi)
        exact ⟨text, es, hlist, hcomplete, hreads, fun c hc => hprotected c (hmemory ▸ hc)⟩
      · intro hopen c hc
        exact h.memory hopen c (hmemory ▸ hc)
      · intro hopen c hc
        rw [hmemory]
        exact h.recorded hopen c hc
      · intro hopen hf
        rw [hintact]
        exact h.failed hopen hf
      · intro hopen hi
        rw [hmemory]
        exact hg.memory hopen (hintact ▸ hi)
  | sweep rows nodeAddrs pollAge now deletes =>
      simp only [Step, StoreRoot.step, Option.ite_none_right_eq_some, Option.some.injEq] at hstep
      obtain ⟨hopen, rfl⟩ := hstep
      refine ⟨⟨?_, h.list, h.intact, h.memory, h.recorded, h.failed⟩,
        fun cid hg => ⟨?_, hg.memory, hg.list⟩⟩
      · intro cid hc
        exact h.names cid (sweep_subset s rows nodeAddrs pollAge now deletes hc)
      · exact mem_sweep s rows nodeAddrs pollAge now deletes hg.file (hg.memory hopen)
  | damage list =>
      simp only [Step, StoreRoot.step, Option.ite_none_right_eq_some, Option.some.injEq] at hstep
      obtain ⟨⟨hclosed, hbad⟩, rfl⟩ := hstep
      have hmalformed : ∀ f, list.map (fun text => GcListFile.mk text []) = some f →
          f.Malformed := by
        intro f hf
        obtain ⟨text, rfl, rfl⟩ := Option.map_eq_some_iff.mp hf
        exact ⟨rfl, hbad⟩
      exact ⟨h.closed rfl (fun f hf => .inl (hmalformed f hf)) hclosed,
        fun cid hg => hg.closed rfl (fun f hf => .inl (hmalformed f hf)) hclosed⟩

theorem Sound.run [Blake3] {legacy : Option DataManifest} {ls : List StoreEvent} (h : s.Sound)
    (hrun : Run (Step legacy) s ls t) : t.Sound ∧ ∀ cid, s.Guarded cid → t.Guarded cid := by
  have hall := hrun.invariant (P := fun _ u => u.Sound ∧ ∀ cid, s.Guarded cid → u.Guarded cid)
    (fun _ u e v hu hstep => by
      obtain ⟨hsound, hguarded⟩ := hu.1.step hstep
      exact ⟨hsound, fun cid hg => hguarded cid (hu.2 cid hg)⟩)
    [] ⟨h, fun _ hg => hg⟩
  exact hall

/-! ### What comes under protection -/

/-- The event stores a pushed chunk, or it creates the list while the chunk is on disk. -/
def Protects [Blake3] (s : StoreRoot) (e : StoreEvent) (t : StoreRoot) (cid : Str) : Prop :=
  (∃ leaf data io, e = .put leaf data io ∧ cid = cidFromBlake3Hash leaf ∧ cid ∈ t.files) ∨
  (∃ io, e = .new io ∧ s.gcFiles.list = none ∧ t.gcFiles.list ≠ none ∧ cid ∈ s.files)

theorem Sound.protects [Blake3] {legacy : Option DataManifest} (h : s.Sound) {e : StoreEvent}
    (hstep : Step legacy s e t) (hp : s.Protects e t cid) : t.Guarded cid := by
  rcases hp with ⟨leaf, data, io, rfl, rfl, hfile⟩ | ⟨io, rfl, hnone, hsome, hfile⟩
  · simp only [Step, StoreRoot.step, Option.ite_none_right_eq_some, Option.some.injEq] at hstep
    obtain ⟨⟨hopen, hrecorded⟩, rfl⟩ := hstep
    have hprotected := h.recorded hopen _ hrecorded
    exact ⟨hfile, fun _ _ => hprotected, (h.memory hopen _ hprotected).guards⟩
  · simp only [Step, StoreRoot.step, Option.ite_none_left_eq_some, Bool.not_eq_true,
      Option.some.injEq] at hstep
    obtain ⟨hclosed, rfl⟩ := hstep
    -- With no list on disk nothing guards the chunk yet, and nothing has to.
    have hg : s.Guarded cid := by
      refine ⟨hfile, fun hopen => ?_, ?_⟩
      · rw [hclosed] at hopen
        cases hopen
      · rw [hnone]
        exact fun _ hf => nomatch hf
    exact hg.new h legacy io hclosed

/-! ### A list that is not intact -/

/-- The list is missing, or a line of it does not parse. -/
def ListUnreadable (s : StoreRoot) : Prop :=
  ∀ f, s.gcFiles.list = some f → parseGcLines f.content = none

/-- The list is missing or malformed, or a write to it has failed. -/
def ListBroken (s : StoreRoot) : Prop := s.ListUnreadable ∨ s.writeFailed = true

theorem Sound.protected_of_unreadable (h : s.Sound) (hopen : s.isOpen = true)
    (hbad : s.ListUnreadable) : s.idx.gcProtected = [] := by
  apply List.eq_nil_iff_forall_not_mem.mpr
  intro cid hcid
  obtain ⟨f, es, hf, hdurable, -⟩ := h.memory hopen cid hcid
  obtain ⟨es', -, hreads⟩ := hdurable.content
  have hparse := hreads.parse
  rw [hbad f hf] at hparse
  cases hparse

theorem Sound.not_intact (h : s.Sound) (hopen : s.isOpen = true) (hb : s.ListBroken) :
    s.idx.gcProtectionIntact ≠ some true := by
  rcases hb with hbad | hfailed
  · intro hintact
    obtain ⟨text, es, hlist, -, hreads, -⟩ := h.intact hopen hintact
    have hparse := hbad _ hlist
    have hcontent : GcListFile.content ⟨text, []⟩ = text := List.append_nil _
    rw [hcontent, hreads.parse] at hparse
    cases hparse
  · exact h.failed hopen hfailed

theorem Sound.accepted (h : s.Sound) (hopen : s.isOpen = true) (hb : s.ListBroken)
    {io : GcAppendIo} {root : Hash} (hok : (s.recordV2HeldChunk io root cid).2 = .ok ()) :
    cid ∈ s.idx.gcProtected := by
  rcases record_cases h hopen io root cid with ⟨e, hout, -⟩ | ⟨-, hcid⟩ | ⟨hintact, -⟩
  · rw [hout] at hok
    cases hok
  · exact hcid
  · exact absurd hintact (h.not_intact hopen hb)

end StoreRoot

/-! ### Histories -/

/--
**No sweep deletes a pushed chunk, or one that was there when the list was created,** in
any history of a store root, with crashes anywhere and the list lost or damaged between
opens, if a line of the list can carry the name of each chunk that was there first.  While
the list is missing, malformed or had a failed write, a sweep deletes nothing, and a chunk is
accepted only if it is already protected; while it is missing or malformed, none is.
-/
theorem pushed_chunks_are_kept [Blake3] (legacy : Option DataManifest) (start : StoreRoot)
    (hclosed : start.isOpen = false) (hfirst : start.gcFiles.list = none)
    (hnames : ∀ key ∈ start.files, publicationName key = .ok ())
    (hlistable : ∀ key ∈ start.files, ListableKey key) (ls : List StoreEvent) (s : StoreRoot)
    (hrun : Run (StoreRoot.Step legacy) start ls s) :
    (∀ e t ls' u cid, StoreRoot.Step legacy s e t → s.Protects e t cid →
      Run (StoreRoot.Step legacy) t ls' u → cid ∈ u.files) ∧
    (s.isOpen = true → s.ListBroken →
      (∀ rows nodeAddrs pollAge now deletes t,
        StoreRoot.Step legacy s (.sweep rows nodeAddrs pollAge now deletes) t → t.files = s.files) ∧
      (∀ io root leaf, (s.recordV2HeldChunk io root (cidFromBlake3Hash leaf)).2 = .ok () →
        ¬ s.ListUnreadable ∧ cidFromBlake3Hash leaf ∈ s.idx.gcProtected) ∧
      (∀ leaf data io t, StoreRoot.Step legacy s (.put leaf data io) t →
        ¬ s.ListUnreadable ∧ cidFromBlake3Hash leaf ∈ s.idx.gcProtected)) := by
  have hstart : start.Sound := by
    refine ⟨fun key hkey => ⟨ne_nil_of_publicationName (hnames key hkey), hlistable key hkey⟩,
      ?_, ?_, ?_, ?_, ?_⟩
    · rw [hfirst]
      exact fun _ hf => nomatch hf
    all_goals
      intro hopen
      rw [hclosed] at hopen
      cases hopen
  have hsound := (hstart.run hrun).1
  refine ⟨?_, ?_⟩
  · intro e t ls' u cid hstep hp hrun'
    have hguarded := hsound.protects hstep hp
    have hnext := (hsound.step hstep).1
    exact ((hnext.run hrun').2 cid hguarded).file
  · intro hopen hb
    have hreadable : ∀ cid ∈ s.idx.gcProtected, ¬ s.ListUnreadable := by
      intro cid hcid hbad
      rw [hsound.protected_of_unreadable hopen hbad] at hcid
      cases hcid
    refine ⟨?_, ?_, ?_⟩
    · intro rows nodeAddrs pollAge now deletes t hstep
      simp only [StoreRoot.Step, StoreRoot.step, Option.ite_none_right_eq_some, Option.some.injEq]
        at hstep
      obtain ⟨-, rfl⟩ := hstep
      exact StoreRoot.sweep_files s rows nodeAddrs pollAge now deletes (hsound.not_intact hopen hb)
    · intro io root leaf hok
      have hcid := hsound.accepted hopen hb hok
      exact ⟨hreadable _ hcid, hcid⟩
    · intro leaf data io t hstep
      simp only [StoreRoot.Step, StoreRoot.step, Option.ite_none_right_eq_some, Option.some.injEq]
        at hstep
      obtain ⟨⟨-, hrecorded⟩, -⟩ := hstep
      have hcid := hsound.recorded hopen _ hrecorded
      exact ⟨hreadable _ hcid, hcid⟩

/-! #### One pushed chunk

The chunk of no bytes is pushed to a fresh store.  A sweep after a restart has it and
another chunk of its file before it; then the write for another chunk fails. -/

/-- A root on which nothing was stored yet. -/
def emptyRoot : StoreRoot where
  files := ∅
  idx := ⟨ManifestDir.fresh, ∅, ∅, ∅, ∅, [], ∅, ∅, none⟩
  gcFiles := ⟨none, true, false, true⟩
  worker := ⟨0, 1, ⟨∅, 0⟩⟩
  isOpen := false
  recorded := []
  writeFailed := false

/-- All goes well. -/
def OpenIo.done : OpenIo := ⟨[], true, .done, ⟨true, .done, .done⟩, true, true, ⟨true, true, true, .done⟩⟩

def GcAppendIo.done : GcAppendIo := ⟨true, none, true⟩

section
variable [Blake3]

/-- The store is opened and the exemption of the chunk recorded. -/
def recordedRoot : StoreRoot :=
  ((emptyRoot.new none .done).recordV2HeldChunk .done Hash.zero (cidFromData [])).1

/-- The write for another chunk stops after three characters. -/
def failedRoot : StoreRoot :=
  (recordedRoot.recordV2HeldChunk ⟨true, some 3, true⟩ Hash.zero (cidFromBlake3Hash Hash.zero)).1

theorem failedRoot_run : Run (StoreRoot.Step none) emptyRoot
    [.new .done, .record Hash.zero (Blake3.hash []) .done,
      .record Hash.zero Hash.zero ⟨true, some 3, true⟩] failedRoot :=
  .cons rfl (.cons rfl (.single rfl))

theorem failedRoot_fields (h : Blake3.hash [] ≠ Hash.zero) :
    failedRoot.isOpen = true ∧ failedRoot.writeFailed = true ∧
      failedRoot.recorded = [cidFromData []] ∧ failedRoot.idx.gcProtected = [cidFromData []] ∧
      failedRoot.files = ∅ := by
  have hne : cidFromBlake3Hash Hash.zero ∉ recordedRoot.idx.gcProtected := by
    show cidFromBlake3Hash Hash.zero ∉ [cidFromBlake3Hash (Blake3.hash [])]
    rw [List.mem_singleton]
    exact fun heq => h (cidFromBlake3Hash_inj heq).symm
  unfold failedRoot StoreRoot.recordV2HeldChunk
  rw [if_neg hne]
  exact ⟨rfl, rfl, rfl, rfl, rfl⟩

/-- The chunk is written. -/
theorem stored_step {s : StoreRoot} (hopen : s.isOpen = true) (hrecorded : cidFromData [] ∈ s.recorded)
    (hfiles : s.files = ∅) :
    StoreRoot.Step none s (.put (Blake3.hash []) [] .done)
      { s with files := (∅ : ChunkStore).insert (cidFromData []) [] } := by
  show (if s.isOpen = true ∧ cidFromData [] ∈ s.recorded then
    some { s with files := (s.files.put .done (cidFromData []) []).1 } else none) = _
  rw [if_pos ⟨hopen, hrecorded⟩, hfiles]
  unfold ChunkStore.put
  rw [if_neg (by simp)]
  rfl

end

/-- A root that had one chunk before there was a list. -/
def oldRoot [Blake3] : StoreRoot :=
  { emptyRoot with files := (∅ : ChunkStore).insert (cidFromData [2]) [2] }

/-- A file of three chunks: the pushed one, one that comes in another way, and the old one. -/
def threeChunks [Blake3] : DataManifest :=
  let nodes := [Blake3.hash [], Blake3.hash [1], Blake3.hash [2]]
  manifestOver (MerkleTree.build nodes).root nodes

/-- The open that writes the list, and all up to the exemption of the pushed chunk. -/
def pushEvents [Blake3] : List StoreEvent :=
  [.call (.insert threeChunks .done), .otherPut (cidFromData [1]) [1] .done,
    .record threeChunks.merkleRoot (Blake3.hash []) .done]

/-- A crash, a restart, and a sweep by a market that gives the whole file to another node. -/
def sweepEvents [Blake3] : List StoreEvent :=
  [.crash 0 false false, .new { OpenIo.done with order := [threeChunks.merkleRoot] },
    .sweep [⟨hexEncode threeChunks.merkleRoot.bytes, 3 * chunkSize⟩] [5] 0 0 fun _ => true]

/-- None of the three is wanted: the sweep deletes one, and keeps the pushed one and the old one. -/
theorem pushed_chunk_is_kept :
    letI := Blake3.reference
    ∃ r s t u, StoreRoot.Step none oldRoot (.new .done) r ∧
      Run (StoreRoot.Step none) r pushEvents s ∧
      StoreRoot.Step none s (.put (Blake3.hash []) [] .done) t ∧
      Run (StoreRoot.Step none) t sweepEvents u ∧
      cidFromData [1] ∈ t.files ∧ cidFromData [1] ∉ u.files ∧
      cidFromData [] ∈ u.files ∧ cidFromData [2] ∈ u.files := by
  let _ := Blake3.reference
  have hend : ((oldRoot.step none (.new .done)).any fun r =>
      r.gcFiles.list.isSome && (pushEvents.foldlM (StoreRoot.step none) r).any fun s =>
        (s.step none (.put (Blake3.hash []) [] .done)).any fun t =>
          (sweepEvents.foldlM (StoreRoot.step none) t).any fun u =>
            decide (cidFromData [] ∈ t.files ∧ cidFromData [1] ∈ t.files ∧
              cidFromData [1] ∉ u.files)) = true := by
    decide +kernel
  obtain ⟨r, hr, hend⟩ := (Option.any_eq_true _ _).mp hend
  obtain ⟨hlist, hend⟩ := Bool.and_eq_true_iff.mp hend
  obtain ⟨s, hs, hend⟩ := (Option.any_eq_true _ _).mp hend
  obtain ⟨t, ht, hend⟩ := (Option.any_eq_true _ _).mp hend
  obtain ⟨u, hu, hend⟩ := (Option.any_eq_true _ _).mp hend
  obtain ⟨hpushed, hother, hswept⟩ := of_decide_eq_true hend
  have hpush := Run.of_foldlM hs
  have hsweep := Run.of_foldlM hu
  have hname : ∀ key ∈ oldRoot.files, key = cidFromData [2] := by
    intro key hkey
    exact (AList.mem_insert _ |>.mp hkey).resolve_right fun h => nomatch h
  have hnames : ∀ key ∈ oldRoot.files, publicationName key = .ok () := by
    intro key hkey
    rw [hname key hkey]
    exact if_neg (by decide +kernel)
  have hlistable : ∀ key ∈ oldRoot.files, ListableKey key := by
    intro key hkey
    rw [hname key hkey]
    exact (cidFromBlake3Hash_plain _).listable
  obtain ⟨hold, -⟩ := pushed_chunks_are_kept none oldRoot rfl rfl hnames hlistable [] oldRoot (.nil _)
  obtain ⟨hnew, -⟩ := pushed_chunks_are_kept none oldRoot rfl rfl hnames hlistable _ s
    (.cons hr hpush)
  refine ⟨r, s, t, u, hr, hpush, ht, hsweep, hother, hswept,
    hnew _ t _ u _ ht (.inl ⟨_, _, _, rfl, rfl, hpushed⟩) hsweep, ?_⟩
  refine hold _ r _ u _ hr (.inr ⟨_, rfl, rfl, Option.isSome_iff_ne_none.mp hlist, ?_⟩)
    (hpush.append (.cons ht hsweep))
  exact AList.mem_insert _ |>.mpr (.inl rfl)

/-- **A chunk is accepted after the write for another one failed:** its exemption is recorded. -/
theorem protected_chunk_accepted_after_failure :
    letI := Blake3.reference
    ∃ ls s t, Run (StoreRoot.Step none) emptyRoot ls s ∧ s.isOpen = true ∧ s.ListBroken ∧
      (s.recordV2HeldChunk .done Hash.zero (cidFromData [])).2 = .ok () ∧
      StoreRoot.Step none s (.put (Blake3.hash []) [] .done) t ∧
      cidFromData [] ∉ s.files ∧ cidFromData [] ∈ t.files := by
  have hne : letI := Blake3.reference; Blake3.hash [] ≠ Hash.zero := by decide +kernel
  revert hne
  generalize Blake3.reference = b
  intro hne
  obtain ⟨hopen, hfailed, hrecorded, hprotected, hfiles⟩ := failedRoot_fields hne
  have hmem : cidFromData [] ∈ failedRoot.idx.gcProtected := by
    rw [hprotected]
    exact List.mem_singleton.mpr rfl
  refine ⟨_, _, _, failedRoot_run, hopen, .inr hfailed, ?_, stored_step hopen ?_ hfiles, ?_, ?_⟩
  · unfold StoreRoot.recordV2HeldChunk
    rw [if_pos hmem]
  · rw [hrecorded]
    exact List.mem_singleton.mpr rfl
  · rw [hfiles]
    exact fun h => nomatch h
  · exact AList.mem_insert _ |>.mpr (.inl rfl)

end Snip
