/-
Which file a chunk belongs to, over a history of an index.

The lookup reads two maps, and a load fills both from the disk in an order no one
chooses.  So it stays what it is only while the disk leaves no choice: `Settled` says
that every binding in memory has its line or manifest on disk, and that no other file on
disk names the same chunk.  An inserted manifest that lists a chunk of another file ends
that, and nothing in the code asks for it.
-/
import Mathlib.Data.List.Dedup
import Snip.Lib.Maps
import Snip.Lib.Steps
import Snip.Blake3
import Snip.Store.IndexOps
import Snip.Proofs.SumStore

namespace Snip

/-- The manifest has a chunk of this name. -/
def DataManifest.Lists (m : DataManifest) (cid : Str) : Prop :=
  ∃ c ∈ m.chunks, c.cid = cid

instance (m : DataManifest) (cid : Str) : Decidable (m.Lists cid) :=
  inferInstanceAs (Decidable (∃ c ∈ m.chunks, c.cid = cid))

variable {idx idx' : ManifestIndex} {cid : Str}

/-! ### What the maps hold -/

theorem lookup_addToMaps (idx : ManifestIndex) (m : DataManifest) (cid : Str) :
    (idx.addToMaps m).cidToRoot.lookup cid =
      if m.Lists cid then some m.merkleRoot else idx.cidToRoot.lookup cid := by
  have hfold : ∀ (chunks : List ChunkDescriptor) (acc : Map Str Hash),
      (chunks.foldl (fun acc c => acc.insert c.cid m.merkleRoot) acc).lookup cid =
        if ∃ c ∈ chunks, c.cid = cid then some m.merkleRoot else acc.lookup cid := by
    intro chunks
    induction chunks with
    | nil =>
        intro acc
        simp
    | cons c chunks ih =>
        intro acc
        rw [List.foldl_cons, ih, Maps.lookup_insert]
        by_cases hrest : ∃ c ∈ chunks, c.cid = cid
        · rw [if_pos hrest, if_pos]
          obtain ⟨c', hc', heq⟩ := hrest
          exact ⟨c', List.mem_cons_of_mem _ hc', heq⟩
        · rw [if_neg hrest]
          by_cases hc : cid = c.cid
          · rw [if_pos hc, if_pos ⟨c, List.mem_cons_self .., hc.symm⟩]
          · rw [if_neg hc, if_neg]
            rintro ⟨c', hc', heq⟩
            rcases List.mem_cons.mp hc' with rfl | hc'
            · exact hc heq.symm
            · exact hrest ⟨c', hc', heq⟩
  exact hfold m.chunks idx.cidToRoot

/-- The last manifest that lists the chunk has it, and there may be several. -/
theorem lookup_foldl_addToMaps (cid : Str) (ms : List DataManifest) (idx : ManifestIndex) :
    (∃ m ∈ ms, m.Lists cid ∧
      (ms.foldl ManifestIndex.addToMaps idx).cidToRoot.lookup cid = some m.merkleRoot) ∨
    ((∀ m ∈ ms, ¬ m.Lists cid) ∧
      (ms.foldl ManifestIndex.addToMaps idx).cidToRoot.lookup cid = idx.cidToRoot.lookup cid) := by
  induction ms generalizing idx with
  | nil => exact .inr ⟨(fun _ h => nomatch h), rfl⟩
  | cons m ms ih =>
      rw [List.foldl_cons]
      rcases ih (idx.addToMaps m) with ⟨m', hm', hlists, hlook⟩ | ⟨hnone, hlook⟩
      · exact .inl ⟨m', List.mem_cons_of_mem _ hm', hlists, hlook⟩
      rw [lookup_addToMaps] at hlook
      by_cases hm : m.Lists cid
      · rw [if_pos hm] at hlook
        exact .inl ⟨m, List.mem_cons_self .., hm, hlook⟩
      · rw [if_neg hm] at hlook
        refine .inr ⟨?_, hlook⟩
        intro m' hm'
        rcases List.mem_cons.mp hm' with rfl | hm'
        · exact hm
        · exact hnone m' hm'

theorem lookup_foldl_lines (cid : Str) (ls : List (Hash × Str)) (acc : Map Str Hash) :
    (∃ l ∈ ls, l.2 = cid ∧
      (ls.foldl (fun acc l => acc.insert l.2 l.1) acc).lookup cid = some l.1) ∨
    ((∀ l ∈ ls, l.2 ≠ cid) ∧
      (ls.foldl (fun acc l => acc.insert l.2 l.1) acc).lookup cid = acc.lookup cid) := by
  induction ls generalizing acc with
  | nil => exact .inr ⟨(fun _ h => nomatch h), rfl⟩
  | cons l ls ih =>
      rw [List.foldl_cons]
      rcases ih (acc.insert l.2 l.1) with ⟨l', hl', hcid, hlook⟩ | ⟨hnone, hlook⟩
      · exact .inl ⟨l', List.mem_cons_of_mem _ hl', hcid, hlook⟩
      rw [Maps.lookup_insert] at hlook
      by_cases hl : cid = l.2
      · rw [if_pos hl] at hlook
        exact .inl ⟨l, List.mem_cons_self .., hl.symm, hlook⟩
      · rw [if_neg hl] at hlook
        refine .inr ⟨?_, hlook⟩
        intro l' hl'
        rcases List.mem_cons.mp hl' with rfl | hl'
        · exact Ne.symm hl
        · exact hnone l' hl'

/-- A line of the file of the root is read as the identifier. -/
def ManifestDir.Binds (dir : ManifestDir) (root : Hash) (cid : Str) : Prop :=
  ∃ line ∈ (dir.privateChunks.lookup root).getD [], readPrivateChunk line = some cid

theorem mem_readPrivateChunks {dir : ManifestDir} (order : List Hash) {l : Hash × Str} :
    l ∈ ManifestIndex.readPrivateChunks dir order ↔ dir.Binds l.1 l.2 := by
  unfold ManifestIndex.readPrivateChunks ManifestDir.Binds
  simp only [List.mem_flatMap, List.mem_append, List.mem_filter, decide_eq_true_eq, List.mem_map,
    ManifestIndex.mem_privateChunkCids]
  constructor
  · rintro ⟨r, -, cid, hread, rfl⟩
    exact hread
  · rintro ⟨line, hline, hread⟩
    have hroot : l.1 ∈ dir.privateChunks.keys := by
      by_contra hno
      have hnone : dir.privateChunks.lookup l.1 = none :=
        AList.lookup_eq_none.mpr fun h => hno (AList.mem_keys.mp h)
      rw [hnone] at hline
      cases hline
    refine ⟨l.1, ?_, l.2, ⟨line, hline, hread⟩, rfl⟩
    by_cases horder : l.1 ∈ order
    · exact .inl ⟨horder, hroot⟩
    · exact .inr ⟨hroot, horder⟩

/-! ### What an operation may do -/

namespace ManifestIndex

/-- No chunk of the manifest belongs to another file, in memory or by a manifest on disk. -/
def TakesFromNone (idx : ManifestIndex) (m : DataManifest) : Prop :=
  ∀ cid, m.Lists cid →
    (∀ r, idx.merkleRootForCid cid = some r → r = m.merkleRoot) ∧
    ∀ r m', idx.dir.cbor.lookup r = some m' → m'.Lists cid → r = m.merkleRoot

/-- What must hold where the manifest is written: a write that stops replaces no manifest, and
any other takes no chunk from another file and drops none from its own. -/
def MayWrite (idx : ManifestIndex) (m : DataManifest) (io : Io) : Prop :=
  (io = .lost → idx.dir.cbor.lookup m.merkleRoot = none) ∧
  (io ≠ .lost → idx.TakesFromNone m ∧
    ∀ m', idx.dir.cbor.lookup m.merkleRoot = some m' → ∀ cid, m'.Lists cid → m.Lists cid)

/-- The condition on a call and the index before it. -/
def CallKeeps [Blake3] (idx : ManifestIndex) : IndexCall → Prop
  | .insert m io => idx.MayWrite m io
  | .commitValidated v io =>
      idx.getByMerkleRoot v.manifest.merkleRoot = none → idx.MayWrite v.manifest io
  | .recordPrivateChunkCid root cid io =>
      idx.privateCidToRoot.lookup cid = none →
        -- what a write that stops leaves of any other text is not followed here
        (io = .lost → '\n' ∉ cid ∧ Ascii cid) ∧
        (io ≠ .lost → ∀ line ∈ cid.splitOn '\n', ∀ read, readPrivateChunk line = some read →
          ∀ r, idx.dir.Binds r read → r = root) ∧
        (io = .done → idx.cidToRoot.lookup cid = none → LineText cid ∧
          ∀ r m, idx.dir.cbor.lookup r = some m → m.Lists cid → r = root)
  | .insertPrivate .. | .recordV2HeldIndex .. | .recordV2PushedProof .. => True

/-- The condition on an operation: a load may always be. -/
def Keeps [Blake3] (idx : ManifestIndex) : IndexOp → Prop
  | .call c => idx.CallKeeps c
  | .reload .. => True

/-- An operation that meets the condition. -/
def KeepsStep [Blake3] (legacy : Option DataManifest) (idx : ManifestIndex) (op : IndexOp)
    (idx' : ManifestIndex) : Prop :=
  idx.Keeps op ∧ idx' = idx.apply legacy op

/-- The disk leaves no choice of the file that a chunk in memory belongs to. -/
structure Settled (legacy : Option DataManifest) (idx : ManifestIndex) : Prop where
  fileName : ∀ r m, idx.dir.cbor.lookup r = some m → m.merkleRoot = r
  listed : ∀ cid r, idx.cidToRoot.lookup cid = some r →
    ∃ m, idx.dir.cbor.lookup r = some m ∧ m.Lists cid
  apart : ∀ cid r m r' m', idx.dir.cbor.lookup r = some m → idx.dir.cbor.lookup r' = some m' →
    m.Lists cid → m'.Lists cid → r = r'
  line : ∀ cid r, idx.privateCidToRoot.lookup cid = some r → idx.cidToRoot.lookup cid = none →
    idx.dir.Binds r cid
  linesApart : ∀ cid r r', idx.dir.Binds r cid → idx.dir.Binds r' cid → r = r'
  alone : ∀ cid r r' m, idx.privateCidToRoot.lookup cid = some r →
    idx.cidToRoot.lookup cid = none → idx.dir.cbor.lookup r' = some m → m.Lists cid → r' = r
  migrated : legacy ≠ none → ∃ r m, idx.dir.cbor.lookup r = some m

/-- What is bound stays bound to the same file. -/
def KeepsRoots (idx idx' : ManifestIndex) : Prop :=
  ∀ cid r, idx.merkleRootForCid cid = some r → idx'.merkleRootForCid cid = some r

theorem merkleRootForCid_some {r : Hash} : idx.merkleRootForCid cid = some r ↔
    idx.cidToRoot.lookup cid = some r ∨
      (idx.cidToRoot.lookup cid = none ∧ idx.privateCidToRoot.lookup cid = some r) := by
  unfold merkleRootForCid
  cases idx.cidToRoot.lookup cid with
  | none => simp
  | some r' => simp

/-- The parts that the lookup and a load of it depend on are the same. -/
structure SameRoots (idx idx' : ManifestIndex) : Prop where
  cbor : idx'.dir.cbor = idx.dir.cbor
  privateChunks : idx'.dir.privateChunks = idx.dir.privateChunks
  cidToRoot : idx'.cidToRoot = idx.cidToRoot
  privateCidToRoot : idx'.privateCidToRoot = idx.privateCidToRoot

theorem SameRoots.refl (idx : ManifestIndex) : SameRoots idx idx := ⟨rfl, rfl, rfl, rfl⟩

theorem SameRoots.keeps (h : SameRoots idx idx') : KeepsRoots idx idx' := by
  intro cid r hr
  unfold merkleRootForCid at hr ⊢
  rwa [h.cidToRoot, h.privateCidToRoot]

variable {legacy : Option DataManifest}

theorem Settled.of_same (h : Settled legacy idx) (hs : SameRoots idx idx') : Settled legacy idx' := by
  obtain ⟨h1, h2, h3, h4, h5, h6, h7⟩ := h
  refine ⟨?_, ?_, ?_, ?_, ?_, ?_, ?_⟩
  · rwa [hs.cbor]
  · rwa [hs.cbor, hs.cidToRoot]
  · rwa [hs.cbor]
  · unfold ManifestDir.Binds
    rwa [hs.privateChunks, hs.cidToRoot, hs.privateCidToRoot]
  · unfold ManifestDir.Binds
    rwa [hs.privateChunks]
  · rwa [hs.cbor, hs.cidToRoot, hs.privateCidToRoot]
  · rwa [hs.cbor]

/-! ### Writing a manifest -/

/-- The manifest on disk, and not in memory. -/
theorem Settled.written (h : Settled legacy idx) {m : DataManifest} {cbor : Map Hash DataManifest}
    (htakes : idx.TakesFromNone m)
    (hown : ∀ m', idx.dir.cbor.lookup m.merkleRoot = some m' → ∀ cid, m'.Lists cid → m.Lists cid)
    (hcbor : cbor = idx.dir.cbor.insert m.merkleRoot m) :
    Settled legacy { idx with dir := { idx.dir with cbor := cbor } } := by
  subst hcbor
  -- What another root has on disk was there before, so it shares no chunk with `m`.
  have hother : ∀ cid r m', m.Lists cid → idx.dir.cbor.lookup r = some m' → m'.Lists cid →
      r = m.merkleRoot := fun cid r m' hm hr hm' => (htakes cid hm).2 r m' hr hm'
  refine ⟨?_, ?_, ?_, h.line, h.linesApart, ?_, ?_⟩
  · intro r m' hr
    rcases Maps.lookup_insert_some.mp hr with ⟨rfl, rfl⟩ | ⟨-, hr⟩
    · rfl
    · exact h.fileName r m' hr
  · intro cid r hr
    obtain ⟨m', hm', hlists⟩ := h.listed cid r hr
    by_cases hroot : r = m.merkleRoot
    · subst hroot
      exact ⟨m, AList.lookup_insert _, hown m' hm' cid hlists⟩
    · exact ⟨m', by rw [AList.lookup_insert_ne hroot]; exact hm', hlists⟩
  · intro cid r m1 r' m2 hr hr' hm1 hm2
    rcases Maps.lookup_insert_some.mp hr with ⟨rfl, rfl⟩ | ⟨-, hr⟩
    · rcases Maps.lookup_insert_some.mp hr' with ⟨rfl, rfl⟩ | ⟨-, hr'⟩
      · rfl
      · exact (hother cid r' m2 hm1 hr' hm2).symm
    · rcases Maps.lookup_insert_some.mp hr' with ⟨rfl, rfl⟩ | ⟨-, hr'⟩
      · exact hother cid r m1 hm2 hr hm1
      · exact h.apart cid r m1 r' m2 hr hr' hm1 hm2
  · intro cid r r' m' hprivate hpublic hr' hlists
    rcases Maps.lookup_insert_some.mp hr' with ⟨rfl, rfl⟩ | ⟨-, hr'⟩
    · exact ((htakes cid hlists).1 r (merkleRootForCid_some.mpr (.inr ⟨hpublic, hprivate⟩))).symm
    · exact h.alone cid r r' m' hprivate hpublic hr' hlists
  · intro _
    exact ⟨_, _, AList.lookup_insert _⟩

/-- The manifest on disk is taken into memory. -/
theorem Settled.addToMaps (h : Settled legacy idx) {m : DataManifest}
    (hdisk : idx.dir.cbor.lookup m.merkleRoot = some m) : Settled legacy (idx.addToMaps m) := by
  refine ⟨h.fileName, ?_, h.apart, ?_, h.linesApart, ?_, h.migrated⟩
  · intro cid r hr
    rw [lookup_addToMaps] at hr
    split at hr
    · rename_i hlists
      cases hr
      exact ⟨m, hdisk, hlists⟩
    · exact h.listed cid r hr
  · intro cid r hprivate hpublic
    rw [lookup_addToMaps] at hpublic
    split at hpublic
    · cases hpublic
    · exact h.line cid r hprivate hpublic
  · intro cid r r' m' hprivate hpublic hr' hlists
    rw [lookup_addToMaps] at hpublic
    split at hpublic
    · cases hpublic
    · exact h.alone cid r r' m' hprivate hpublic hr' hlists

theorem keepsRoots_addToMaps {m : DataManifest}
    (h : ∀ cid, m.Lists cid → ∀ r, idx.merkleRootForCid cid = some r → r = m.merkleRoot) :
    KeepsRoots idx (idx.addToMaps m) := by
  intro cid r hr
  rw [merkleRootForCid_some, lookup_addToMaps]
  by_cases hlists : m.Lists cid
  · rw [if_pos hlists, h cid hlists r hr]
    exact .inl rfl
  · rw [if_neg hlists]
    exact merkleRootForCid_some.mp hr

theorem Settled.insert (h : Settled legacy idx) {m : DataManifest} {io : Io}
    (hmay : idx.MayWrite m io) :
    Settled legacy (idx.insert io m).1 ∧ KeepsRoots idx (idx.insert io m).1 := by
  cases io with
  | lost =>
      -- There was no file of this name, so there is none now.
      have hnone := hmay.1 rfl
      have herase : ∀ r, (idx.dir.cbor.erase m.merkleRoot).lookup r = idx.dir.cbor.lookup r := by
        intro r
        rw [Maps.lookup_erase]
        split
        · rename_i hr
          rw [hr, hnone]
        · rfl
      refine ⟨⟨?_, ?_, ?_, h.line, h.linesApart, ?_, ?_⟩, fun cid r hr => hr⟩
      · intro r m' hr
        exact h.fileName r m' (herase r ▸ hr)
      · intro cid r hr
        obtain ⟨m', hm', hlists⟩ := h.listed cid r hr
        exact ⟨m', (herase r).trans hm', hlists⟩
      · intro cid r m1 r' m2 hr hr'
        exact h.apart cid r m1 r' m2 (herase r ▸ hr) (herase r' ▸ hr')
      · intro cid r r' m' hprivate hpublic hr'
        exact h.alone cid r r' m' hprivate hpublic (herase r' ▸ hr')
      · intro hlegacy
        obtain ⟨r, m', hr⟩ := h.migrated hlegacy
        exact ⟨r, m', (herase r).trans hr⟩
  | unsynced =>
      obtain ⟨htakes, hown⟩ := hmay.2 (fun h => nomatch h)
      exact ⟨h.written htakes hown rfl, fun cid r hr => hr⟩
  | done =>
      obtain ⟨htakes, hown⟩ := hmay.2 (fun h => nomatch h)
      have hdisk := h.written htakes hown rfl
      refine ⟨hdisk.addToMaps (AList.lookup_insert _), ?_⟩
      show KeepsRoots { idx with dir := { idx.dir with cbor := idx.dir.cbor.insert m.merkleRoot m } }
        (ManifestIndex.addToMaps _ m)
      exact keepsRoots_addToMaps fun cid hlists => (htakes cid hlists).1

theorem Settled.commitValidated [Blake3] (h : Settled legacy idx) {v : ValidatedManifest} {io : Io}
    (hmay : idx.getByMerkleRoot v.manifest.merkleRoot = none → idx.MayWrite v.manifest io) :
    Settled legacy (idx.commitValidated io v).1 ∧ KeepsRoots idx (idx.commitValidated io v).1 := by
  unfold ManifestIndex.commitValidated
  cases hget : idx.getByMerkleRoot v.manifest.merkleRoot with
  | some m => exact ⟨h, fun _ _ hr => hr⟩
  | none =>
      have hinsert := h.insert (hmay hget)
      dsimp only
      split
      · rename_i hout
        rwa [hout] at hinsert
      · rename_i hout
        rwa [hout] at hinsert

/-! ### A private chunk -/

/-- What a call appends to the file of its root. -/
def appendedLines (io : Io) (cid : Str) : List Str := if io = .lost then [] else cid.splitOn '\n'

/-- The files of the private chunks after a call that writes. -/
theorem binds_appendText (dir : ManifestDir) (io : Io) (cid : Str) (root r : Hash) (read : Str) :
    ManifestDir.Binds { dir with
        privateChunks := dir.privateChunks.insert root
          (appendText io ((dir.privateChunks.lookup root).getD []) cid).1 } r read ↔
      dir.Binds r read ∨
        r = root ∧ ∃ line ∈ appendedLines io cid, readPrivateChunk line = some read := by
  have hlines : (appendText io ((dir.privateChunks.lookup root).getD []) cid).1
      = (dir.privateChunks.lookup root).getD [] ++ appendedLines io cid := by
    cases io with
    | lost => exact (List.append_nil _).symm
    | done => rfl
    | unsynced => rfl
  unfold ManifestDir.Binds
  dsimp only
  rw [hlines, Maps.lookup_insert]
  by_cases hr : r = root
  · subst hr
    rw [if_pos rfl, Option.getD_some]
    simp only [List.mem_append, or_and_right, exists_or, true_and]
  · rw [if_neg hr]
    simp only [hr, false_and, or_false]

/-- A line of the call is read as nothing that another root has. -/
theorem Settled.linesApart_append (h : Settled legacy idx) {io : Io} {root : Hash}
    (hlines : io ≠ .lost → ∀ line ∈ cid.splitOn '\n', ∀ read, readPrivateChunk line = some read →
      ∀ r, idx.dir.Binds r read → r = root) {dir : ManifestDir}
    (hdir : ∀ r read, dir.Binds r read ↔ idx.dir.Binds r read ∨
      r = root ∧ ∃ line ∈ appendedLines io cid, readPrivateChunk line = some read) :
    ∀ read r r', dir.Binds r read → dir.Binds r' read → r = r' := by
  have hnew : ∀ read r, (∃ line ∈ appendedLines io cid, readPrivateChunk line = some read) →
      idx.dir.Binds r read → r = root := by
    rintro read r ⟨line, hline, hread⟩ hr
    unfold appendedLines at hline
    split at hline
    · cases hline
    · rename_i hio
      exact hlines hio line hline read hread r hr
  intro read r r' hr hr'
  rcases (hdir r read).mp hr with hold | ⟨rfl, hread⟩
  · rcases (hdir r' read).mp hr' with hold' | ⟨rfl, hread'⟩
    · exact h.linesApart read r r' hold hold'
    · exact hnew read r hread' hold
  · rcases (hdir r' read).mp hr' with hold' | ⟨rfl, -⟩
    · exact (hnew read r' hread hold').symm
    · rfl

theorem Settled.recordPrivateChunkCid [Blake3] (h : Settled legacy idx) {root : Hash} {io : Io}
    (hkeeps : idx.CallKeeps (.recordPrivateChunkCid root cid io)) :
    Settled legacy (idx.recordPrivateChunkCid io root cid).1 ∧
      KeepsRoots idx (idx.recordPrivateChunkCid io root cid).1 := by
  unfold ManifestIndex.recordPrivateChunkCid
  cases hprivate : idx.privateCidToRoot.lookup cid with
  | some existing =>
      dsimp only
      split
      · exact ⟨h, fun _ _ hr => hr⟩
      · exact ⟨h, fun _ _ hr => hr⟩
  | none =>
      obtain ⟨-, hlines, hmanifests⟩ := hkeeps hprivate
      have hbinds := binds_appendText idx.dir io cid root
      have hapart := h.linesApart_append hlines hbinds
      have hline : ∀ cid' r, idx.privateCidToRoot.lookup cid' = some r →
          idx.cidToRoot.lookup cid' = none → ManifestDir.Binds { idx.dir with
            privateChunks := idx.dir.privateChunks.insert root
              (appendText io ((idx.dir.privateChunks.lookup root).getD []) cid).1 } r cid' :=
        fun cid' r hr hpublic => (hbinds r cid').mpr (.inl (h.line cid' r hr hpublic))
      cases io with
      | lost =>
          exact ⟨⟨h.fileName, h.listed, h.apart, hline, hapart, h.alone, h.migrated⟩,
            fun _ _ hr => hr⟩
      | unsynced =>
          exact ⟨⟨h.fileName, h.listed, h.apart, hline, hapart, h.alone, h.migrated⟩,
            fun _ _ hr => hr⟩
      | done =>
          refine ⟨⟨h.fileName, h.listed, h.apart, ?_, hapart, ?_, h.migrated⟩, ?_⟩
          · intro cid' r hr hpublic
            rcases Maps.lookup_insert_some.mp hr with ⟨rfl, rfl⟩ | ⟨-, hr⟩
            · -- the line that was written is read as what it was written for
              obtain ⟨htext, -⟩ := hmanifests rfl hpublic
              refine (hbinds root cid').mpr (.inr ⟨rfl, cid', ?_, htext.read⟩)
              show cid' ∈ cid'.splitOn '\n'
              rw [htext.splitOn]
              exact List.mem_singleton.mpr rfl
            · exact hline cid' r hr hpublic
          · intro cid' r r' m hr hpublic hr' hlists
            rcases Maps.lookup_insert_some.mp hr with ⟨rfl, rfl⟩ | ⟨-, hr⟩
            · exact (hmanifests rfl hpublic).2 r' m hr' hlists
            · exact h.alone cid' r r' m hr hpublic hr' hlists
          · intro cid' r hr
            rw [merkleRootForCid_some] at hr ⊢
            rcases hr with hr | ⟨hpublic, hr⟩
            · exact .inl hr
            · refine .inr ⟨hpublic, ?_⟩
              have hne : cid' ≠ cid := by
                rintro rfl
                rw [hprivate] at hr
                cases hr
              show (idx.privateCidToRoot.insert cid root).lookup cid' = some r
              rw [AList.lookup_insert_ne hne]
              exact hr

/-! ### A load -/

section
variable [Blake3]

theorem load_cbor (dir : ManifestDir) (order : List Hash) (rewrite : Bool) :
    (load dir order rewrite).dir.cbor = dir.cbor := by
  obtain ⟨_, _, _, _, _, _, heq⟩ := load_eq dir order rewrite
  rw [heq]

theorem load_privateChunks (dir : ManifestDir) (order : List Hash) (rewrite : Bool) :
    (load dir order rewrite).dir.privateChunks
      = Maps.mapValues (fun _ => soundPrivateChunks rewrite) dir.privateChunks := by
  obtain ⟨_, _, _, _, _, _, heq⟩ := load_eq dir order rewrite
  rw [heq]

/-- A load leaves files that are read as the ones it found. -/
theorem load_binds (dir : ManifestDir) (order : List Hash) (rewrite : Bool) {r : Hash} :
    (load dir order rewrite).dir.Binds r cid ↔ dir.Binds r cid := by
  unfold ManifestDir.Binds
  rw [load_privateChunks, Maps.lookup_mapValues]
  cases dir.privateChunks.lookup r with
  | none => exact Iff.rfl
  | some lines => exact read_soundPrivateChunks rewrite

/-- A chunk is taken from a manifest on disk, and from none only where none lists it. -/
theorem load_cidToRoot (dir : ManifestDir) (order : List Hash) (rewrite : Bool) (cid : Str) :
    (∃ r m, dir.cbor.lookup r = some m ∧ m.Lists cid ∧
      (load dir order rewrite).cidToRoot.lookup cid = some m.merkleRoot) ∨
    ((∀ r m, dir.cbor.lookup r = some m → ¬ m.Lists cid) ∧
      (load dir order rewrite).cidToRoot.lookup cid = none) := by
  unfold load
  dsimp only
  rcases lookup_foldl_addToMaps cid (readDir dir order) _ with ⟨m, hm, hlists, hlook⟩ | ⟨hnone, hlook⟩
  · obtain ⟨r, hr⟩ := mem_readDir hm
    exact .inl ⟨r, m, hr, hlists, hlook⟩
  · exact .inr ⟨fun r m hr => hnone m (mem_readDir_of_lookup order hr), hlook⟩

/-- The same of the private chunks and their lines. -/
theorem load_privateCidToRoot (dir : ManifestDir) (order : List Hash) (rewrite : Bool) (cid : Str) :
    (∃ r, dir.Binds r cid ∧
      (load dir order rewrite).privateCidToRoot.lookup cid = some r) ∨
    ((∀ r, ¬ dir.Binds r cid) ∧
      (load dir order rewrite).privateCidToRoot.lookup cid = none) := by
  unfold load
  dsimp only
  obtain ⟨_, _, heq, -⟩ := foldl_addToMaps (readDir dir order) _
  rw [heq]
  rcases lookup_foldl_lines cid (readPrivateChunks dir order) ∅ with
    ⟨⟨r, _⟩, hl, rfl, hlook⟩ | ⟨hnone, hlook⟩
  · exact .inl ⟨r, (mem_readPrivateChunks order).mp hl, hlook⟩
  · exact .inr ⟨fun r hr => hnone (r, cid) ((mem_readPrivateChunks order).mpr hr) rfl, hlook⟩

/-- A load finds for every chunk the file that memory had for it. -/
theorem Settled.load_keeps (h : Settled legacy idx) (order : List Hash) (rewrite : Bool) :
    KeepsRoots idx (load idx.dir order rewrite) := by
  intro cid r hr
  rw [merkleRootForCid_some] at hr ⊢
  rcases hr with hr | ⟨hpublic, hprivate⟩
  · obtain ⟨m, hm, hlists⟩ := h.listed cid r hr
    rcases load_cidToRoot idx.dir order rewrite cid with ⟨r', m', hm', hlists', hlook⟩ | ⟨hnone, -⟩
    · rw [hlook, h.fileName r' m' hm', h.apart cid r m r' m' hm hm' hlists hlists']
      exact .inl rfl
    · exact absurd hlists (hnone r m hm)
  · rcases load_cidToRoot idx.dir order rewrite cid with ⟨r', m', hm', hlists', hlook⟩ | ⟨-, hlook⟩
    · rw [hlook, h.fileName r' m' hm', h.alone cid r r' m' hprivate hpublic hm' hlists']
      exact .inl rfl
    · have hline := h.line cid r hprivate hpublic
      rcases load_privateCidToRoot idx.dir order rewrite cid with ⟨r', hr', hlook'⟩ | ⟨hnone, -⟩
      · rw [hlook, hlook', h.linesApart cid r' r hr' hline]
        exact .inr ⟨rfl, rfl⟩
      · exact absurd hline (hnone r)

theorem Settled.load (h : Settled legacy idx) (order : List Hash) (rewrite : Bool) :
    Settled legacy (load idx.dir order rewrite) := by
  refine ⟨?_, ?_, ?_, ?_, ?_, ?_, ?_⟩
  · rw [load_cbor]
    exact h.fileName
  · intro cid r hr
    rw [load_cbor]
    rcases load_cidToRoot idx.dir order rewrite cid with ⟨r', m, hm, hlists, hlook⟩ | ⟨-, hlook⟩
    · rw [hlook, h.fileName r' m hm] at hr
      cases hr
      exact ⟨m, hm, hlists⟩
    · rw [hlook] at hr
      cases hr
  · rw [load_cbor]
    exact h.apart
  · intro cid r hr _
    rw [load_binds]
    rcases load_privateCidToRoot idx.dir order rewrite cid with ⟨r', hr', hlook⟩ | ⟨-, hlook⟩
    · rw [hlook] at hr
      cases hr
      exact hr'
    · rw [hlook] at hr
      cases hr
  · intro cid r r' hr hr'
    exact h.linesApart cid r r' ((load_binds ..).mp hr) ((load_binds ..).mp hr')
  · intro cid r r' m _ hpublic hr' hlists
    rw [load_cbor] at hr'
    rcases load_cidToRoot idx.dir order rewrite cid with ⟨_, _, _, _, hlook⟩ | ⟨hnone, -⟩
    · rw [hlook] at hpublic
      cases hpublic
    · exact absurd hlists (hnone r' m hr')
  · rw [load_cbor]
    exact h.migrated

/-- A legacy manifest is not taken over again. -/
theorem Settled.loadWith (h : Settled legacy idx) (order : List Hash) (rewrite : Bool) (io : Io) :
    loadWith legacy idx.dir order rewrite io = ManifestIndex.load idx.dir order rewrite := by
  unfold ManifestIndex.loadWith migrateLegacy
  cases hlegacy : legacy with
  | none => rfl
  | some manifest =>
      obtain ⟨r, m, hm⟩ := h.migrated (by rw [hlegacy]; exact Option.some_ne_none _)
      obtain ⟨byRoot, _, _, hkeys, _, _, heq⟩ := load_eq idx.dir order rewrite
      have hroot : m.merkleRoot ∈ (ManifestIndex.load idx.dir order rewrite).byRoot.keys := by
        rw [heq]
        exact hkeys r m hm
      dsimp only
      rw [if_neg]
      rintro ⟨hnil, -⟩
      rw [hnil] at hroot
      cases hroot

/-- **One call.** -/
theorem Settled.call (h : Settled legacy idx) {c : IndexCall} (hkeeps : idx.CallKeeps c) :
    Settled legacy (idx.call c) ∧ KeepsRoots idx (idx.call c) := by
  have hsame : ∀ idx', SameRoots idx idx' → Settled legacy idx' ∧ KeepsRoots idx idx' :=
    fun idx' hs => ⟨h.of_same hs, hs.keeps⟩
  cases c with
  | insert m io => exact h.insert hkeeps
  | commitValidated v io => exact h.commitValidated hkeeps
  | insertPrivate root bytes io =>
      apply hsame
      cases io with
      | done => exact ⟨rfl, rfl, rfl, rfl⟩
      | lost => exact ⟨rfl, rfl, rfl, rfl⟩
      | unsynced => exact ⟨rfl, rfl, rfl, rfl⟩
  | recordPrivateChunkCid root cid io => exact h.recordPrivateChunkCid hkeeps
  | recordV2HeldIndex root i cid io =>
      apply hsame
      show SameRoots idx (idx.recordV2HeldIndex io root i cid).1
      unfold recordV2HeldIndex
      split
      · split
        · exact .refl idx
        · exact .refl idx
      · dsimp only
        split
        · exact ⟨rfl, rfl, rfl, rfl⟩
        · exact ⟨rfl, rfl, rfl, rfl⟩
  | recordV2PushedProof root i leaf path io =>
      apply hsame
      show SameRoots idx (idx.recordV2PushedProof io root i leaf path).1
      unfold recordV2PushedProof
      split
      · split
        · exact .refl idx
        · exact .refl idx
      · dsimp only
        split
        · exact .refl idx
        split
        · exact ⟨rfl, rfl, rfl, rfl⟩
        · exact ⟨rfl, rfl, rfl, rfl⟩

/-- **One operation.** -/
theorem Settled.step (h : Settled legacy idx) {op : IndexOp} (hstep : KeepsStep legacy idx op idx') :
    Settled legacy idx' ∧ KeepsRoots idx idx' := by
  obtain ⟨hkeeps, rfl⟩ := hstep
  cases op with
  | call c => exact h.call hkeeps
  | reload order rewrite io =>
      show Settled legacy (ManifestIndex.loadWith legacy idx.dir order rewrite io) ∧
        KeepsRoots idx (ManifestIndex.loadWith legacy idx.dir order rewrite io)
      rw [h.loadWith]
      exact ⟨h.load order rewrite, h.load_keeps order rewrite⟩

/-- **A run.** -/
theorem Settled.run {ops : List IndexOp} (h : Settled legacy idx)
    (hrun : Run (KeepsStep legacy) idx ops idx') : Settled legacy idx' ∧ KeepsRoots idx idx' := by
  have hall := hrun.invariant (P := fun _ i => Settled legacy i ∧ KeepsRoots idx i)
    (fun _ i op i' hi hstep => by
      obtain ⟨hsettled, hkeeps⟩ := hi.1.step hstep
      exact ⟨hsettled, fun cid r hr => hkeeps cid r (hi.2 cid r hr)⟩)
    [] ⟨h, fun _ _ hr => hr⟩
  exact hall

/-- The index of a directory in which nothing was written yet. -/
theorem Settled.fresh (legacy : Option DataManifest) (rewrite : Bool) {io : Io}
    (hio : legacy ≠ none → io ≠ .lost) :
    Settled legacy (ManifestIndex.loadWith legacy ManifestDir.fresh [] rewrite io) := by
  have hempty : Settled none (ManifestIndex.load ManifestDir.fresh [] rewrite) := by
    refine ⟨?_, ?_, ?_, ?_, ?_, ?_, ?_⟩
    · exact fun _ _ h => nomatch h
    · exact fun _ _ h => nomatch h
    · exact fun _ _ _ _ _ h => nomatch h
    · exact fun _ _ h => nomatch h
    · exact fun _ _ _ h => nomatch h
    · exact fun _ _ _ _ h => nomatch h
    · exact fun h => absurd rfl h
  cases legacy with
  | none => exact hempty
  | some m =>
      have htakes : (ManifestIndex.load ManifestDir.fresh [] rewrite).TakesFromNone m :=
        fun cid _ => ⟨(fun _ h => nomatch h), fun _ _ h => nomatch h⟩
      have hwritten := hempty.written htakes (fun _ h => nomatch h) rfl
      have hadded := hwritten.addToMaps (m := m) (AList.lookup_insert _)
      have hlegacy : ∀ {i}, Settled none i → (∃ r m, i.dir.cbor.lookup r = some m) → Settled (some m) i :=
        fun h hm => ⟨h.fileName, h.listed, h.apart, h.line, h.linesApart, h.alone, fun _ => hm⟩
      have hfinal := hlegacy hadded ⟨m.merkleRoot, m, AList.lookup_insert _⟩
      cases io with
      | lost => exact absurd rfl (hio (Option.some_ne_none _))
      | done => exact hfinal
      | unsynced => exact hfinal

end

end ManifestIndex

/-! ### Chunks and the files they belong to -/

/--
**A chunk stays in the file it belongs to,** in every history of an index, from an empty
directory on, whose operations take no chunk from another file and lose no manifest.
-/
theorem cid_stays_in_its_file [Blake3] (legacy : Option DataManifest) (rewrite : Bool) (io : Io)
    (hio : legacy ≠ none → io ≠ .lost) (ops ops' : List IndexOp) (idx idx' : ManifestIndex)
    (hreach : Run (ManifestIndex.KeepsStep legacy)
      (ManifestIndex.loadWith legacy ManifestDir.fresh [] rewrite io) ops idx)
    (hrun : Run (ManifestIndex.KeepsStep legacy) idx ops' idx') (cid : Str) (r : Hash)
    (h : idx.merkleRootForCid cid = some r) : idx'.merkleRootForCid cid = some r := by
  have hstart := ManifestIndex.Settled.fresh legacy rewrite hio
  have hsettled := (hstart.run hreach).1
  exact (hsettled.run hrun).2 cid r h

/-- The block of a file of one block, and a private chunk of another file, after restarts. -/
theorem block_stays_in_its_file :
    letI := Blake3.reference
    let start := ManifestIndex.loadWith none ManifestDir.fresh [] true .done
    let indexed := start.apply none (.call (.insert (equalBlocks 1) .done))
    let reloaded := indexed.apply none (.reload [] true .done)
    let recorded := reloaded.apply none (.call (.recordPrivateChunkCid Hash.zero ['p'] .done))
    let again := recorded.apply none (.reload [] true .done)
    again.merkleRootForCid (cidFromBlake3Hash blockHash) = some (equalBlocks 1).merkleRoot ∧
      again.merkleRootForCid ['p'] = some Hash.zero := by
  generalize Blake3.reference = b
  intro start indexed reloaded recorded again
  have hinsert : start.Keeps (.call (.insert (equalBlocks 1) .done)) :=
    ⟨(fun h => nomatch h), fun _ => ⟨fun _ _ => ⟨(fun _ h => nomatch h), fun _ _ h => nomatch h⟩,
      fun _ h => nomatch h⟩⟩
  have hlists : (equalBlocks 1).Lists (cidFromBlake3Hash blockHash) :=
    ⟨nodeDescriptor 0 blockHash, List.mem_singleton.mpr rfl, rfl⟩
  have hbound : indexed.merkleRootForCid (cidFromBlake3Hash blockHash)
      = some (equalBlocks 1).merkleRoot := by
    rw [ManifestIndex.merkleRootForCid_some]
    refine .inl ?_
    show (ManifestIndex.addToMaps _ (equalBlocks 1)).cidToRoot.lookup _ = _
    rw [lookup_addToMaps, if_pos hlists]
  have hunlisted : ∀ r m, indexed.dir.cbor.lookup r = some m → ¬ m.Lists ['p'] := by
    intro r m hr hm
    rcases Maps.lookup_insert_some.mp hr with ⟨-, rfl⟩ | ⟨-, hr⟩
    · obtain ⟨c, hc, hcid⟩ := hm
      rw [List.mem_singleton.mp hc] at hcid
      cases hcid
    · cases hr
  have hlines : ∀ r read, ¬ indexed.dir.Binds r read := by
    rintro r read ⟨line, hline, -⟩
    cases hline
  have hprivate : reloaded.Keeps (.call (.recordPrivateChunkCid Hash.zero ['p'] .done)) := by
    have hcbor : reloaded.dir.cbor = indexed.dir.cbor := ManifestIndex.load_cbor ..
    refine fun _ => ⟨(fun h => nomatch h),
      fun _ _ _ read _ r hr => absurd ((ManifestIndex.load_binds ..).mp hr) (hlines r read),
      fun _ _ => ⟨⟨List.cons_ne_nil _ _, by decide, rfl⟩, fun r m hr hm => ?_⟩⟩
    rw [hcbor] at hr
    exact absurd hm (hunlisted r m hr)
  have hpublic : reloaded.cidToRoot.lookup ['p'] = none := by
    rcases ManifestIndex.load_cidToRoot indexed.dir [] true ['p'] with ⟨r, m, hr, hm, -⟩ | ⟨-, hlook⟩
    · exact absurd hm (hunlisted r m hr)
    · exact hlook
  have hnew : reloaded.privateCidToRoot.lookup ['p'] = none := by
    rcases ManifestIndex.load_privateCidToRoot indexed.dir [] true ['p'] with ⟨r, hr, -⟩ | ⟨-, hlook⟩
    · exact absurd hr (hlines r ['p'])
    · exact hlook
  have hrecorded : recorded.merkleRootForCid ['p'] = some Hash.zero := by
    show (reloaded.recordPrivateChunkCid .done Hash.zero ['p']).1.merkleRootForCid ['p'] = _
    unfold ManifestIndex.recordPrivateChunkCid
    rw [hnew, ManifestIndex.merkleRootForCid_some]
    exact .inr ⟨hpublic, AList.lookup_insert _⟩
  constructor
  · exact cid_stays_in_its_file none true .done (fun h => absurd rfl h)
      [.call (.insert (equalBlocks 1) .done)]
      [.reload [] true .done, .call (.recordPrivateChunkCid Hash.zero ['p'] .done),
        .reload [] true .done] indexed again
      (.single ⟨hinsert, rfl⟩) (.cons ⟨trivial, rfl⟩ (.cons ⟨hprivate, rfl⟩ (.single ⟨trivial, rfl⟩)))
      _ _ hbound
  · exact cid_stays_in_its_file none true .done (fun h => absurd rfl h)
      [.call (.insert (equalBlocks 1) .done), .reload [] true .done,
        .call (.recordPrivateChunkCid Hash.zero ['p'] .done)] [.reload [] true .done] recorded again
      (.cons ⟨hinsert, rfl⟩ (.cons ⟨trivial, rfl⟩ (.single ⟨hprivate, rfl⟩)))
      (.single ⟨trivial, rfl⟩) _ _ hrecorded

/-- The validated manifest over equal blocks. -/
def validatedBlocks [Blake3] (n : Nat) : ValidatedManifest :=
  ⟨equalBlocks n, [], (equalBlocks n).merkleRoot,
    checkManifest_ok_iff.mpr ⟨rfl, equalBlocks_valid n⟩⟩

theorem commitValidated_of_new [Blake3] {idx : ManifestIndex} {v : ValidatedManifest}
    (hnew : idx.getByMerkleRoot v.manifest.merkleRoot = none) :
    idx.apply none (.call (.commitValidated v .done)) = (idx.insert .done v.manifest).1 := by
  show (idx.commitValidated .done v).1 = _
  unfold ManifestIndex.commitValidated
  rw [hnew]
  rfl

theorem commit_blocks [Blake3] {idx : ManifestIndex} {n : Nat} (hn : 0 < n)
    (hnew : idx.getByMerkleRoot (equalBlocks n).merkleRoot = none) :
    (idx.apply none (.call (.commitValidated (validatedBlocks n) .done))).merkleRootForCid
      (cidFromBlake3Hash blockHash) = some (equalBlocks n).merkleRoot := by
  have hlists : (equalBlocks n).Lists (cidFromBlake3Hash blockHash) := by
    refine ⟨nodeDescriptor 0 blockHash, List.mem_of_getElem? (i := 0) ?_, rfl⟩
    show ((List.replicate n blockHash).mapIdx nodeDescriptor)[0]? = _
    rw [List.getElem?_mapIdx, List.getElem?_replicate, if_pos hn]
    rfl
  rw [commitValidated_of_new (v := validatedBlocks n) hnew, ManifestIndex.merkleRootForCid_some]
  refine .inl ?_
  show (ManifestIndex.addToMaps _ (equalBlocks n)).cidToRoot.lookup _ = _
  rw [lookup_addToMaps, if_pos hlists]

/--
The block of a file of one block moves to the file of two equal blocks, and a private chunk
moves to whatever Public manifest lists its name.
-/
theorem second_file_takes_the_block :
    letI := Blake3.reference
    let start := ManifestIndex.loadWith none ManifestDir.fresh [] true .done
    let block := cidFromBlake3Hash blockHash
    let one := start.apply none (.call (.commitValidated (validatedBlocks 1) .done))
    let hidden := start.apply none (.call (.recordPrivateChunkCid Hash.zero block .done))
    one.merkleRootForCid block = some (equalBlocks 1).merkleRoot ∧
      (one.apply none (.call (.commitValidated (validatedBlocks 2) .done))).merkleRootForCid block
        ≠ some (equalBlocks 1).merkleRoot ∧
      hidden.merkleRootForCid block = some Hash.zero ∧
      (hidden.apply none (.call (.commitValidated (validatedBlocks 1) .done))).merkleRootForCid block
        ≠ some Hash.zero := by
  have hroots : letI := Blake3.reference; (equalBlocks 2).merkleRoot ≠ (equalBlocks 1).merkleRoot := by
    decide +kernel
  have hzero : letI := Blake3.reference; (equalBlocks 1).merkleRoot ≠ Hash.zero := by decide +kernel
  revert hroots hzero
  generalize Blake3.reference = b
  intro hroots hzero start block one hidden
  refine ⟨commit_blocks Nat.one_pos rfl, ?_, ?_, ?_⟩
  · have hnew : one.getByMerkleRoot (equalBlocks 2).merkleRoot = none := by
      show ((∅ : Map Hash DataManifest).insert (equalBlocks 1).merkleRoot (equalBlocks 1)).lookup
        (equalBlocks 2).merkleRoot = none
      rw [AList.lookup_insert_ne hroots]
      rfl
    rw [commit_blocks Nat.two_pos hnew]
    exact fun h => hroots (Option.some.inj h)
  · rw [ManifestIndex.merkleRootForCid_some]
    refine .inr ⟨rfl, ?_⟩
    show ((∅ : Map Str Hash).insert block Hash.zero).lookup block = some Hash.zero
    exact AList.lookup_insert _
  · have hnew : hidden.getByMerkleRoot (equalBlocks 1).merkleRoot = none := rfl
    rw [commit_blocks Nat.one_pos hnew]
    exact fun h => hzero (Option.some.inj h)

end Snip
