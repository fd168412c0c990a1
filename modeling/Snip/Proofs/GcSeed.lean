/-
Which chunk files the first list of protected chunks keeps over a restart.

The list is seeded with one line for each chunk file, whatever its name is; a name may be
any that is one component of a path.  The reader splits lines at newlines and fields at
spaces, and drops a carriage return before a newline.  So a restart finds all the files
protected exactly when no name has a space or a newline or ends in a carriage return.
-/
import Mathlib.Data.Finset.Max
import Mathlib.Data.Finset.Dedup
import Snip.Lib.Lists
import Snip.Proofs.GcHistory
import Snip.Store.Publication

namespace Snip

/-! ### Names that a line can carry -/

/-- Whatever a line is read as has no space, and only characters of the line. -/
theorem mem_parseGcProtectedLine {line cid : Str} (h : parseGcProtectedLine line = some cid) :
    ' ' ∉ cid ∧ ∀ c ∈ cid, c ∈ line := by
  unfold parseGcProtectedLine at h
  split at h
  · rename_i kind root field hsplit
    have hfield : field ∈ line.splitOn ' ' := by
      rw [hsplit]
      simp
    split at h
    · simp at h
    · split at h
      · rw [← Option.some.inj h]
        exact Lists.mem_splitOn hfield
      · simp at h
  · simp at h

theorem not_mem_lines {text line : Str} (h : line ∈ LineFile.lines text) : '\n' ∉ line := by
  unfold LineFile.lines at h
  obtain ⟨piece, hpiece, rfl⟩ := List.mem_map.mp h
  have hout := (Lists.mem_splitOn ((List.dropLast_sublist _).subset hpiece)).1
  unfold LineFile.stripCr
  split
  · intro hmem
    exact hout ((List.dropLast_sublist _).subset hmem)
  · exact hout

/-- No name with a space or a newline is ever read. -/
theorem mem_parseGcLines {text : Str} {cids : List Str} (h : parseGcLines text = some cids)
    {cid : Str} (hcid : cid ∈ cids) : ' ' ∉ cid ∧ '\n' ∉ cid := by
  obtain ⟨line, hline, hparse⟩ := Lists.exists_of_mem_mapM h hcid
  obtain ⟨hspace, hsub⟩ := mem_parseGcProtectedLine hparse
  exact ⟨hspace, fun hmem => not_mem_lines hline (hsub _ hmem)⟩

theorem stripCr_of_noReturn {line : Str} (h : line.getLast? ≠ some '\r') :
    LineFile.stripCr line = line := by
  unfold LineFile.stripCr
  rw [if_neg h]

/-- The carriage return that is dropped from a line is that of the name. -/
theorem stripCr_legacy {key : Str} (hne : key ≠ []) :
    LineFile.stripCr (GcEntry.legacy key).line = (GcEntry.legacy (LineFile.stripCr key)).line := by
  have hline : ∀ k, (GcEntry.legacy k).line = "legacy - ".toList ++ k := fun k => rfl
  have hlast : (GcEntry.legacy key).line.getLast? = key.getLast? := GcEntry.getLast?_line hne
  unfold LineFile.stripCr
  rw [hlast, hline, hline]
  by_cases hcr : key.getLast? = some '\r'
  · rw [if_pos hcr, if_pos hcr, List.dropLast_append_of_ne_nil hne]
  · rw [if_neg hcr, if_neg hcr]

/-- The lines of a seeded list, as they are read. -/
theorem lines_seed {keys : List Str} (hkeys : ∀ key ∈ keys, key ≠ [] ∧ '\n' ∉ key) :
    LineFile.lines (LineFile.write ((keys.map GcEntry.legacy).map GcEntry.line))
      = keys.map fun key => (GcEntry.legacy (LineFile.stripCr key)).line := by
  have hnewline : ∀ l ∈ (keys.map GcEntry.legacy).map GcEntry.line, '\n' ∉ l := by
    intro l hl
    rw [List.map_map] at hl
    obtain ⟨key, hkey, rfl⟩ := List.mem_map.mp hl
    simp [GcEntry.line, (hkeys key hkey).2]
  unfold LineFile.lines
  rw [(LineFile.holds_write hnewline).complete_eq, LineFile.splitOn_write hnewline,
    List.dropLast_concat, List.map_map, List.map_map]
  refine List.map_congr_left ?_
  intro key hkey
  exact stripCr_legacy (hkeys key hkey).1

/-- What a line for a name is read as can only be the name. -/
theorem parse_legacy_eq {key cid : Str} (hspace : ' ' ∉ key)
    (h : parseGcProtectedLine (GcEntry.legacy key).line = some cid) : cid = key := by
  by_cases hne : key = []
  · subst hne
    simp [parseGcProtectedLine, GcEntry.line, List.splitOn_cons_eq_if_modifyHead] at h
  · rw [GcEntry.parse_line (e := .legacy key) hspace hne] at h
    exact (Option.some.inj h).symm

/-- Only a name with one carriage return more is read as a name that ends in one. -/
theorem eq_of_stripCr {key cid : Str} (h : LineFile.stripCr key = cid)
    (hcr : cid.getLast? = some '\r') : key = cid ++ ['\r'] := by
  unfold LineFile.stripCr at h
  by_cases hlast : key.getLast? = some '\r'
  · rw [if_pos hlast] at h
    rw [← h]
    exact (List.dropLast_append_getLast? _ hlast).symm
  · rw [if_neg hlast] at h
    rw [h] at hlast
    exact absurd hcr hlast

/-- All the names are read back exactly when each of them can be. -/
theorem parse_seed_iff {keys : List Str} (hnames : ∀ key ∈ keys, key ≠ []) :
    (∃ cids, parseGcLines (LineFile.write ((keys.map GcEntry.legacy).map GcEntry.line)) = some cids ∧
        ∀ key ∈ keys, key ∈ cids) ↔
      ∀ key ∈ keys, ListableKey key := by
  constructor
  · rintro ⟨cids, hparse, hall⟩
    have hplain : ∀ key ∈ keys, ' ' ∉ key ∧ '\n' ∉ key :=
      fun key hkey => mem_parseGcLines hparse (hall key hkey)
    -- every name is what another one is without its carriage return
    have hfrom : ∀ key ∈ keys, ∃ other ∈ keys, LineFile.stripCr other = key := by
      intro key hkey
      obtain ⟨line, hline, hread⟩ := Lists.exists_of_mem_mapM hparse (hall key hkey)
      rw [lines_seed fun key hkey => ⟨hnames key hkey, (hplain key hkey).2⟩] at hline
      obtain ⟨other, hother, rfl⟩ := List.mem_map.mp hline
      refine ⟨other, hother, (parse_legacy_eq ?_ hread).symm⟩
      intro hspace
      refine (hplain other hother).1 ?_
      unfold LineFile.stripCr at hspace
      split at hspace
      · exact (List.dropLast_sublist _).subset hspace
      · exact hspace
    intro key hkey
    refine ⟨(hplain key hkey).1, (hplain key hkey).2, ?_⟩
    intro hcr
    -- among those that end in one, the longest would come from a longer one
    have hexists : (keys.toFinset.filter fun k => k.getLast? = some '\r').Nonempty :=
      ⟨key, by simp [hkey, hcr]⟩
    obtain ⟨longest, hlongest, hmax⟩ := Finset.exists_max_image _ List.length hexists
    rw [Finset.mem_filter, List.mem_toFinset] at hlongest
    obtain ⟨other, hother, hstrip⟩ := hfrom longest hlongest.1
    have hlonger := eq_of_stripCr hstrip hlongest.2
    have hle : other.length ≤ longest.length := by
      refine hmax other ?_
      rw [Finset.mem_filter, List.mem_toFinset]
      refine ⟨hother, ?_⟩
      rw [hlonger]
      simp
    rw [hlonger] at hle
    simp at hle
  · intro hlistable
    refine ⟨keys, ?_, fun key hkey => hkey⟩
    unfold parseGcLines
    rw [lines_seed fun key hkey => ⟨hnames key hkey, (hlistable key hkey).noNewline⟩]
    refine Lists.mapM_eq_some_iff.mpr (List.forall₂_map_left_iff.mpr (List.forall₂_same.mpr ?_))
    intro key hkey
    rw [stripCr_of_noReturn (hlistable key hkey).noReturn]
    exact GcEntry.parse_line (e := .legacy key) (hlistable key hkey).noSpace (hnames key hkey)

/-! ### A seed and a restart -/

theorem GcFiles.seed_ok {io : GcSeedIo} {f f' : GcFiles} {cids : List Str}
    (h : f.seed io cids = (f', .ok ())) :
    f'.list = some ⟨LineFile.write ((cids.map GcEntry.legacy).map GcEntry.line), []⟩ ∧
      f'.marker = true := by
  unfold GcFiles.seed at h
  split at h
  · simp at h
  dsimp only at h
  split at h
  · simp at h
  · unfold GcFiles.writeMarker at h
    cases hmarks : io.marks with
    | done =>
        rw [hmarks] at h
        have hf := (Prod.mk.inj h).1
        rw [← hf, List.map_map]
        exact ⟨rfl, rfl⟩
    | lost =>
        rw [hmarks] at h
        simp at h
    | unsynced =>
        rw [hmarks] at h
        simp at h

/-- A seeded list is read in full or not at all. -/
theorem GcFiles.load_written {f : GcFiles} {ls : List Str}
    (hlist : f.list = some ⟨LineFile.write ls, []⟩) (hmarker : f.marker = true) {io : GcLoadIo}
    (hreads : io.reads = true) :
    (f.load io).2 = match parseGcLines (LineFile.write ls) with
      | none => ([], some false)
      | some cids => (cids, some true) := by
  have hcomplete : LineFile.complete (LineFile.write ls) = LineFile.write ls :=
    LineFile.rdropWhile_write ls
  have hcontent : GcListFile.content ⟨LineFile.write ls, []⟩ = LineFile.write ls :=
    List.append_nil _
  unfold GcFiles.load
  rw [hlist]
  dsimp only
  rw [if_neg (by simp [hreads]), hcontent]
  cases parseGcLines (LineFile.write ls) with
  | none => rfl
  | some cids =>
      dsimp only
      rw [if_pos hcomplete]
      unfold GcFiles.loadMarker
      rw [if_pos hmarker]

/-- The first open of a store root with this version, when it succeeds, writes the list. -/
theorem StoreRoot.new_seeds [Blake3] {legacy : Option DataManifest} {io : OpenIo} {s : StoreRoot}
    (hclosed : s.isOpen = false) (hlist : s.gcFiles.list = none) (hmarker : s.gcFiles.marker = false)
    (hopen : (s.new legacy io).isOpen = true) :
    (s.new legacy io).gcFiles.list = some ⟨LineFile.write
        ((s.files.listAllCids.map GcEntry.legacy).map GcEntry.line), []⟩ ∧
      (s.new legacy io).gcFiles.marker = true := by
  have hload := GcFiles.load_none io.gc hlist
  rw [hmarker, if_neg Bool.false_ne_true] at hload
  unfold StoreRoot.new at hopen ⊢
  rw [hload] at hopen ⊢
  dsimp only at hopen ⊢
  by_cases hloads : (!io.loads) = true
  · rw [if_pos hloads] at hopen
    rw [hclosed] at hopen
    simp at hopen
  rw [if_neg hloads, if_pos rfl] at hopen ⊢
  by_cases hlists : (!io.lists) = true
  · rw [if_pos hlists] at hopen
    rw [hclosed] at hopen
    simp at hopen
  rw [if_neg hlists] at hopen ⊢
  cases hseed : s.gcFiles.seed io.seed s.files.listAllCids with
  | mk gcFiles result =>
      rw [hseed] at hopen
      cases result with
      | error e =>
          dsimp only at hopen
          rw [hclosed] at hopen
          simp at hopen
      | ok _ => exact GcFiles.seed_ok hseed

/--
After the first open a restart finds the list intact and every chunk file protected,
exactly when a line can carry the name of each.
-/
theorem seeded_keys_protected_iff [Blake3] (legacy : Option DataManifest) (io : OpenIo)
    (s : StoreRoot) (hclosed : s.isOpen = false) (hlist : s.gcFiles.list = none)
    (hmarker : s.gcFiles.marker = false)
    (hnames : ∀ key ∈ s.files.listAllCids, publicationName key = .ok ())
    (hopen : (s.new legacy io).isOpen = true) (restart : GcLoadIo) (hreads : restart.reads = true) :
    (((s.new legacy io).gcFiles.load restart).2.2 = some true ∧
        ∀ key ∈ s.files.listAllCids, key ∈ ((s.new legacy io).gcFiles.load restart).2.1) ↔
      ∀ key ∈ s.files.listAllCids, ListableKey key := by
  obtain ⟨hwritten, hmarked⟩ := StoreRoot.new_seeds hclosed hlist hmarker hopen
  have hnonempty : ∀ key ∈ s.files.listAllCids, key ≠ [] :=
    fun key hkey => ne_nil_of_publicationName (hnames key hkey)
  rw [GcFiles.load_written hwritten hmarked hreads, ← parse_seed_iff hnonempty]
  cases parseGcLines (LineFile.write ((s.files.listAllCids.map GcEntry.legacy).map GcEntry.line)) with
  | none => simp
  | some cids => simp

/-! ### A file with a space in its name -/

/-- A store root with one chunk file, from before there was a list. -/
def rootWith (key : Str) : StoreRoot := { emptyRoot with files := (∅ : ChunkStore).insert key [1] }

theorem publicationName_rootWith {key : Str} (h : publicationName key = .ok ()) :
    ∀ k ∈ (rootWith key).files.listAllCids, publicationName k = .ok () := by
  intro k hk
  have hkey : (rootWith key).files.listAllCids = [key] := rfl
  rw [hkey, List.mem_singleton] at hk
  rw [hk]
  exact h

/-- A plain name is still protected after a restart. -/
theorem plain_key_protected :
    letI := Blake3.reference
    (((rootWith ['a', 'b']).new none .done).gcFiles.load OpenIo.done.gc).2.2 = some true ∧
      ∀ key ∈ (rootWith ['a', 'b']).files.listAllCids,
        key ∈ (((rootWith ['a', 'b']).new none .done).gcFiles.load OpenIo.done.gc).2.1 := by
  generalize Blake3.reference = b
  refine (seeded_keys_protected_iff none .done (rootWith ['a', 'b']) rfl rfl rfl
    (publicationName_rootWith rfl) rfl OpenIo.done.gc rfl).mpr ?_
  intro key hkey
  have hkeys : (rootWith ['a', 'b']).files.listAllCids = [['a', 'b']] := rfl
  rw [hkeys, List.mem_singleton] at hkey
  rw [hkey]
  exact ⟨by decide, by decide, by decide⟩

/-- With a space in a name, which the chunk store accepts, the restart disables the list. -/
theorem spaced_key_breaks_list :
    letI := Blake3.reference
    publicationName ['a', ' ', 'b'] = .ok () ∧
      (rootWith ['a', ' ', 'b']).files.listAllCids = [['a', ' ', 'b']] ∧
      ((rootWith ['a', ' ', 'b']).new none .done).isOpen = true ∧
      (((rootWith ['a', ' ', 'b']).new none .done).gcFiles.load OpenIo.done.gc).2
        = ([], some false) := by
  generalize Blake3.reference = b
  exact ⟨rfl, rfl, rfl, rfl⟩

end Snip
