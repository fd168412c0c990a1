/-
The assignment of chunks to archives, by all its entry points.

A push is checked against one chunk, an attestation lists the chunks of one archive,
an ingest computes the whole file, and the search for a reassigned chunk looks for the
first one of several archives.  All of them read the same ranking, and the ranking only
depends on which addresses the snapshot holds.
-/
import Mathlib.Data.Finset.Card
import Mathlib.Order.Bounds.Basic
import Snip.Store.Assignment

namespace Snip

/-! ### The ranking -/

theorem presortedAddresses_perm (snapshot : List Addr) :
    List.Perm (presortedAddresses snapshot) snapshot.dedup :=
  List.perm_insertionSort _ _

theorem mem_presortedAddresses {snapshot : List Addr} {a : Addr} :
    a ∈ presortedAddresses snapshot ↔ a ∈ snapshot :=
  (presortedAddresses_perm snapshot).mem_iff.trans List.mem_dedup

/-- Order and repetitions of the snapshot are gone. -/
theorem presortedAddresses_congr {snapshot snapshot' : List Addr}
    (h : ∀ a, a ∈ snapshot' ↔ a ∈ snapshot) :
    presortedAddresses snapshot' = presortedAddresses snapshot := by
  have hdedup : List.Perm snapshot'.dedup snapshot.dedup := by
    refine (List.perm_ext_iff_of_nodup (List.nodup_dedup _) (List.nodup_dedup _)).mpr ?_
    intro a
    rw [List.mem_dedup, List.mem_dedup]
    exact h a
  have hperm : List.Perm (presortedAddresses snapshot') (presortedAddresses snapshot) :=
    (presortedAddresses_perm snapshot').trans
      (hdedup.trans (presortedAddresses_perm snapshot).symm)
  exact hperm.eq_of_sortedLE List.sortedLE_insertionSort List.sortedLE_insertionSort

/-- A hit of the scan, and nothing before it. -/
theorem findSome?_range_eq_some {α : Type} {f : Nat → Option α} {n c : Nat} {a : α} :
    (List.range n).findSome? (fun i => (f i).map fun hit => (i, hit)) = some (c, a) ↔
      c < n ∧ f c = some a ∧ ∀ i < c, f i = none := by
  induction n with
  | zero => simp
  | succ n ih =>
      rw [List.range_succ, List.findSome?_append]
      cases hfound : (List.range n).findSome? (fun i => (f i).map fun hit => (i, hit)) with
      | some hit =>
          rw [hfound] at ih
          rw [Option.some_or, ih]
          constructor
          · rintro ⟨hc, h⟩
            exact ⟨Nat.lt_succ_of_lt hc, h⟩
          · rintro ⟨hc, ha, hbefore⟩
            refine ⟨?_, ha, hbefore⟩
            -- the hit before `n` would come before `c = n` as well
            by_contra hn
            obtain rfl : c = n := by omega
            have hnone : (List.range c).findSome? (fun i => (f i).map fun hit => (i, hit)) = none := by
              rw [List.findSome?_eq_none_iff]
              intro i hi
              rw [hbefore i (List.mem_range.mp hi)]
              rfl
            rw [hnone] at hfound
            cases hfound
      | none =>
          rw [Option.none_or, List.findSome?_singleton]
          rw [List.findSome?_eq_none_iff] at hfound
          have hbefore : ∀ i < n, f i = none := by
            intro i hi
            simpa using hfound i (List.mem_range.mpr hi)
          constructor
          · intro h
            obtain ⟨hit, hhit, hpair⟩ := Option.map_eq_some_iff.mp h
            cases hpair
            exact ⟨Nat.lt_succ_self _, hhit, hbefore⟩
          · rintro ⟨hc, ha, -⟩
            rcases Nat.lt_succ_iff_lt_or_eq.mp hc with hlt | rfl
            · rw [hbefore c hlt] at ha
              cases ha
            · rw [ha]
              rfl

section

variable [AssignmentScore]

/-- The ranking of one chunk, before it is cut to the replication factor. -/
theorem assignedArchives_eq_take (root : Hash) (snapshot : List Addr) (i r : Nat) :
    ∃ ranked, List.Perm ranked snapshot.dedup ∧
      assignedArchives root snapshot i r = ranked.take r :=
  ⟨_, (List.perm_insertionSort _ _).trans (presortedAddresses_perm snapshot), rfl⟩

theorem assignedArchives_nodup (root : Hash) (snapshot : List Addr) (i r : Nat) :
    (assignedArchives root snapshot i r).Nodup := by
  obtain ⟨ranked, hperm, htake⟩ := assignedArchives_eq_take root snapshot i r
  rw [htake]
  exact (hperm.nodup_iff.mpr (List.nodup_dedup _)).sublist (List.take_sublist _ _)

theorem assignedArchives_length_eq_min (root : Hash) (snapshot : List Addr) (i r : Nat) :
    (assignedArchives root snapshot i r).length = min r snapshot.toFinset.card := by
  obtain ⟨ranked, hperm, htake⟩ := assignedArchives_eq_take root snapshot i r
  rw [htake, List.length_take, hperm.length_eq, ← List.card_toFinset]

theorem assignedArchives_length {root : Hash} {snapshot : List Addr} {i r : Nat}
    (h : r ≤ snapshot.toFinset.card) : (assignedArchives root snapshot i r).length = r := by
  rw [assignedArchives_length_eq_min]
  exact Nat.min_eq_left h

theorem mem_snapshot_of_assigned {root : Hash} {snapshot : List Addr} {i r : Nat} {a : Addr}
    (h : a ∈ assignedArchives root snapshot i r) : a ∈ snapshot := by
  obtain ⟨ranked, hperm, htake⟩ := assignedArchives_eq_take root snapshot i r
  rw [htake] at h
  exact List.mem_dedup.mp (hperm.mem_iff.mp (List.mem_of_mem_take h))

/-! ### The entry points -/

theorem mem_chunksForArchiveV2 {root : Hash} {chunkCount : Nat} {snapshot : List Addr}
    {r c : Nat} {a : Addr} : c ∈ chunksForArchiveV2 root chunkCount snapshot r a ↔
      c < chunkCount ∧ a ∈ assignedArchives root snapshot c r := by
  unfold chunksForArchiveV2
  dsimp only
  split
  · -- an archive outside the snapshot is assigned nothing
    rename_i hout
    constructor
    · intro h
      cases h
    · intro h
      exact absurd (mem_presortedAddresses.mpr (mem_snapshot_of_assigned h.2)) hout
  · rw [List.mem_filter, List.mem_range, decide_eq_true_iff]
    rfl

/-- The targets outside the snapshot can be left in: no chunk is assigned to them. -/
theorem find?_wanted (root : Hash) (snapshot targets : List Addr) (c r : Nat) :
    (assignedArchivesPresorted root (presortedAddresses snapshot) c r).find?
        (· ∈ targets.filter (· ∈ presortedAddresses snapshot))
      = (assignedArchives root snapshot c r).find? (· ∈ targets) := by
  show (assignedArchives root snapshot c r).find? _ = _
  have hin : ∀ a ∈ assignedArchives root snapshot c r, a ∈ presortedAddresses snapshot :=
    fun a ha => mem_presortedAddresses.mpr (mem_snapshot_of_assigned ha)
  generalize assignedArchives root snapshot c r = assigned at hin
  induction assigned with
  | nil => rfl
  | cons a assigned ih =>
      have ha : (decide (a ∈ targets.filter (· ∈ presortedAddresses snapshot)))
          = decide (a ∈ targets) := by
        have hsnap := hin a (List.mem_cons_self ..)
        rw [decide_eq_decide, List.mem_filter]
        simp only [hsnap, decide_true, and_true]
      rw [List.find?_cons, List.find?_cons, ha,
        ih fun b hb => hin b (List.mem_cons_of_mem _ hb)]

/-- The fast way out is the scan that finds nothing. -/
theorem firstChunkAssignedToAny_eq (root : Hash) (chunkCount : Nat) (snapshot : List Addr)
    (r : Nat) (targets : List Addr) :
    firstChunkAssignedToAny root chunkCount snapshot r targets
      = (List.range chunkCount).findSome? fun c =>
          ((assignedArchives root snapshot c r).find? (· ∈ targets)).map fun hit => (c, hit) := by
  unfold firstChunkAssignedToAny
  simp only [find?_wanted]
  split
  · rename_i hnone
    symm
    rw [List.findSome?_eq_none_iff]
    intro c _
    rw [← find?_wanted, hnone]
    simp
  · rfl

/-- The union over the targets, as the scan sees it. -/
theorem exists_mem_chunksForArchiveV2 {root : Hash} {chunkCount : Nat} {snapshot : List Addr}
    {r : Nat} {targets : List Addr} {c : Nat} :
    (∃ t ∈ targets, c ∈ chunksForArchiveV2 root chunkCount snapshot r t) ↔
      c < chunkCount ∧
        ((assignedArchives root snapshot c r).find? (· ∈ targets)).isSome = true := by
  simp only [mem_chunksForArchiveV2, List.find?_isSome, decide_eq_true_iff]
  constructor
  · rintro ⟨t, ht, hc, hassigned⟩
    exact ⟨hc, t, hassigned, ht⟩
  · rintro ⟨hc, t, hassigned, ht⟩
    exact ⟨t, ht, hc, hassigned⟩

/-- What the entry points say of one file, in one another's terms. -/
structure AssignmentAgrees (root : Hash) (chunkCount : Nat) (snapshot : List Addr) (r : Nat) :
    Prop where
  /-- The whole file is its chunks. -/
  batch : computeAssignmentV2 root chunkCount snapshot r
    = (List.range chunkCount).map fun c => assignedArchives root snapshot c r
  /-- An archive's chunks are those it is assigned. -/
  archive : ∀ a c, c ∈ chunksForArchiveV2 root chunkCount snapshot r a ↔
    c < chunkCount ∧ a ∈ assignedArchives root snapshot c r
  distinct : ∀ c, (assignedArchives root snapshot c r).Nodup
  replicated : ∀ c, (assignedArchives root snapshot c r).length = min r snapshot.toFinset.card
  /-- Only which addresses the snapshot holds matters. -/
  order : ∀ snapshot' : List Addr, (∀ a, a ∈ snapshot' ↔ a ∈ snapshot) →
    (∀ c, assignedArchives root snapshot' c r = assignedArchives root snapshot c r) ∧
    computeAssignmentV2 root chunkCount snapshot' r
      = computeAssignmentV2 root chunkCount snapshot r ∧
    (∀ a, chunksForArchiveV2 root chunkCount snapshot' r a
      = chunksForArchiveV2 root chunkCount snapshot r a) ∧
    ∀ targets, firstChunkAssignedToAny root chunkCount snapshot' r targets
      = firstChunkAssignedToAny root chunkCount snapshot r targets
  /-- The least chunk of the targets, with the first of them in its ranking. -/
  first : ∀ targets c a, firstChunkAssignedToAny root chunkCount snapshot r targets = some (c, a) ↔
    IsLeast {i | ∃ t ∈ targets, i ∈ chunksForArchiveV2 root chunkCount snapshot r t} c ∧
    (assignedArchives root snapshot c r).find? (· ∈ targets) = some a
  absent : ∀ targets, firstChunkAssignedToAny root chunkCount snapshot r targets = none ↔
    ∀ t ∈ targets, chunksForArchiveV2 root chunkCount snapshot r t = []

theorem firstChunkAssignedToAny_eq_some {root : Hash} {chunkCount : Nat} {snapshot : List Addr}
    {r : Nat} {targets : List Addr} {c : Nat} {a : Addr} :
    firstChunkAssignedToAny root chunkCount snapshot r targets = some (c, a) ↔
      IsLeast {i | ∃ t ∈ targets, i ∈ chunksForArchiveV2 root chunkCount snapshot r t} c ∧
      (assignedArchives root snapshot c r).find? (· ∈ targets) = some a := by
  rw [firstChunkAssignedToAny_eq, findSome?_range_eq_some]
  constructor
  · rintro ⟨hc, ha, hbefore⟩
    refine ⟨⟨?_, ?_⟩, ha⟩
    · exact exists_mem_chunksForArchiveV2.mpr ⟨hc, by rw [ha]; rfl⟩
    · intro i hi
      obtain ⟨-, hsome⟩ := exists_mem_chunksForArchiveV2.mp hi
      by_contra hlt
      rw [hbefore i (Nat.lt_of_not_le hlt)] at hsome
      cases hsome
  · rintro ⟨⟨hmem, hleast⟩, ha⟩
    obtain ⟨hc, -⟩ := exists_mem_chunksForArchiveV2.mp hmem
    refine ⟨hc, ha, ?_⟩
    intro i hi
    by_contra hsome
    have hle : c ≤ i := hleast (exists_mem_chunksForArchiveV2.mpr
      ⟨Nat.lt_trans hi hc, Option.isSome_iff_ne_none.mpr hsome⟩)
    omega

theorem firstChunkAssignedToAny_eq_none {root : Hash} {chunkCount : Nat} {snapshot : List Addr}
    {r : Nat} {targets : List Addr} :
    firstChunkAssignedToAny root chunkCount snapshot r targets = none ↔
      ∀ t ∈ targets, chunksForArchiveV2 root chunkCount snapshot r t = [] := by
  rw [firstChunkAssignedToAny_eq, List.findSome?_eq_none_iff]
  constructor
  · intro h t ht
    refine List.eq_nil_iff_forall_not_mem.mpr ?_
    intro c hc
    obtain ⟨hlt, hsome⟩ := exists_mem_chunksForArchiveV2.mp ⟨t, ht, hc⟩
    have hnone := h c (List.mem_range.mpr hlt)
    rw [Option.map_eq_none_iff] at hnone
    rw [hnone] at hsome
    cases hsome
  · intro h c hc
    rw [Option.map_eq_none_iff]
    by_contra hsome
    obtain ⟨t, ht, hmem⟩ := exists_mem_chunksForArchiveV2.mpr
      ⟨List.mem_range.mp hc, Option.isSome_iff_ne_none.mpr hsome⟩
    rw [h t ht] at hmem
    cases hmem

/--
**All entry points read one assignment.**  For every file, snapshot and replication
factor, none excepted: repeated addresses, an empty snapshot, no replication or more
than there are archives.
-/
theorem assignment_entry_points_agree (root : Hash) (chunkCount : Nat) (snapshot : List Addr)
    (r : Nat) : AssignmentAgrees root chunkCount snapshot r := by
  refine ⟨rfl, ?_, ?_, ?_, ?_, ?_, ?_⟩
  · intro a c
    exact mem_chunksForArchiveV2
  · intro c
    exact assignedArchives_nodup root snapshot c r
  · intro c
    exact assignedArchives_length_eq_min root snapshot c r
  · intro snapshot' h
    unfold assignedArchives computeAssignmentV2 chunksForArchiveV2 firstChunkAssignedToAny
    rw [presortedAddresses_congr h]
    exact ⟨fun _ => rfl, rfl, fun _ => rfl, fun _ => rfl⟩
  · intro targets c a
    exact firstChunkAssignedToAny_eq_some
  · intro targets
    exact firstChunkAssignedToAny_eq_none

end

/-- All archives rank alike. -/
@[reducible] def AssignmentScore.flat : AssignmentScore := ⟨fun _ _ _ => 0⟩

end Snip
