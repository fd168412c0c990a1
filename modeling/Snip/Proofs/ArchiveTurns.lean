/-
In which order the archives of a chunk are asked.

Peers come to be known while a download runs, so the map from addresses to peers may be
another one at every search, and so may the flag that lets archives be passed over.
Whatever they are, the order is always the archives that were asked, as they were asked,
followed by the ranking without them.  That is the invariant of a run; everything else is
read off it.
-/
import Mathlib.Data.List.Nodup
import Snip.Proofs.ChunkStates

namespace Snip

/-- The order of a chunk's archives with its position, and who was returned so far. -/
structure ArchiveTurns where
  order : List Addr
  next : Nat
  returned : List Addr

namespace ArchiveTurns

/-- What one search is given: who is identified, and whether others may be passed over. -/
abbrev Search := (Addr → Option PeerId) × Bool

def start (ranking : List Addr) : ArchiveTurns := ⟨ranking, 0, []⟩

/-- A search, and the mark on the position it returned. -/
def ask (t : ArchiveTurns) (search : Search) : ArchiveTurns :=
  match nextAssignedArchive t.order t.next search.1 search.2 with
  | none => t
  | some (pos, _) =>
      let (order, next) := markArchiveAsked t.order t.next pos
      ⟨order, next, t.returned ++ t.order[pos]?.toList⟩

def run (ranking : List Addr) (searches : List Search) : ArchiveTurns :=
  searches.foldl ask (start ranking)

/-- The archives that were not returned yet, in the order of the ranking. -/
def left (ranking : List Addr) (t : ArchiveTurns) : List Addr := ranking.filter (· ∉ t.returned)

/-- The next search returns this archive with this peer. -/
def Returns (t : ArchiveTurns) (search : Search) (addr : Addr) (peerId : PeerId) : Prop :=
  ∃ pos, nextAssignedArchive t.order t.next search.1 search.2 = some (pos, peerId) ∧
    t.order[pos]? = some addr

/-- The first of the list that is identified; if nobody may be passed over, it heads the list. -/
def FirstIdentified (search : Search) (archives : List Addr) (addr : Addr) (peerId : PeerId) :
    Prop :=
  search.1 addr = some peerId ∧ ∃ passed rest, archives = passed ++ addr :: rest ∧
    (∀ a ∈ passed, search.1 a = none) ∧ (search.2 = false → passed = [])

/-- The order is who was asked, then who is left. -/
structure Inv (ranking : List Addr) (t : ArchiveTurns) : Prop where
  order : t.order = t.returned ++ t.left ranking
  next : t.next = t.returned.length
  ranked : ∀ a ∈ t.returned, a ∈ ranking
  once : t.returned.Nodup

/-! ### The search -/

/-- The scan stops at the first identified archive, or at once. -/
theorem scanArchives_iff {search : Search} {peerId : PeerId} :
    ∀ (archives : List Addr) (start k : Nat),
      scanArchives search.1 search.2 start archives = some (start + k, peerId) ↔
        ∃ addr, archives[k]? = some addr ∧ search.1 addr = some peerId ∧
          (∀ a ∈ archives.take k, search.1 a = none) ∧ (search.2 = false → k = 0) := by
  intro archives
  induction archives with
  | nil =>
      intro start k
      simp [scanArchives]
  | cons addr archives ih =>
      intro start k
      unfold scanArchives
      cases hpeer : search.1 addr with
      | some other =>
          cases k with
          | zero => simp [hpeer]
          | succ k => simp [hpeer]
      | none =>
          cases hskip : search.2 with
          | false =>
              cases k with
              | zero => simp [hpeer]
              | succ k => simp
          | true =>
              cases k with
              | zero =>
                  have hlater : scanArchives search.1 true (start + 1) archives
                      ≠ some (start, peerId) := by
                    intro h
                    obtain ⟨j, -, hpos, -⟩ := scanArchives_some _ _ h
                    omega
                  simp [hpeer, hlater]
              | succ k =>
                  have hnext := ih (start + 1) k
                  rw [hskip, Nat.add_assoc, Nat.add_comm 1 k] at hnext
                  simp [hnext, hpeer]

theorem firstIdentified_iff {search : Search} {archives : List Addr} {addr : Addr}
    {peerId : PeerId} :
    FirstIdentified search archives addr peerId ↔
      ∃ k, archives[k]? = some addr ∧ search.1 addr = some peerId ∧
        (∀ a ∈ archives.take k, search.1 a = none) ∧ (search.2 = false → k = 0) := by
  constructor
  · rintro ⟨hpeer, passed, rest, rfl, hpassed, hhead⟩
    refine ⟨passed.length, by simp, hpeer, by simpa using hpassed, ?_⟩
    intro hskip
    rw [hhead hskip]
    rfl
  · rintro ⟨k, hget, hpeer, hpassed, hhead⟩
    obtain ⟨hk, hget⟩ := List.getElem?_eq_some_iff.mp hget
    refine ⟨hpeer, archives.take k, archives.drop (k + 1), ?_, hpassed, ?_⟩
    · rw [← hget, ← List.drop_eq_getElem_cons hk, List.take_append_drop]
    · intro hskip
      rw [hhead hskip]
      exact List.take_zero

/-- Searching the order from its position on is searching who is left. -/
theorem Inv.returns_iff {ranking : List Addr} {t : ArchiveTurns} (h : Inv ranking t)
    (search : Search) (addr : Addr) (peerId : PeerId) :
    t.Returns search addr peerId ↔ FirstIdentified search (t.left ranking) addr peerId := by
  have hdrop : t.order.drop t.next = t.left ranking := by
    rw [h.order, h.next, List.drop_left]
  have hget : ∀ k, t.order[t.next + k]? = (t.left ranking)[k]? := by
    intro k
    rw [← hdrop, List.getElem?_drop]
  rw [firstIdentified_iff]
  unfold Returns nextAssignedArchive
  rw [hdrop]
  constructor
  · rintro ⟨pos, hscan, haddr⟩
    obtain ⟨k, -, rfl, -⟩ := scanArchives_some _ _ hscan
    obtain ⟨addr', haddr', hrest⟩ := (scanArchives_iff _ _ _).mp hscan
    rw [hget, haddr', Option.some.injEq] at haddr
    rw [haddr] at haddr' hrest
    exact ⟨k, haddr', hrest⟩
  · rintro ⟨k, haddr, hrest⟩
    refine ⟨t.next + k, (scanArchives_iff _ _ _).mpr ⟨addr, haddr, hrest⟩, ?_⟩
    rw [hget]
    exact haddr

/-! ### The mark -/

/-- The archive goes behind those that were asked; those it passed over and those behind stay. -/
theorem markArchiveAsked_eq (returned left : List Addr) {k : Nat} {addr : Addr}
    (hget : left[k]? = some addr) :
    markArchiveAsked (returned ++ left) returned.length (returned.length + k)
      = (returned ++ addr :: left.eraseIdx k, returned.length + 1) := by
  have hpos : (returned ++ left)[returned.length + k]? = some addr := by
    rw [List.getElem?_append_right (Nat.le_add_right _ _), Nat.add_sub_cancel_left]
    exact hget
  have hrest : (returned ++ left).drop (returned.length + k + 1) = left.drop (k + 1) := by
    rw [Nat.add_assoc, List.drop_append]
    simp
  unfold markArchiveAsked
  rw [hpos, hrest, List.take_left, List.drop_left, Nat.add_sub_cancel_left,
    List.eraseIdx_eq_take_drop_succ]
  simp

/-- One archive less is left, and the others are in the order they were in. -/
theorem left_of_returned {ranking returned : List Addr} (hdistinct : ranking.Nodup) {k : Nat}
    {addr : Addr} (hget : (ranking.filter (· ∉ returned))[k]? = some addr) :
    (ranking.filter (· ∉ returned)).eraseIdx k = ranking.filter (· ∉ returned ++ [addr]) := by
  obtain ⟨hk, hget⟩ := List.getElem?_eq_some_iff.mp hget
  have hnodup : (ranking.filter (· ∉ returned)).Nodup := hdistinct.filter _
  rw [← hnodup.erase_getElem k hk, hget, hnodup.erase_eq_filter, List.filter_filter]
  refine List.filter_congr ?_
  intro a _
  by_cases ha : a = addr
  · simp [ha]
  · simp [ha]

/-- What a search and its mark do: nothing, or the archive returned moves from left to asked. -/
theorem Inv.ask_cases {ranking : List Addr} {t : ArchiveTurns} (h : Inv ranking t)
    (search : Search) :
    t.ask search = t ∨ ∃ k addr, (t.left ranking)[k]? = some addr ∧
      t.ask search = ⟨t.returned ++ addr :: (t.left ranking).eraseIdx k, t.returned.length + 1,
        t.returned ++ [addr]⟩ := by
  unfold ask
  cases hnext : nextAssignedArchive t.order t.next search.1 search.2 with
  | none => exact .inl rfl
  | some found =>
      obtain ⟨pos, peerId⟩ := found
      obtain ⟨addr, hle, hget, -⟩ := nextAssignedArchive_some hnext
      obtain ⟨k, rfl⟩ := Nat.exists_eq_add_of_le hle
      rw [h.order, h.next, List.getElem?_append_right (Nat.le_add_right _ _),
        Nat.add_sub_cancel_left] at hget
      refine .inr ⟨k, addr, hget, ?_⟩
      have hpos : (t.returned ++ t.left ranking)[t.returned.length + k]? = some addr := by
        rw [List.getElem?_append_right (Nat.le_add_right _ _), Nat.add_sub_cancel_left]
        exact hget
      simp only [h.order, h.next, markArchiveAsked_eq _ _ hget, hpos, Option.toList_some]

theorem Inv.start (ranking : List Addr) : Inv ranking (ArchiveTurns.start ranking) := by
  refine ⟨?_, rfl, ?_, List.nodup_nil⟩
  · simp [left, ArchiveTurns.start]
  · intro a ha
    cases ha

theorem Inv.ask {ranking : List Addr} (hdistinct : ranking.Nodup) {t : ArchiveTurns}
    (h : Inv ranking t) (search : Search) : Inv ranking (t.ask search) := by
  rcases h.ask_cases search with hsame | ⟨k, addr, hget, hask⟩
  · rw [hsame]
    exact h
  · have hmem : addr ∈ t.left ranking := List.mem_of_getElem? hget
    obtain ⟨hranked, hnew⟩ : addr ∈ ranking ∧ addr ∉ t.returned := by
      simpa [left] using hmem
    rw [hask]
    refine ⟨?_, ?_, ?_, ?_⟩
    · show t.returned ++ addr :: (t.left ranking).eraseIdx k
        = t.returned ++ [addr] ++ ranking.filter (· ∉ t.returned ++ [addr])
      rw [← left_of_returned hdistinct hget, List.append_assoc, List.singleton_append]
      rfl
    · simp
    · intro a ha
      rcases List.mem_append.mp ha with ha | ha
      · exact h.ranked a ha
      · rw [List.mem_singleton.mp ha]
        exact hranked
    · refine List.nodup_append.mpr ⟨h.once, List.nodup_singleton addr, ?_⟩
      intro a ha b hb hab
      rw [List.mem_singleton.mp hb] at hab
      exact hnew (hab ▸ ha)

/-- Induction on the searches; each keeps the invariant. -/
theorem Inv.run {ranking : List Addr} (hdistinct : ranking.Nodup) (searches : List Search) :
    ∀ t, Inv ranking t → Inv ranking (searches.foldl ArchiveTurns.ask t) := by
  induction searches with
  | nil =>
      intro t h
      exact h
  | cons search searches ih =>
      intro t h
      exact ih _ (h.ask hdistinct search)

/-! ### What is read off the invariant -/

theorem Inv.perm {ranking : List Addr} (hdistinct : ranking.Nodup) {t : ArchiveTurns}
    (h : Inv ranking t) : List.Perm t.order ranking := by
  have hnodup : t.order.Nodup := by
    rw [h.order]
    refine List.nodup_append.mpr ⟨h.once, hdistinct.filter _, ?_⟩
    intro a ha b hb hab
    have hnew : b ∉ t.returned := by simpa using (List.mem_filter.mp hb).2
    exact hnew (hab ▸ ha)
  refine (List.perm_ext_iff_of_nodup hnodup hdistinct).mpr ?_
  intro a
  rw [h.order, List.mem_append]
  by_cases ha : a ∈ t.returned
  · simp [ha, h.ranked a ha]
  · simp [ha, left]

/-- Once as many were returned as there are, nobody is left. -/
theorem Inv.left_eq_nil {ranking : List Addr} (hdistinct : ranking.Nodup) {t : ArchiveTurns}
    (h : Inv ranking t) (hall : t.returned.length = ranking.length) : t.left ranking = [] := by
  have hlength := (h.perm hdistinct).length_eq
  rw [h.order, List.length_append] at hlength
  exact List.length_eq_zero_iff.mp (by omega)

/-- What holds of the archives of a chunk after any searches. -/
structure InTurn (ranking : List Addr) (t : ArchiveTurns) : Prop where
  perm : List.Perm t.order ranking
  once : t.returned.Nodup
  /-- Who is left is in the order of the ranking. -/
  unasked : t.order.drop t.next = ranking.filter (· ∉ t.returned)
  first : ∀ search addr peerId, t.Returns search addr peerId ↔
    FirstIdentified search (ranking.filter (· ∉ t.returned)) addr peerId
  exhausted : t.returned.length = ranking.length →
    ∀ search : Search, nextAssignedArchive t.order t.next search.1 search.2 = none

/-- **Each archive of a chunk gets its turn once, in the order of the ranking.** -/
theorem archives_take_turns {ranking : List Addr} (hdistinct : ranking.Nodup)
    (searches : List Search) : InTurn ranking (run ranking searches) := by
  have h : Inv ranking (run ranking searches) :=
    Inv.run hdistinct searches _ (Inv.start ranking)
  have hdrop : (run ranking searches).order.drop (run ranking searches).next
      = (run ranking searches).left ranking := by
    rw [h.order, h.next, List.drop_left]
  refine ⟨h.perm hdistinct, h.once, hdrop, h.returns_iff, ?_⟩
  intro hall search
  unfold nextAssignedArchive
  rw [hdrop, h.left_eq_nil hdistinct hall]
  rfl

/-- Three archives, of which the second is identified late. -/
theorem late_archive_takes_its_turn :
    (run [1, 2, 3] [(fun a => if a = 2 then none else some 0, true),
      (fun a => if a = 2 then none else some 0, true), (fun _ => some 0, false)]).returned
        = [1, 3, 2] ∧
      InTurn [1, 2, 3] (run [1, 2, 3] [(fun a => if a = 2 then none else some 0, true),
        (fun a => if a = 2 then none else some 0, true), (fun _ => some 0, false)]) :=
  ⟨by decide, archives_take_turns (by decide) _⟩

end ArchiveTurns

end Snip
