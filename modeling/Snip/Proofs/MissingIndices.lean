/-
When the walk over the missing indices ends, and what it collects.

A chain that answers with the indices from the asked one on, cut to pages of any size,
is read exactly: the last index of a page is smaller than the chunk count, so the step
behind it never saturates, and every page but the last leaves fewer indices ahead.

Against any other chain the only guard compares a page's last index with its own
successor.  It stops the walk at the top of the index range and nowhere else, so a chain
that answers with one page again and again is asked for ever.
-/
import Mathlib.Data.Finset.Sort
import Snip.Node.MissingIndices

namespace Snip

namespace CoverageRpc

variable {σ : Type} {rpc : CoverageRpc σ} {merkleRoot : Hash}

/-! ### The pages of a conversation -/

/-- The walk ends with this answer: a failure, no row, no index, or the highest index. -/
def FinalPage : Except Str (Option AssignmentCoverageV2) → Prop
  | .ok (some cov) => ∀ last, cov.missingIndices.getLast? = some last → last = u32Max
  | _ => True

/-- The indices of an answer. -/
def indicesOf : Except Str (Option AssignmentCoverageV2) → Finset Nat
  | .ok (some cov) => cov.missingIndices.toFinset
  | _ => ∅

/-- From one question to the next: the index behind the page's last one. -/
def nextAsk (rpc : CoverageRpc σ) (merkleRoot : Hash) (ask : Nat × σ) : Nat × σ :=
  let (answer, s) := rpc.page merkleRoot ask.1 ask.2
  match answer with
  | .ok (some cov) => ((cov.missingIndices.getLast?.map saturatingNext).getD ask.1, s)
  | _ => (ask.1, s)

/-- The chain's answer to the `n`-th question of the walk, however long the walk is. -/
def pageAt (rpc : CoverageRpc σ) (merkleRoot : Hash) (ask : Nat × σ) (n : Nat) :
    Except Str (Option AssignmentCoverageV2) :=
  let ask := (rpc.nextAsk merkleRoot)^[n] ask
  (rpc.page merkleRoot ask.1 ask.2).1

theorem saturatingNext_eq_iff (last : Nat) : saturatingNext last = last ↔ last = u32Max := by
  unfold saturatingNext
  omega

/-- All that one call can do: end the walk, or ask on behind a page. -/
theorem collectLoop_succ (rpc : CoverageRpc σ) (merkleRoot : Hash) (calls offset : Nat)
    (missing : Finset Nat) (s : σ) :
    (FinalPage (rpc.page merkleRoot offset s).1 ∧
      (rpc.collectLoop merkleRoot (calls + 1) offset missing s).isSome = true) ∨
    (¬ FinalPage (rpc.page merkleRoot offset s).1 ∧
      rpc.collectLoop merkleRoot (calls + 1) offset missing s
        = rpc.collectLoop merkleRoot calls (rpc.nextAsk merkleRoot (offset, s)).1
            (missing ∪ indicesOf (rpc.page merkleRoot offset s).1)
            (rpc.nextAsk merkleRoot (offset, s)).2) := by
  unfold nextAsk
  rw [collectLoop]
  dsimp only
  generalize rpc.page merkleRoot offset s = answer
  obtain ⟨answer, s'⟩ := answer
  rcases answer with e | _ | cov
  · exact Or.inl ⟨trivial, rfl⟩
  · exact Or.inl ⟨trivial, rfl⟩
  · dsimp only
    unfold FinalPage
    cases hlast : cov.missingIndices.getLast? with
    | none => exact Or.inl ⟨fun last h => absurd (hlast.symm.trans h) nofun, rfl⟩
    | some last =>
        by_cases hmax : last = u32Max
        · refine Or.inl ⟨fun l hl => ?_, ?_⟩
          · cases hlast.symm.trans hl
            exact hmax
          · dsimp only
            rw [if_pos ((saturatingNext_eq_iff last).mpr hmax)]
            rfl
        · refine Or.inr ⟨fun h => hmax (h last hlast), ?_⟩
          dsimp only
          rw [if_neg fun h => hmax ((saturatingNext_eq_iff last).mp h)]
          rfl

/-- Finitely many calls are enough. -/
def Finishes (rpc : CoverageRpc σ) (merkleRoot : Hash) (s : σ) : Prop :=
  ∃ calls, (rpc.collectMissingIndices merkleRoot calls s).isSome = true

theorem collectLoop_finishes_iff (rpc : CoverageRpc σ) (merkleRoot : Hash) (ask : Nat × σ)
    (missing : Finset Nat) :
    (∃ calls, (rpc.collectLoop merkleRoot calls ask.1 missing ask.2).isSome = true) ↔
      ∃ n, FinalPage (rpc.pageAt merkleRoot ask n) := by
  constructor
  · rintro ⟨calls, h⟩
    induction calls generalizing ask missing with
    | zero => cases h
    | succ calls ih =>
        rcases rpc.collectLoop_succ merkleRoot calls ask.1 missing ask.2 with
          ⟨hfinal, -⟩ | ⟨-, hstep⟩
        · exact ⟨0, hfinal⟩
        · rw [hstep] at h
          obtain ⟨n, hn⟩ := ih _ _ h
          exact ⟨n + 1, hn⟩
  · rintro ⟨n, h⟩
    induction n generalizing ask missing with
    | zero =>
        refine ⟨1, ?_⟩
        rcases rpc.collectLoop_succ merkleRoot 0 ask.1 missing ask.2 with
          ⟨-, hsome⟩ | ⟨hnot, -⟩
        · exact hsome
        · exact absurd h hnot
    | succ n ih =>
        obtain ⟨calls, hcalls⟩ := ih (rpc.nextAsk merkleRoot ask)
          (missing ∪ indicesOf (rpc.page merkleRoot ask.1 ask.2).1) h
        refine ⟨calls + 1, ?_⟩
        rcases rpc.collectLoop_succ merkleRoot calls ask.1 missing ask.2 with
          ⟨-, hsome⟩ | ⟨-, hstep⟩
        · exact hsome
        · rw [hstep]
          exact hcalls

/-! ### A chain that only moves forward -/

/-- Every page ends at or above the index asked from, as 32-bit indices do. -/
def Forward (rpc : CoverageRpc σ) (merkleRoot : Hash) : Prop :=
  ∀ offset s cov, (rpc.page merkleRoot offset s).1 = .ok (some cov) →
    ∀ last, cov.missingIndices.getLast? = some last → offset ≤ last ∧ last ≤ u32Max

/-- An answer that does not end the walk has a last index below the top. -/
theorem exists_last_of_not_final {answer : Except Str (Option AssignmentCoverageV2)}
    (h : ¬ FinalPage answer) : ∃ cov last, answer = .ok (some cov) ∧
      cov.missingIndices.getLast? = some last ∧ last ≠ u32Max := by
  rcases answer with e | _ | cov
  · exact absurd trivial h
  · exact absurd trivial h
  · unfold FinalPage at h
    dsimp only at h
    rw [not_forall] at h
    obtain ⟨last, hlast⟩ := h
    rw [Classical.not_imp] at hlast
    exact ⟨cov, last, rfl, hlast.1, hlast.2⟩

theorem nextAsk_fst {offset last : Nat} {s : σ} {cov : AssignmentCoverageV2}
    (hpage : (rpc.page merkleRoot offset s).1 = .ok (some cov))
    (hlast : cov.missingIndices.getLast? = some last) :
    (rpc.nextAsk merkleRoot (offset, s)).1 = saturatingNext last := by
  unfold nextAsk
  dsimp only
  rw [hpage]
  dsimp only
  rw [hlast]
  rfl

/-- Each question asks higher than the one before, and none above the range. -/
theorem finishes_of_forward (h : rpc.Forward merkleRoot) (s : σ) : rpc.Finishes merkleRoot s := by
  have hloop : ∀ room offset (missing : Finset Nat) (s : σ), offset ≤ u32Max →
      u32Max < offset + room →
      (rpc.collectLoop merkleRoot room offset missing s).isSome = true := by
    intro room
    induction room with
    | zero =>
        intro offset _ _ hle hroom
        omega
    | succ room ih =>
        intro offset missing s hle hroom
        rcases rpc.collectLoop_succ merkleRoot room offset missing s with
          ⟨-, hsome⟩ | ⟨hnot, hstep⟩
        · exact hsome
        · obtain ⟨cov, last, hpage, hlast, hmax⟩ := exists_last_of_not_final hnot
          obtain ⟨hlow, hhigh⟩ := h offset s cov hpage last hlast
          have hnext : saturatingNext last = last + 1 := by
            unfold saturatingNext
            omega
          rw [hstep, nextAsk_fst hpage hlast, hnext]
          exact ih _ _ _ (by omega) (by omega)
  exact ⟨u32Max + 1, hloop _ 0 ∅ s (Nat.zero_le _) (by omega)⟩

/-! ### A chain that answers truly -/

/--
Every page is a start of the missing indices from the asked one on, in ascending order,
as long as the chain likes but never empty while there are any.
-/
def Truthful (rpc : CoverageRpc σ) (merkleRoot : Hash) (missing : Finset Nat) : Prop :=
  ∀ offset s, ∃ cov size, (rpc.page merkleRoot offset s).1 = .ok (some cov) ∧ 1 ≤ size ∧
    cov.missingIndices = ((missing.filter (offset ≤ ·)).sort (· ≤ ·)).take size

/-- The start of a sorted set is what lies up to the start's last element. -/
theorem mem_take_sort_iff {rest : Finset Nat} {size last : Nat}
    (hlast : ((rest.sort (· ≤ ·)).take size).getLast? = some last) (i : Nat) :
    i ∈ (rest.sort (· ≤ ·)).take size ↔ i ∈ rest ∧ i ≤ last := by
  have hsorted := (Finset.sortedLT_sort rest).pairwise
  rw [← List.take_append_drop size (rest.sort (· ≤ ·)), List.pairwise_append] at hsorted
  obtain ⟨htake, -, hcross⟩ := hsorted
  obtain ⟨init, hinit⟩ := List.getLast?_eq_some_iff.mp hlast
  constructor
  · intro hi
    refine ⟨(Finset.mem_sort _).mp (List.mem_of_mem_take hi), ?_⟩
    rw [hinit] at hi htake
    rcases List.mem_append.mp hi with hi | hi
    · exact ((List.pairwise_append.mp htake).2.2 i hi last (List.mem_singleton_self _)).le
    · exact (List.mem_singleton.mp hi).le
  · rintro ⟨hrest, hle⟩
    have hall : i ∈ (rest.sort (· ≤ ·)).take size ++ (rest.sort (· ≤ ·)).drop size := by
      rw [List.take_append_drop]
      exact (Finset.mem_sort _).mpr hrest
    rcases List.mem_append.mp hall with hi | hi
    · exact hi
    · have hlt := hcross last (List.mem_of_getLast? hlast) i hi
      omega

/--
After each page the collected indices are the missing ones below the next question.
The induction is on the calls left, which the indices ahead never outnumber.
-/
theorem collectLoop_exact {missing : Finset Nat} {chunkCount : Nat}
    (h : rpc.Truthful merkleRoot missing) (hcount : chunkCount ≤ u32Max)
    (hmissing : ∀ i ∈ missing, i < chunkCount) (room offset : Nat) (s : σ)
    (hroom : (missing.filter (offset ≤ ·)).card < room) :
    rpc.collectLoop merkleRoot room offset (missing.filter (· < offset)) s
      = some (.ok (some missing)) := by
  induction room generalizing offset s with
  | zero => cases hroom
  | succ room ih =>
      obtain ⟨cov, size, hpage, hsize, hindices⟩ := h offset s
      cases hlast : cov.missingIndices.getLast? with
      | none =>
          -- Nothing is missing from here on, so everything is collected.
          have hnil := List.getLast?_eq_none_iff.mp hlast
          rw [hindices, List.take_eq_nil_iff] at hnil
          have hempty : missing.filter (offset ≤ ·) = ∅ := by
            rcases hnil with hzero | hnil
            · omega
            · rw [← Finset.card_eq_zero, ← Finset.length_sort (· ≤ ·), hnil]
              rfl
          have hall : missing.filter (· < offset) = missing := by
            refine Finset.filter_true_of_mem fun i hi => ?_
            by_contra hge
            have hmem := Finset.mem_filter.mpr ⟨hi, Nat.le_of_not_lt hge⟩
            rw [hempty] at hmem
            cases hmem
          unfold collectLoop
          generalize rpc.page merkleRoot offset s = answer at hpage
          obtain ⟨answer, s'⟩ := answer
          obtain rfl : answer = .ok (some cov) := hpage
          dsimp only
          rw [hlast, hall]
      | some last =>
          have hmem : ∀ i, i ∈ cov.missingIndices ↔ (i ∈ missing ∧ offset ≤ i) ∧ i ≤ last := by
            intro i
            rw [hindices] at hlast ⊢
            rw [mem_take_sort_iff hlast, Finset.mem_filter]
          obtain ⟨⟨hin, hge⟩, -⟩ := (hmem last).mp (List.mem_of_getLast? hlast)
          have hlt := hmissing last hin
          have hnot : ¬ FinalPage (rpc.page merkleRoot offset s).1 := by
            rw [hpage]
            intro hfinal
            have hmax := hfinal last hlast
            omega
          have hnext : saturatingNext last = last + 1 := by
            unfold saturatingNext
            omega
          have hcollected : missing.filter (· < offset) ∪ cov.missingIndices.toFinset
              = missing.filter (· < last + 1) := by
            ext i
            rw [Finset.mem_union, Finset.mem_filter, Finset.mem_filter, List.mem_toFinset, hmem]
            constructor
            · rintro (⟨hi, hlow⟩ | ⟨⟨hi, -⟩, hle⟩)
              · exact ⟨hi, by omega⟩
              · exact ⟨hi, by omega⟩
            · rintro ⟨hi, hle⟩
              by_cases hlow : i < offset
              · exact Or.inl ⟨hi, hlow⟩
              · exact Or.inr ⟨⟨hi, by omega⟩, by omega⟩
          have hfewer : (missing.filter (last + 1 ≤ ·)).card < (missing.filter (offset ≤ ·)).card := by
            refine Finset.card_lt_card (Finset.ssubset_iff_of_subset ?_ |>.mpr ?_)
            · intro i hi
              obtain ⟨hi, hle⟩ := Finset.mem_filter.mp hi
              exact Finset.mem_filter.mpr ⟨hi, by omega⟩
            · refine ⟨last, Finset.mem_filter.mpr ⟨hin, hge⟩, fun hi => ?_⟩
              have hle := (Finset.mem_filter.mp hi).2
              omega
          rcases rpc.collectLoop_succ merkleRoot room offset (missing.filter (· < offset)) s with
            ⟨hfinal, -⟩ | ⟨-, hstep⟩
          · exact absurd hfinal hnot
          · rw [hstep, nextAsk_fst hpage hlast, hnext, hpage]
            show rpc.collectLoop merkleRoot room (last + 1)
              (missing.filter (· < offset) ∪ cov.missingIndices.toFinset) _ = _
            rw [hcollected]
            exact ih (last + 1) _ (by omega)

/--
**The walk ends exactly when the chain once fails, has no row, sends an empty page or one
that ends in the highest index;** a chain whose pages never end below the index asked
from does so.  **And from a chain that answers truly, in pages of any size, it collects
exactly the missing indices,** of a file of up to `2 ^ 32 - 1` chunks.
-/
theorem collectMissingIndices_spec (merkleRoot : Hash) :
    (∀ (σ : Type) (rpc : CoverageRpc σ) (s : σ),
      rpc.Finishes merkleRoot s ↔ ∃ n, FinalPage (rpc.pageAt merkleRoot (0, s) n)) ∧
    (∀ (σ : Type) (rpc : CoverageRpc σ) (s : σ),
      rpc.Forward merkleRoot → rpc.Finishes merkleRoot s) ∧
    ∀ (σ : Type) (rpc : CoverageRpc σ) (s : σ) (chunkCount : Nat) (missing : Finset Nat),
      chunkCount ≤ u32Max → (∀ i ∈ missing, i < chunkCount) → rpc.Truthful merkleRoot missing →
      ∀ calls, missing.card < calls →
        rpc.collectMissingIndices merkleRoot calls s = some (.ok (some missing)) := by
  refine ⟨fun σ rpc s => rpc.collectLoop_finishes_iff merkleRoot (0, s) ∅,
    fun σ rpc s h => finishes_of_forward h s,
    fun σ rpc s chunkCount missing hcount hmissing h calls hcalls => ?_⟩
  have hloop := collectLoop_exact h hcount hmissing calls 0 s (by simpa using hcalls)
  unfold collectMissingIndices
  simpa using hloop

end CoverageRpc

/-! #### One page for ever -/

/-- A chain that reports chunk 5 missing, whatever it is asked. -/
def stuckRpc : CoverageRpc Unit where
  storageGetAssignmentCoverageV2 _ _ _ s :=
    (.ok (some {
      chunkCount := 8, coveredCount := 7, canActivateNow := false, missingTotal := 1,
      missingOffset := 0, missingIndices := [5], perArchive := [], assignmentEpochs := [],
      latestAssignmentEpoch := 0, reassignmentNeeded := false, perEpoch := [] }), s)

theorem constant_page_never_ends : ¬ stuckRpc.Finishes Hash.zero () := by
  rintro ⟨calls, h⟩
  have hloop : ∀ calls offset (missing : Finset Nat),
      stuckRpc.collectLoop Hash.zero calls offset missing () = none := by
    intro calls
    induction calls with
    | zero => exact fun _ _ => rfl
    | succ calls ih => exact fun _ _ => ih _ _
  unfold CoverageRpc.collectMissingIndices at h
  rw [hloop] at h
  cases h

/-- A chain that answers truly about chunks 2, 5 and 7, two at a time. -/
def pagedRpc : CoverageRpc Unit where
  storageGetAssignmentCoverageV2 _ offset _ s :=
    (.ok (some {
      chunkCount := 8, coveredCount := 5, canActivateNow := false, missingTotal := 3,
      missingOffset := offset.getD 0
      missingIndices := ((({2, 5, 7} : Finset Nat).filter (offset.getD 0 ≤ ·)).sort (· ≤ ·)).take 2
      perArchive := [], assignmentEpochs := [], latestAssignmentEpoch := 0
      reassignmentNeeded := false, perEpoch := [] }), s)

theorem paged_chain_is_collected :
    pagedRpc.collectMissingIndices Hash.zero 4 () = some (.ok (some {2, 5, 7})) :=
  (CoverageRpc.collectMissingIndices_spec Hash.zero).2.2 Unit pagedRpc () 8 {2, 5, 7} (by decide)
    (by decide) (fun _ _ => ⟨_, 2, rfl, by decide, rfl⟩) 4 (by decide)

end Snip
