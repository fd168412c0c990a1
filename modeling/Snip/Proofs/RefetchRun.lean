/-
Which files a run of the re-fetch examines.

A run examines the listing from its head up to the first row at which one of its bounds
is reached.  The next run does the same, so what one run does not come to is not come to
later either, unless the rows before it use up fewer attempts then.  All files are
examined, in one run or in many, exactly when a single run may examine them all.
-/
import Snip.Lib.Lists
import Snip.Node.RefetchRun
import Snip.Proofs.Acceptance
import Snip.Proofs.Refetch

namespace Snip

open Dialogue

theorem RefetchReport.Extends.attempts_le {r r' : RefetchReport} (h : r.Extends r') :
    r.attempts ≤ r'.attempts :=
  Nat.add_le_add h.fetched.length_le h.failed.length_le

namespace Refetcher

variable {σ : Type} {r : Refetcher σ} [Blake3]

/-! ### Attempts are never taken back -/

theorem performPlan_attempts_le {root : Hash} {chunkCount : Nat} (plan : List ChunkPlan)
    (report : RefetchReport) :
    Ensures (r.performPlan root chunkCount plan report) fun _ done =>
      report.attempts ≤ done.attempts := by
  unfold performPlan
  by_cases hempty : plan = []
  · simp only [if_pos hempty]
    exact .pure (Nat.le_refl _)
  · simp only [if_neg hempty]
    refine Ensures.bind (manifestFor_extends _) ?_
    rintro _ ⟨found, report'⟩ hext
    have hle : report.attempts ≤ report'.attempts := hext.attempts_le
    cases found with
    | none =>
        refine .pure (hle.trans (Nat.add_le_add_left ?_ _))
        rw [List.length_append]
        exact Nat.le_add_right _ _
    | some manifest =>
        refine Ensures.bind (fetchChunks_attempts plan report') ?_
        rintro _ done ⟨hdone, -⟩
        have hall : report.attempts ≤ done.attempts := hle.trans hdone.attempts_le
        by_cases hnew : report'.fetched.length < done.fetched.length
        · simp only [if_pos hnew]
          refine Ensures.ask ?_
          intro _
          exact .pure hall
        · simp only [if_neg hnew]
          exact .pure hall

variable [AssignmentScore]

theorem refetchFile_attempts_le (root : Hash) (report : RefetchReport) :
    Ensures (r.refetchFile root report) fun _ done => report.attempts ≤ done.attempts := by
  have hsame : ∀ (report' : RefetchReport), report'.fetched = report.fetched →
      report'.failed = report.failed →
      Ensures (pure report' : RefetchM σ RefetchReport) fun _ done =>
        report.attempts ≤ done.attempts := by
    intro report' hfetched hfailed
    refine .pure ?_
    show report.fetched.length + report.failed.length
      ≤ report'.fetched.length + report'.failed.length
    rw [hfetched, hfailed]
  refine Ensures.ask ?_
  intro shape
  cases shape with
  | error e => exact hsame _ rfl rfl
  | ok shape =>
      dsimp only
      split
      · exact hsame _ rfl rfl
      split
      · exact hsame _ rfl rfl
      refine Ensures.ask ?_
      intro coverage
      rcases coverage with e | _ | coverage
      · exact hsame _ rfl rfl
      · exact hsame _ rfl rfl
      dsimp only
      split
      · exact hsame _ rfl rfl
      split
      · exact hsame _ rfl rfl
      have hread : Ensures (r.readEpochs (coverage.assignmentEpochs.drop
          (coverage.assignmentEpochs.length - maxEpochsConsulted))) fun _ _ => True :=
        fun _ => trivial
      refine Ensures.bind hread ?_
      intro _ epochs _
      cases epochs with
      | none => exact hsame _ rfl rfl
      | some epochs =>
          refine Ensures.ask ?_
          intro held
          exact performPlan_attempts_le _ report

/-! ### A scan of rows -/

/-- All of these rows, whatever the bounds. -/
def examineAll (r : Refetcher σ) : List PushableFileInfoV2 → RunReport → σ → RunReport × σ
  | [], run, s => (run, s)
  | row :: rows, run, s =>
      let (run, s) := r.examineRow row run s
      examineAll r rows run s

theorem examineRow_spec (r : Refetcher σ) (row : PushableFileInfoV2) (run : RunReport) (s : σ) :
    (r.examineRow row run s).1.checked = run.checked ++ [row] ∧
      run.report.attempts ≤ (r.examineRow row run s).1.report.attempts := by
  unfold examineRow
  cases hroot : decodeRootHex row.merkleRoot with
  | none => exact ⟨rfl, Nat.le_refl _⟩
  | some root => exact ⟨rfl, refetchFile_attempts_le root run.report s⟩

theorem examineAll_spec (r : Refetcher σ) (rows : List PushableFileInfoV2) (run : RunReport)
    (s : σ) :
    (r.examineAll rows run s).1.checked = run.checked ++ rows ∧
      run.report.attempts ≤ (r.examineAll rows run s).1.report.attempts := by
  induction rows generalizing run s with
  | nil => exact ⟨(List.append_nil _).symm, Nat.le_refl _⟩
  | cons row rows ih =>
      obtain ⟨hchecked, hle⟩ := r.examineRow_spec row run s
      obtain ⟨hall, hmore⟩ := ih (r.examineRow row run s).1 (r.examineRow row run s).2
      refine ⟨?_, hle.trans hmore⟩
      show (r.examineAll rows (r.examineRow row run s).1 (r.examineRow row run s).2).1.checked = _
      rw [hall, hchecked, List.append_assoc]
      rfl

theorem examineAll_append (r : Refetcher σ) (rows rows' : List PushableFileInfoV2)
    (run : RunReport) (s : σ) : r.examineAll (rows ++ rows') run s
      = r.examineAll rows' (r.examineAll rows run s).1 (r.examineAll rows run s).2 := by
  induction rows generalizing run s with
  | nil => rfl
  | cons row rows ih => exact ih _ _

/-- More rows, no fewer attempts. -/
theorem attempts_prefix_le {rows rows' : List PushableFileInfoV2} (h : rows <+: rows')
    (run : RunReport) (s : σ) : (r.examineAll rows run s).1.report.attempts
      ≤ (r.examineAll rows' run s).1.report.attempts := by
  obtain ⟨rest, rfl⟩ := h
  rw [examineAll_append]
  exact (r.examineAll_spec rest _ _).2

theorem scanRows_cons (r : Refetcher σ) (limits : ListingLimits) (row : PushableFileInfoV2)
    (rows : List PushableFileInfoV2) (run : RunReport) (s : σ) :
    r.scanRows limits (row :: rows) run s =
      if r.full limits run = true then (true, run, s)
      else r.scanRows limits rows (r.examineRow row run s).1 (r.examineRow row run s).2 := rfl

/-- A scan examines the rows up to the first one at which a bound is reached. -/
theorem scanRows_spec (r : Refetcher σ) (limits : ListingLimits) (rows : List PushableFileInfoV2)
    (run : RunReport) (s : σ) :
    ∃ k, k ≤ rows.length ∧
      r.scanRows limits rows run s = (decide (k < rows.length), r.examineAll (rows.take k) run s) ∧
      (∀ i < k, r.full limits (r.examineAll (rows.take i) run s).1 = false) ∧
      (k < rows.length → r.full limits (r.examineAll (rows.take k) run s).1 = true) := by
  induction rows generalizing run s with
  | nil => exact ⟨0, Nat.le_refl _, rfl, nofun, nofun⟩
  | cons row rows ih =>
      rw [scanRows_cons]
      by_cases hfull : r.full limits run = true
      · rw [if_pos hfull]
        exact ⟨0, Nat.zero_le _, by simp [examineAll], nofun, fun _ => hfull⟩
      · rw [if_neg hfull]
        obtain ⟨k, hle, heq, hbefore, hstop⟩ :=
          ih (r.examineRow row run s).1 (r.examineRow row run s).2
        refine ⟨k + 1, Nat.succ_le_succ hle, ?_, ?_, ?_⟩
        · rw [List.take_succ_cons]
          simpa [examineAll] using heq
        · intro i hi
          cases i with
          | zero => simpa [examineAll] using hfull
          | succ i =>
              rw [List.take_succ_cons]
              exact hbefore i (by omega)
        · intro hlt
          rw [List.take_succ_cons]
          exact hstop (by simpa using hlt)

theorem scanRows_append (r : Refetcher σ) (limits : ListingLimits)
    (rows rows' : List PushableFileInfoV2) (run : RunReport) (s : σ) :
    r.scanRows limits (rows ++ rows') run s =
      if (r.scanRows limits rows run s).1 = true then r.scanRows limits rows run s
      else r.scanRows limits rows' (r.scanRows limits rows run s).2.1
        (r.scanRows limits rows run s).2.2 := by
  induction rows generalizing run s with
  | nil => exact (if_neg Bool.false_ne_true).symm
  | cons row rows ih =>
      rw [List.cons_append, scanRows_cons, scanRows_cons]
      by_cases hfull : r.full limits run = true
      · rw [if_pos hfull, if_pos hfull]
        rfl
      · rw [if_neg hfull, if_neg hfull]
        exact ih _ _

/-- A full run examines nothing more. -/
theorem scanRows_of_full {limits : ListingLimits} {run : RunReport}
    (h : r.full limits run = true) (rows : List PushableFileInfoV2) (s : σ) :
    (r.scanRows limits rows run s).2 = (run, s) := by
  cases rows with
  | nil => rfl
  | cons row rows =>
      rw [scanRows_cons, if_pos h]

/-! ### The pages of a listing that stands still -/

/-- The chain sends no more rows than this at once. -/
def pushablePageCap : Nat := 1024

/--
The chain answers with pages of this listing, whatever happened before.  Its offsets are
32-bit numbers, and it lists every file once.
-/
structure Lists (chain : PushableFilesRpc σ) (rows : List PushableFileInfoV2) : Prop where
  page : ∀ offset limit s, chain.pushableFiles offset limit s
    = (.ok ((rows.drop offset).take (min limit pushablePageCap)), s)
  addressable : rows.length ≤ u32Max
  nodup : rows.Nodup

/-- What pages of this size show of a listing: a capped page looks like the last one. -/
def visible (limits : ListingLimits) (rows : List PushableFileInfoV2) : List PushableFileInfoV2 :=
  if limits.page ≤ pushablePageCap then rows else rows.take pushablePageCap

theorem scanPages_eq {chain : PushableFilesRpc σ} {rows : List PushableFileInfoV2}
    (hlist : Lists chain rows) {limits : ListingLimits} (hpage : limits.page ≤ pushablePageCap)
    (fuel offset : Nat) (run : RunReport) (s : σ)
    (hfuel : limits.filesPerRun ≤ fuel + run.checked.length) :
    r.scanPages chain limits fuel offset run s
      = (r.scanRows limits (rows.drop offset) run s).2 := by
  induction fuel generalizing offset run s with
  | zero =>
      have hfull : r.full limits run = true := by
        unfold full
        rw [decide_eq_true (show limits.filesPerRun ≤ run.checked.length by omega)]
        rfl
      exact (scanRows_of_full hfull _ s).symm
  | succ fuel ih =>
      have hmin : min (max limits.page 1) pushablePageCap = max limits.page 1 := by
        unfold pushablePageCap at *
        omega
      have hcut : rows.drop offset = (rows.drop offset).take (max limits.page 1)
          ++ rows.drop (offset + max limits.page 1) := by
        rw [← List.drop_drop, List.take_append_drop]
      unfold scanPages
      dsimp only
      rw [hlist.page, hmin]
      dsimp only
      rw [hcut, scanRows_append, ← hcut]
      obtain ⟨k, hle, heq, -, -⟩ :=
        r.scanRows_spec limits ((rows.drop offset).take (max limits.page 1)) run s
      rw [heq]
      by_cases hk : k < ((rows.drop offset).take (max limits.page 1)).length
      · rw [decide_eq_true hk]
        rfl
      · have hall : ((rows.drop offset).take (max limits.page 1)).take k
            = (rows.drop offset).take (max limits.page 1) :=
          List.take_of_length_le (Nat.le_of_not_lt hk)
        rw [decide_eq_false hk, hall, if_neg Bool.false_ne_true]
        dsimp only
        have hchecked := (r.examineAll_spec ((rows.drop offset).take (max limits.page 1)) run s).1
        have hlen : ((rows.drop offset).take (max limits.page 1)).length
            = min (max limits.page 1) (rows.length - offset) := by
          rw [List.length_take, List.length_drop]
        by_cases hshort : ((rows.drop offset).take (max limits.page 1)).length < max limits.page 1
        · rw [if_pos hshort]
          have hend : rows.drop (offset + max limits.page 1) = [] := by
            refine List.drop_eq_nil_of_le ?_
            omega
          rw [hend]
          rfl
        · rw [if_neg hshort]
          have haddress := hlist.addressable
          have hnext : min (offset + ((rows.drop offset).take (max limits.page 1)).length % 2 ^ 32)
              u32Max = offset + max limits.page 1 := by
            unfold u32Max pushablePageCap at *
            omega
          rw [hnext]
          refine ih _ _ _ ?_
          rw [hchecked, List.length_append]
          omega

/-- **A run examines what its pages show, from the head on, as far as its bounds reach.** -/
theorem runOnce_eq {chain : PushableFilesRpc σ} {rows : List PushableFileInfoV2}
    (hlist : Lists chain rows) (limits : ListingLimits) (s : σ) :
    r.runOnce chain limits s = (r.scanRows limits (visible limits rows) .empty s).2 := by
  unfold runOnce visible
  by_cases hpage : limits.page ≤ pushablePageCap
  · rw [if_pos hpage, scanPages_eq hlist hpage _ 0 .empty s (by omega), List.drop_zero]
  · rw [if_neg hpage]
    have hmin : min (max limits.page 1) pushablePageCap = pushablePageCap := by
      unfold pushablePageCap at *
      omega
    unfold scanPages
    dsimp only
    rw [hlist.page, hmin, List.drop_zero]
    dsimp only
    have hshort : (rows.take pushablePageCap).length < max limits.page 1 := by
      rw [List.length_take]
      omega
    generalize r.scanRows limits (rows.take pushablePageCap) .empty s = out
    obtain ⟨stopped, run, s'⟩ := out
    cases stopped with
    | true => rfl
    | false => exact if_pos hshort

/-! ### What a run comes to -/

omit [Blake3] [AssignmentScore] in
theorem full_eq_false_iff {limits : ListingLimits} {run : RunReport} :
    r.full limits run = false ↔
      run.checked.length < limits.filesPerRun ∧ run.report.attempts < r.limits.chunksPerRun := by
  unfold full
  rw [Bool.or_eq_false_iff, decide_eq_false_iff_not, decide_eq_false_iff_not, not_le, not_le]

/-- The chunks that a run attempts for these rows, if it comes to all of them. -/
def attemptsOn (r : Refetcher σ) (rows : List PushableFileInfoV2) (s : σ) : Nat :=
  (r.examineAll rows .empty s).1.report.attempts

/-- A row is examined where both bounds leave room for it. -/
theorem runOnce_spec {chain : PushableFilesRpc σ} {rows : List PushableFileInfoV2}
    (hlist : Lists chain rows) (limits : ListingLimits) (s : σ) :
    ∃ k, k ≤ (visible limits rows).length ∧
      (r.runOnce chain limits s).1 = (r.examineAll ((visible limits rows).take k) .empty s).1 ∧
      ∀ j < (visible limits rows).length, (j < k ↔ j < limits.filesPerRun ∧
        r.attemptsOn ((visible limits rows).take j) s < r.limits.chunksPerRun) := by
  obtain ⟨k, hle, heq, hbefore, hstop⟩ := r.scanRows_spec limits (visible limits rows) .empty s
  refine ⟨k, hle, ?_, fun j hj => ?_⟩
  · rw [runOnce_eq hlist, heq]
  · have hchecked : ∀ i ≤ (visible limits rows).length,
        (r.examineAll ((visible limits rows).take i) .empty s).1.checked.length = i := by
      intro i hi
      rw [(r.examineAll_spec _ _ _).1, List.length_append, List.length_take]
      show 0 + min i (visible limits rows).length = i
      omega
    constructor
    · intro hlt
      have hroom := full_eq_false_iff.mp (hbefore j hlt)
      rw [hchecked j hj.le] at hroom
      exact hroom
    · rintro ⟨hfiles, hchunks⟩
      by_contra hnot
      have hkj : k ≤ j := Nat.le_of_not_lt hnot
      have hroom : r.full limits (r.examineAll ((visible limits rows).take k) .empty s).1
          = false := by
        refine full_eq_false_iff.mpr ⟨?_, ?_⟩
        · rw [hchecked k hle]
          omega
        · exact (attempts_prefix_le (List.take_prefix_take_left hkj) _ s).trans_lt hchunks
      rw [hstop (by omega)] at hroom
      cases hroom

/-- The files of the listing fit into one run, and its pages show them all. -/
def Within (limits : ListingLimits) (rows : List PushableFileInfoV2) : Prop :=
  rows.length ≤ limits.filesPerRun ∧
    (limits.page ≤ pushablePageCap ∨ rows.length ≤ pushablePageCap)

omit [Blake3] [AssignmentScore] in
theorem Within.visible {limits : ListingLimits} {rows : List PushableFileInfoV2}
    (h : Within limits rows) : visible limits rows = rows := by
  unfold Refetcher.visible
  split
  · rfl
  · rename_i hpage
    exact List.take_of_length_le (h.2.resolve_left hpage)

/-- Then a run that has an attempt left before the last row examines them all. -/
theorem checked_eq_of_within {chain : PushableFilesRpc σ} {rows : List PushableFileInfoV2}
    (hlist : Lists chain rows) {limits : ListingLimits} (hwithin : Within limits rows)
    (hne : rows ≠ []) {s : σ} (hroom : r.attemptsOn rows.dropLast s < r.limits.chunksPerRun) :
    (r.runOnce chain limits s).1.checked = rows := by
  obtain ⟨k, hle, heq, hiff⟩ := runOnce_spec (r := r) hlist limits s
  rw [hwithin.visible] at hle heq hiff
  have hpos := List.length_pos_iff.mpr hne
  have hlast : rows.length - 1 < k := by
    refine (hiff _ (by omega)).mpr ⟨?_, ?_⟩
    · have hfiles := hwithin.1
      omega
    · rwa [← List.dropLast_eq_take]
  have hall : k = rows.length := by omega
  rw [heq, hall, List.take_length, (r.examineAll_spec _ _ _).1]
  rfl

/-- A run that examines the last row of all has room for it. -/
theorem within_of_last_checked {chain : PushableFilesRpc σ} {rows : List PushableFileInfoV2}
    (hlist : Lists chain rows) {limits : ListingLimits} (hne : rows ≠ []) {s : σ}
    (hmem : rows.getLast hne ∈ (r.runOnce chain limits s).1.checked) :
    Within limits rows ∧ r.attemptsOn rows.dropLast s < r.limits.chunksPerRun := by
  obtain ⟨k, -, heq, hiff⟩ := runOnce_spec (r := r) hlist limits s
  rw [heq, (r.examineAll_spec _ _ _).1] at hmem
  have hmem : rows.getLast hne ∈ (visible limits rows).take k := by
    simpa [RunReport.empty] using hmem
  have hpos := List.length_pos_iff.mpr hne
  have hshown : visible limits rows = rows ∧
      (limits.page ≤ pushablePageCap ∨ rows.length ≤ pushablePageCap) := by
    unfold visible at hmem ⊢
    split at hmem
    · rename_i hpage
      rw [if_pos hpage]
      exact ⟨rfl, Or.inl hpage⟩
    · rename_i hpage
      have hcap := Lists.length_le_of_getLast_mem hlist.nodup hne (List.mem_of_mem_take hmem)
      rw [if_neg hpage]
      exact ⟨List.take_of_length_le hcap, Or.inr hcap⟩
  rw [hshown.1] at hmem hiff
  have hk := Lists.length_le_of_getLast_mem hlist.nodup hne hmem
  obtain ⟨hfiles, hchunks⟩ := (hiff (rows.length - 1) (by omega)).mp (by omega)
  rw [← List.dropLast_eq_take] at hchunks
  exact ⟨⟨by omega, hshown.2⟩, hchunks⟩

/-- Without a chunk attempted, one attempt allowed is enough. -/
theorem attemptsOn_of_idle {chain : PushableFilesRpc σ} {rows : List PushableFileInfoV2}
    (hlist : Lists chain rows) {limits : ListingLimits} (hwithin : Within limits rows) {s : σ}
    (hidle : (r.runOnce chain limits s).1.report.attempts = 0)
    (hchunks : 1 ≤ r.limits.chunksPerRun) :
    r.attemptsOn rows.dropLast s < r.limits.chunksPerRun := by
  obtain ⟨k, hle, heq, hiff⟩ := runOnce_spec (r := r) hlist limits s
  rw [hwithin.visible] at hle heq hiff
  rw [heq] at hidle
  have hidle : r.attemptsOn (rows.take k) s = 0 := hidle
  by_cases hk : k < rows.length
  · have hroom := (hiff k hk).mpr ⟨by have hfiles := hwithin.1; omega, by omega⟩
    omega
  · rw [List.take_of_length_le (Nat.le_of_not_lt hk)] at hidle
    have hless := attempts_prefix_le (r := r) (List.dropLast_prefix rows) .empty s
    unfold attemptsOn at hidle ⊢
    omega

/-- `ceil(N / files_per_run)`. -/
def runsFor (limits : ListingLimits) (rows : List PushableFileInfoV2) : Nat :=
  (rows.length + limits.filesPerRun - 1) / limits.filesPerRun

/--
**Many runs examine every file exactly when one run may.**  The runs may start in any
states: what the files' chunks are and who serves them may change between two runs.
Without a chunk attempted, `ceil(N / files_per_run)` runs examine every file if and only
if the listing fits into one run; with chunks, if and only if it does and some run does
not spend its attempts on the rows before the last one.
-/
theorem runs_examine_all_iff (r : Refetcher σ) {chain : PushableFilesRpc σ}
    {rows : List PushableFileInfoV2} (hlist : Lists chain rows) {limits : ListingLimits}
    (hfiles : 1 ≤ limits.filesPerRun) (states : Nat → σ) :
    ((∀ n < runsFor limits rows, (r.runOnce chain limits (states n)).1.report.attempts = 0) →
      ((∀ row ∈ rows, ∃ n < runsFor limits rows,
          row ∈ (r.runOnce chain limits (states n)).1.checked) ↔
        rows = [] ∨ Within limits rows ∧ 1 ≤ r.limits.chunksPerRun)) ∧
    ((∀ row ∈ rows, ∃ n, row ∈ (r.runOnce chain limits (states n)).1.checked) ↔
      rows = [] ∨ Within limits rows ∧
        ∃ n, r.attemptsOn rows.dropLast (states n) < r.limits.chunksPerRun) := by
  have hruns : rows ≠ [] → 0 < runsFor limits rows := by
    intro hne
    have hpos := List.length_pos_iff.mpr hne
    exact Nat.div_pos (by omega) hfiles
  refine ⟨fun hidle => ⟨fun h => ?_, ?_⟩, fun h => ?_, ?_⟩
  · by_cases hne : rows = []
    · exact Or.inl hne
    · obtain ⟨n, -, hmem⟩ := h _ (List.getLast_mem hne)
      obtain ⟨hwithin, hroom⟩ := within_of_last_checked hlist hne hmem
      exact Or.inr ⟨hwithin, by omega⟩
  · rintro (rfl | ⟨hwithin, hchunks⟩) row hrow
    · cases hrow
    · have hpos := hruns (List.ne_nil_of_mem hrow)
      have hroom := attemptsOn_of_idle hlist hwithin (hidle 0 hpos) hchunks
      refine ⟨0, hpos, ?_⟩
      rw [checked_eq_of_within hlist hwithin (List.ne_nil_of_mem hrow) hroom]
      exact hrow
  · by_cases hne : rows = []
    · exact Or.inl hne
    · obtain ⟨n, hmem⟩ := h _ (List.getLast_mem hne)
      obtain ⟨hwithin, hroom⟩ := within_of_last_checked hlist hne hmem
      exact Or.inr ⟨hwithin, n, hroom⟩
  · rintro (rfl | ⟨hwithin, n, hroom⟩) row hrow
    · cases hrow
    · refine ⟨n, ?_⟩
      rw [checked_eq_of_within hlist hwithin (List.ne_nil_of_mem hrow) hroom]
      exact hrow

end Refetcher

/-! #### Two files, one row a run

The chain knows no epochs of either file, so no chunk is ever attempted, and every run
examines the first file and stops. -/

/-- The rows of two files. -/
def pairOfFiles : List PushableFileInfoV2 :=
  [⟨List.replicate 64 '0', 1, 1, 0⟩, ⟨List.replicate 64 '1', 1, 1, 0⟩]

def twoFilesListing : PushableFilesRpc Unit where
  pushableFiles offset limit s :=
    (.ok ((pairOfFiles.drop offset).take (min limit Refetcher.pushablePageCap)), s)

theorem twoFilesListing_lists : Refetcher.Lists twoFilesListing pairOfFiles :=
  ⟨fun _ _ _ => rfl, by decide, by decide⟩

/-- An archive whose chain queries fail and whose peers are silent. -/
def silentRefetcher : Refetcher Unit where
  world :=
    { fetchFileShape := fun _ s => (.error [], s)
      fetchCoverage := fun _ s => (.error [], s)
      fetchSnapshot := fun _ s => (.error [], s)
      pullManifest := fun _ _ s => (.error [], s)
      pullChunk := fun _ _ _ s => (.error [], s)
      heldFor := fun _ s => (∅, s)
      localManifest := fun _ s => (none, s)
      acceptManifest := fun _ _ _ s => (.error [], s)
      acceptChunk := fun _ _ _ _ _ s => (some [], s)
      attestRefetched := fun _ s => ((), s) }
  me := 5
  replicationFactor := 3
  limits := { chunksPerRun := 1024, sourcesPerChunk := 3 }

/-- Such an archive attempts no chunk, whatever the rows are. -/
theorem silent_attempts [Blake3] [AssignmentScore] (rows : List PushableFileInfoV2)
    (run : RunReport) : (silentRefetcher.examineAll rows run ()).1.report.attempts
      = run.report.attempts := by
  induction rows generalizing run with
  | nil => rfl
  | cons row rows ih =>
      refine (ih _).trans ?_
      cases decodeRootHex row.merkleRoot with
      | none => rfl
      | some root => rfl

theorem silent_run_attempts [Blake3] [AssignmentScore] (limits : ListingLimits) (s : Unit) :
    (silentRefetcher.runOnce twoFilesListing limits s).1.report.attempts = 0 := by
  obtain ⟨k, -, heq, -⟩ := Refetcher.runOnce_spec (r := silentRefetcher) twoFilesListing_lists limits s
  rw [heq]
  exact silent_attempts _ _

/-- Two rows a run examine both files. -/
theorem one_run_examines_two_files :
    letI := Blake3.reference
    letI := AssignmentScore.flat
    1 ≤ (⟨2, 256⟩ : ListingLimits).filesPerRun ∧
    ∀ row ∈ pairOfFiles, ∃ n < Refetcher.runsFor ⟨2, 256⟩ pairOfFiles,
      row ∈ (silentRefetcher.runOnce twoFilesListing ⟨2, 256⟩ ((fun _ => ()) n)).1.checked := by
  let _ := Blake3.reference
  let _ := AssignmentScore.flat
  have hfiles : 1 ≤ (⟨2, 256⟩ : ListingLimits).filesPerRun := Nat.le_succ 1
  refine ⟨hfiles, ?_⟩
  refine ((silentRefetcher.runs_examine_all_iff twoFilesListing_lists hfiles fun _ => ()).1
    fun _ _ => silent_run_attempts _ _).mpr (Or.inr ⟨?_, by decide⟩)
  exact ⟨Nat.le_refl 2, Or.inl (by decide)⟩

/-- One row a run never comes to the second file, in as many runs as there are files or more. -/
theorem second_file_is_never_examined :
    letI := Blake3.reference
    letI := AssignmentScore.flat
    (∀ n < Refetcher.runsFor ⟨1, 256⟩ pairOfFiles,
      (silentRefetcher.runOnce twoFilesListing ⟨1, 256⟩ ((fun _ => ()) n)).1.report.attempts = 0) ∧
    ¬ ∀ row ∈ pairOfFiles, ∃ n : Nat,
      row ∈ (silentRefetcher.runOnce twoFilesListing ⟨1, 256⟩ ((fun _ => ()) n)).1.checked := by
  let _ := Blake3.reference
  let _ := AssignmentScore.flat
  refine ⟨fun _ _ => silent_run_attempts _ _, fun h => ?_⟩
  have hne : pairOfFiles ≠ [] := by decide
  obtain ⟨n, hmem⟩ := h _ (List.getLast_mem hne)
  obtain ⟨⟨hfiles, -⟩, -⟩ := Refetcher.within_of_last_checked twoFilesListing_lists hne hmem
  exact absurd hfiles (by decide)

end Snip
