/-
How often the watcher attests a file's epoch, and when it starts to.

A check gets through when every read succeeds and the file is not abandoned; only then is
anything written down.  What is written down of a file is its newest epoch, how many runs
were started for it, and whether one of them finished.  With epochs that never go back,
that is enough to count the runs of every epoch.
-/
import Snip.Node.EpochWatcher
import Snip.Lib.Maps

namespace Snip

namespace EpochWatcher

/-! ### One check -/

/-- The check read the file's epoch, with every read succeeding, and the file is not abandoned. -/
def Through (answers : RootAnswers) (result : Except String Unit) (epoch : Nat) : Prop :=
  result = .ok () ∧ ∃ coverage shape, answers.coverage = .ok (some coverage) ∧
    coverage.resolvedLatestEpoch ≠ none ∧ answers.shape = .ok shape ∧
    shape.lifecycle.isAbandoned = false ∧ epochFromCoverage coverage shape.assignmentHeight = .ok epoch

/-- The latest epoch as the coverage row reports it. -/
def reported (answers : RootAnswers) : Option Nat :=
  match answers.coverage with
  | .ok (some coverage) => coverage.resolvedLatestEpoch
  | _ => none

theorem reported_of_through {answers : RootAnswers} {result : Except String Unit} {epoch : Nat}
    (h : Through answers result epoch) : reported answers = some epoch := by
  obtain ⟨-, coverage, shape, hcoverage, hlatest, -, -, hepoch⟩ := h
  unfold reported
  rw [hcoverage]
  unfold epochFromCoverage at hepoch
  cases hresolved : coverage.resolvedLatestEpoch with
  | none => exact absurd hresolved hlatest
  | some latest =>
      rw [hresolved] at hepoch
      dsimp only at hepoch
      split at hepoch
      · cases hepoch
      · obtain rfl := Except.ok.inj hepoch
        exact hresolved

theorem Through.unique {answers : RootAnswers} {result : Except String Unit} {e e' : Nat}
    (h : Through answers result e) (h' : Through answers result e') : e = e' :=
  Option.some.inj ((reported_of_through h).symm.trans (reported_of_through h'))

/-- What is known of the epoch before the check. -/
def before (w : EpochWatcher) (root : Hash) (epoch : Nat) : EpochState :=
  ((w.state.lookup root).filter fun st => st.epoch = epoch).getD ⟨epoch, false, 0⟩

theorem before_epoch (w : EpochWatcher) (root : Hash) (epoch : Nat) :
    (w.before root epoch).epoch = epoch := by
  unfold before
  cases hfilter : (w.state.lookup root).filter fun st => st.epoch = epoch with
  | none => rfl
  | some st => simpa using (Option.filter_eq_some_iff.mp hfilter).2

theorem before_of_new {w : EpochWatcher} {root : Hash} (h : w.state.lookup root = none) (epoch : Nat) :
    w.before root epoch = ⟨epoch, false, 0⟩ := by
  unfold before
  rw [h]
  rfl

section

variable [AssignmentScore]

/-- The chain already counts as many chunks of this archive as it would attest. -/
def Enough (w : EpochWatcher) (root : Hash) (answers : RootAnswers) (epoch : Nat) : Prop :=
  ∃ coverage shape snapshot, answers.coverage = .ok (some coverage) ∧ answers.shape = .ok shape ∧
    answers.snapshot = .ok snapshot ∧
    w.wantedCount root shape snapshot answers.held ≤ w.attestedCount coverage epoch

/-- What a check that gets through may do. -/
inductive Handled (w : EpochWatcher) (root : Hash) (answers : RootAnswers) (epoch : Nat) :
    Map Hash EpochState → Option (Nat × Option AttestSummary) → Prop where
  /-- A run of this epoch has finished, or enough were started. -/
  | kept (h : (w.before root epoch).done = true ∨ maxAttemptsPerEpoch ≤ (w.before root epoch).attempts)
      (hseen : ∃ st, w.state.lookup root = some st ∧ st.epoch = epoch) :
      Handled w root answers epoch w.state none
  /-- Nothing of the file is held by then. -/
  | emptied (hempty : answers.held = ∅)
      (hattempts : (w.before root epoch).attempts < maxAttemptsPerEpoch) :
      Handled w root answers epoch
        (w.state.insert root ⟨epoch, true, (w.before root epoch).attempts⟩) none
  /-- The file is new here and nothing is left to attest. -/
  | settled (hnew : w.state.lookup root = none) (henough : w.Enough root answers epoch) :
      Handled w root answers epoch (w.state.insert root ⟨epoch, true, 0⟩) none
  | attested (hdone : (w.before root epoch).done = false)
      (hattempts : (w.before root epoch).attempts < maxAttemptsPerEpoch) :
      Handled w root answers epoch
        (w.state.insert root ⟨epoch, finishedFully answers.summary, (w.before root epoch).attempts + 1⟩)
        (some (epoch, answers.summary))

theorem attestEpoch_handled {w : EpochWatcher} {root : Hash} {answers : RootAnswers} {epoch : Nat}
    {report : TickReport} (hdone : (w.before root epoch).done = false)
    (hattempts : (w.before root epoch).attempts < maxAttemptsPerEpoch) :
    (w.attestEpoch root epoch (w.before root epoch) answers report).result = .ok () ∧
      Handled w root answers epoch
        (w.attestEpoch root epoch (w.before root epoch) answers report).watcher.state
        (w.attestEpoch root epoch (w.before root epoch) answers report).started := by
  have hhandled := @Handled.attested _ w root answers epoch hdone hattempts
  have hepoch := w.before_epoch root epoch
  unfold attestEpoch
  dsimp only
  by_cases hfully : finishedFully answers.summary = true
  · rw [hfully] at hhandled
    rw [if_pos hfully]
    refine ⟨rfl, ?_⟩
    dsimp only
    rw [hepoch]
    exact hhandled
  · rw [Bool.not_eq_true] at hfully
    rw [hfully] at hhandled
    rw [if_neg (by rw [Bool.not_eq_true]; exact hfully)]
    refine ⟨rfl, ?_⟩
    dsimp only
    rw [hepoch, hdone]
    exact hhandled

/-- Once the epoch is known: an error that changes nothing, or one of the four. -/
theorem checkEpoch_cases (w : EpochWatcher) (root : Hash) {answers : RootAnswers}
    {coverage : AssignmentCoverageV2} {shape : StorageFileInfoV2} (epoch : Nat) (report : TickReport)
    (hcoverage : answers.coverage = .ok (some coverage)) (hshape : answers.shape = .ok shape) :
    let o := w.checkEpoch root coverage shape epoch answers report
    (o.result ≠ .ok () ∧ o.watcher.state = w.state ∧ o.started = none) ∨
      (o.result = .ok () ∧ Handled w root answers epoch o.watcher.state o.started) := by
  dsimp only
  unfold checkEpoch
  dsimp only
  have hbefore : (((w.state.lookup root).filter fun st => st.epoch = epoch).map EpochState.done).getD false
      = (w.before root epoch).done := by
    unfold before
    cases (w.state.lookup root).filter fun st => st.epoch = epoch with
    | none => rfl
    | some st => rfl
  rw [hbefore]
  change (_ ∨ _)
  have hst : ((w.state.lookup root).filter fun st => st.epoch = epoch).getD ⟨epoch, false, 0⟩
      = w.before root epoch := rfl
  rw [hst]
  -- the state of this epoch is in the map unless it is the one of a new epoch
  have hseen : (w.before root epoch).done = true ∨ maxAttemptsPerEpoch ≤ (w.before root epoch).attempts →
      ∃ st, w.state.lookup root = some st ∧ st.epoch = epoch := by
    intro hkept
    unfold before at hkept
    cases hfilter : (w.state.lookup root).filter fun st => st.epoch = epoch with
    | none =>
        rw [hfilter] at hkept
        simp [maxAttemptsPerEpoch] at hkept
    | some st =>
        obtain ⟨hlook, hep⟩ := Option.filter_eq_some_iff.mp hfilter
        exact ⟨st, hlook, by simpa using hep⟩
  by_cases hdone : (w.before root epoch).done = true
  · rw [if_pos hdone]
    exact .inr ⟨rfl, .kept (.inl hdone) (hseen (.inl hdone))⟩
  rw [if_neg hdone]
  by_cases hattempts : maxAttemptsPerEpoch ≤ (w.before root epoch).attempts
  · rw [if_pos hattempts]
    exact .inr ⟨rfl, .kept (.inr hattempts) (hseen (.inr hattempts))⟩
  rw [if_neg hattempts]
  by_cases hheld : answers.held = ∅
  · rw [if_pos hheld]
    dsimp only
    rw [before_epoch]
    exact .inr ⟨rfl, .emptied hheld (Nat.lt_of_not_le hattempts)⟩
  rw [if_neg hheld]
  have hattested := @attestEpoch_handled _ w root answers epoch report
    (Bool.not_eq_true _ ▸ hdone) (Nat.lt_of_not_le hattempts)
  cases hlook : w.state.lookup root with
  | some st =>
      simp only [Option.isNone_some, Bool.false_eq_true, if_false]
      exact .inr hattested
  | none =>
      simp only [Option.isNone_none, if_true]
      unfold alreadyAttested
      dsimp only
      cases hsnapshot : answers.snapshot with
      | error e =>
          dsimp only
          exact .inl ⟨(fun h => nomatch h), rfl, rfl⟩
      | ok snapshot =>
          dsimp only
          by_cases henough : w.wantedCount root shape snapshot answers.held ≤ w.attestedCount coverage epoch
          · have hbool : (decide (w.wantedCount root shape snapshot answers.held = 0) ||
                decide (w.wantedCount root shape snapshot answers.held ≤ w.attestedCount coverage epoch))
                  = true := by simp [henough]
            rw [hbool]
            dsimp only
            rw [before_of_new hlook]
            exact .inr ⟨rfl, .settled hlook ⟨coverage, shape, snapshot, hcoverage, hshape, hsnapshot, henough⟩⟩
          · have hbool : (decide (w.wantedCount root shape snapshot answers.held = 0) ||
                decide (w.wantedCount root shape snapshot answers.held ≤ w.attestedCount coverage epoch))
                  = false := by
              have hne : w.wantedCount root shape snapshot answers.held ≠ 0 := by omega
              simp [henough, hne]
            rw [hbool]
            exact .inr hattested

/-- What a check keeps of the watcher. -/
structure SameArchive (w w' : EpochWatcher) : Prop where
  myAddr : w'.myAddr = w.myAddr
  myAddrBase58 : w'.myAddrBase58 = w.myAddrBase58
  params : w'.params = w.params

theorem checkEpoch_same (w : EpochWatcher) (root : Hash) (coverage : AssignmentCoverageV2)
    (shape : StorageFileInfoV2) (epoch : Nat) (answers : RootAnswers) (report : TickReport) :
    SameArchive w (w.checkEpoch root coverage shape epoch answers report).watcher := by
  unfold checkEpoch
  dsimp only
  split
  · exact ⟨rfl, rfl, rfl⟩
  split
  · exact ⟨rfl, rfl, rfl⟩
  split
  · exact ⟨rfl, rfl, rfl⟩
  · exact ⟨rfl, rfl, rfl⟩
  · unfold attestEpoch
    dsimp only
    split
    · exact ⟨rfl, rfl, rfl⟩
    · exact ⟨rfl, rfl, rfl⟩

theorem check_same (w : EpochWatcher) (root : Hash) (answers : RootAnswers) (report : TickReport) :
    SameArchive w (w.check root answers report).watcher := by
  unfold check
  split
  · exact ⟨rfl, rfl, rfl⟩
  · exact ⟨rfl, rfl, rfl⟩
  · dsimp only
    split
    · exact ⟨rfl, rfl, rfl⟩
    split
    · exact ⟨rfl, rfl, rfl⟩
    · split
      · exact ⟨rfl, rfl, rfl⟩
      split
      · exact ⟨rfl, rfl, rfl⟩
      · exact checkEpoch_same w root _ _ _ answers _

/-- **A check that does not get through changes no file's state and starts nothing;** one that
does handles the epoch. -/
theorem check_cases (w : EpochWatcher) (root : Hash) (answers : RootAnswers) (report : TickReport) :
    let o := w.check root answers report
    ((∀ e, ¬ Through answers o.result e) ∧ o.watcher.state = w.state ∧ o.started = none) ∨
      ∃ e, Through answers o.result e ∧ Handled w root answers e o.watcher.state o.started := by
  dsimp only
  unfold check
  cases hcoverage : answers.coverage with
  | error e =>
      refine .inl ⟨?_, rfl, rfl⟩
      rintro e' ⟨hresult, -⟩
      cases hresult
  | ok row =>
      cases row with
      | none =>
          refine .inl ⟨?_, rfl, rfl⟩
          rintro e' ⟨-, coverage, shape, hrow, -⟩
          rw [hcoverage] at hrow
          cases hrow
      | some coverage =>
          dsimp only
          by_cases hlatest : coverage.resolvedLatestEpoch = none
          · rw [if_pos hlatest]
            refine .inl ⟨?_, rfl, rfl⟩
            rintro e' ⟨-, coverage', shape, hrow, hlatest', -⟩
            rw [hcoverage] at hrow
            cases hrow
            exact hlatest' hlatest
          rw [if_neg hlatest]
          cases hshape : answers.shape with
          | error e =>
              refine .inl ⟨?_, rfl, rfl⟩
              rintro e' ⟨hresult, -⟩
              cases hresult
          | ok shape =>
              dsimp only
              by_cases habandoned : shape.lifecycle.isAbandoned = true
              · rw [if_pos habandoned]
                refine .inl ⟨?_, rfl, rfl⟩
                rintro e' ⟨-, coverage', shape', -, -, hshape', hlive, -⟩
                rw [hshape] at hshape'
                cases hshape'
                rw [habandoned] at hlive
                cases hlive
              rw [if_neg habandoned]
              cases hepoch : epochFromCoverage coverage shape.assignmentHeight with
              | error e =>
                  refine .inl ⟨?_, rfl, rfl⟩
                  rintro e' ⟨hresult, -⟩
                  cases hresult
              | ok epoch =>
                  dsimp only
                  rcases checkEpoch_cases w root epoch { report with checked := report.checked + 1 }
                    hcoverage hshape with ⟨hfailed, hstate, hstarted⟩ | ⟨hok, hhandled⟩
                  · refine .inl ⟨?_, hstate, hstarted⟩
                    rintro e' ⟨hresult, -⟩
                    exact hfailed hresult
                  · exact .inr ⟨epoch, ⟨hok, coverage, shape, hcoverage, hlatest, hshape,
                      Bool.not_eq_true _ ▸ habandoned, hepoch⟩, hhandled⟩

end

/-! ### Histories -/

namespace Visit

def Through (v : Visit) (epoch : Nat) : Prop := EpochWatcher.Through v.answers v.result epoch

/-- The visit started a run for this file and epoch. -/
def StartedFor (v : Visit) (root : Hash) (epoch : Nat) : Prop :=
  v.root = root ∧ v.started.map Prod.fst = some epoch

instance (v : Visit) (root : Hash) (epoch : Nat) : Decidable (v.StartedFor root epoch) :=
  inferInstanceAs (Decidable (_ ∧ _))

/-- That run attested all there was. -/
def FinishedFor (v : Visit) (root : Hash) (epoch : Nat) : Prop :=
  v.root = root ∧ ∃ summary, v.started = some (epoch, summary) ∧ finishedFully summary = true

theorem FinishedFor.started {v : Visit} {root : Hash} {epoch : Nat} (h : v.FinishedFor root epoch) :
    v.StartedFor root epoch := by
  obtain ⟨hroot, summary, hstarted, -⟩ := h
  refine ⟨hroot, ?_⟩
  rw [hstarted]
  rfl

end Visit

/-- The runs started for a file and an epoch. -/
def runsFor (history : List Visit) (root : Hash) (epoch : Nat) : Nat :=
  history.countP fun v => v.StartedFor root epoch

/-- What is reported as a file's latest epoch never goes back. -/
def NeverDecreases (history : List Visit) : Prop :=
  history.Pairwise fun u v => u.root = v.root →
    ∀ e e', reported u.answers = some e → reported v.answers = some e' → e ≤ e'

/-- The visit starts a run for the epoch, unless the file is new here and needs none. -/
def StartsUnlessEnough [AssignmentScore] (w : EpochWatcher) (past : List Visit) (v : Visit) (e : Nat) :
    Prop :=
  v.StartedFor v.root e ∨
    ((∀ u ∈ past, u.root = v.root → ∀ e', ¬ u.Through e') ∧ w.Enough v.root v.answers e)

/-- An epoch that the visit is the first to read is attested. -/
def StartsNew [AssignmentScore] (w : EpochWatcher) (past : List Visit) (v : Visit) : Prop :=
  ∀ e, v.Through e → v.answers.held.Nonempty → (∀ u ∈ past, u.root = v.root → ¬ u.Through e) →
    StartsUnlessEnough w past v e

theorem not_startedFor {v : Visit} (h : v.started = none) (root : Hash) (epoch : Nat) :
    ¬ v.StartedFor root epoch := by
  rintro ⟨-, hfst⟩
  rw [h] at hfst
  cases hfst

theorem runsFor_append (history : List Visit) (v : Visit) (root : Hash) (epoch : Nat) :
    runsFor (history ++ [v]) root epoch
      = runsFor history root epoch + if v.StartedFor root epoch then 1 else 0 := by
  unfold runsFor
  rw [List.countP_append, List.countP_singleton]
  simp

/-- No run without a visit that started it. -/
theorem runsFor_eq_zero {history : List Visit} {root : Hash} {epoch : Nat}
    (h : ∀ v ∈ history, ¬ v.StartedFor root epoch) : runsFor history root epoch = 0 := by
  unfold runsFor
  rw [List.countP_eq_zero]
  intro v hv
  simpa using h v hv

/-- A later visit reads no earlier epoch. -/
theorem NeverDecreases.le {history : List Visit} {u v : Visit} (h : NeverDecreases (history ++ [v]))
    (hu : u ∈ history) (hroot : u.root = v.root) {e e' : Nat} (hue : u.Through e) (hve : v.Through e') :
    e ≤ e' := by
  obtain ⟨-, -, hlast⟩ := List.pairwise_append.mp h
  exact hlast u hu v (List.mem_singleton.mpr rfl) hroot e e' (reported_of_through hue)
    (reported_of_through hve)

theorem NeverDecreases.of_prefix {history later : List Visit} (h : NeverDecreases later)
    (hinit : history <+: later) : NeverDecreases history :=
  List.Pairwise.sublist hinit.sublist h

/-- What the watcher knows of the visits so far, and what is true of them. -/
structure Inv [AssignmentScore] (w₀ : EpochWatcher) (history : List Visit) (w : EpochWatcher) :
    Prop where
  same : SameArchive w₀ w
  /-- A run belongs to a visit that got through. -/
  through : ∀ v ∈ history, ∀ root e, v.StartedFor root e → v.Through e
  new : ∀ root, w.state.lookup root = none → ∀ v ∈ history, v.root = root → ∀ e, ¬ v.Through e
  seen : ∀ root st, w.state.lookup root = some st → ∃ v ∈ history, v.root = root ∧ v.Through st.epoch
  newest : ∀ root st, w.state.lookup root = some st →
    ∀ v ∈ history, v.root = root → ∀ e, v.Through e → e ≤ st.epoch
  counted : ∀ root st, w.state.lookup root = some st → runsFor history root st.epoch = st.attempts
  unfinished : ∀ root st, w.state.lookup root = some st → st.done = false →
    ∀ v ∈ history, ¬ v.FinishedFor root st.epoch
  atMost : ∀ root e, runsFor history root e ≤ maxAttemptsPerEpoch
  stops : history.Pairwise fun u v => ∀ root e, u.FinishedFor root e → ¬ v.StartedFor root e
  starts : ∀ past v rest, history = past ++ v :: rest → StartsNew w₀ past v

theorem stops_append {history : List Visit} {v : Visit}
    (h : history.Pairwise fun u v => ∀ root e, u.FinishedFor root e → ¬ v.StartedFor root e)
    (hv : ∀ u ∈ history, ∀ root e, u.FinishedFor root e → ¬ v.StartedFor root e) :
    (history ++ [v]).Pairwise fun u v => ∀ root e, u.FinishedFor root e → ¬ v.StartedFor root e := by
  refine List.pairwise_append.mpr ⟨h, List.pairwise_singleton _ _, ?_⟩
  intro u hu v' hv'
  rw [List.mem_singleton.mp hv']
  exact hv u hu

section

variable [AssignmentScore] {w₀ w : EpochWatcher} {history : List Visit}

theorem Inv.fresh (myAddr : Addr) (myAddrBase58 : Str) (params : V2Params) :
    Inv (EpochWatcher.new myAddr myAddrBase58 params) [] (EpochWatcher.new myAddr myAddrBase58 params) where
  same := ⟨rfl, rfl, rfl⟩
  through _ hv := nomatch hv
  new _ _ _ hv := nomatch hv
  seen _ _ h := nomatch h
  newest _ _ h := nomatch h
  counted _ _ h := nomatch h
  unfinished _ _ h := nomatch h
  atMost _ _ := Nat.zero_le _
  stops := .nil
  starts past v rest h := by
    cases past with
    | nil => cases h
    | cons u past => cases h

theorem Enough.same (hsame : SameArchive w₀ w) {root : Hash} {answers : RootAnswers} {epoch : Nat}
    (h : w.Enough root answers epoch) : w₀.Enough root answers epoch := by
  obtain ⟨coverage, shape, snapshot, hcoverage, hshape, hsnapshot, hle⟩ := h
  refine ⟨coverage, shape, snapshot, hcoverage, hshape, hsnapshot, ?_⟩
  unfold wantedCount attestedCount at hle ⊢
  rw [hsame.params, hsame.myAddr, hsame.myAddrBase58] at hle
  exact hle

/-- What holds of every visit and what came before it, with one visit more. -/
theorem starts_append {v : Visit} (h : ∀ past u rest, history = past ++ u :: rest → StartsNew w₀ past u)
    (hv : StartsNew w₀ history v) :
    ∀ past u rest, history ++ [v] = past ++ u :: rest → StartsNew w₀ past u := by
  intro past u rest heq
  rcases List.eq_nil_or_concat rest with rfl | ⟨rest', last, rfl⟩
  · obtain ⟨rfl, hlast⟩ := List.append_inj' heq rfl
    cases hlast
    exact hv
  · rw [List.concat_eq_append, ← List.cons_append, ← List.append_assoc] at heq
    obtain ⟨rfl, -⟩ := List.append_inj' heq rfl
    exact h past u rest' rfl

/-- A visit that starts nothing and leaves the states as they are. -/
theorem Inv.idle (h : Inv w₀ history w) {w' : EpochWatcher} {v : Visit} (hsame : SameArchive w w')
    (hstate : w'.state = w.state) (hstarted : v.started = none)
    (hold : ∀ e, v.Through e → ∃ st, w.state.lookup v.root = some st ∧ st.epoch = e) :
    Inv w₀ (history ++ [v]) w' := by
  have hnot := not_startedFor hstarted
  have hruns : ∀ root e, runsFor (history ++ [v]) root e = runsFor history root e := by
    intro root e
    rw [runsFor_append, if_neg (hnot root e), Nat.add_zero]
  refine ⟨⟨hsame.myAddr.trans h.same.myAddr, hsame.myAddrBase58.trans h.same.myAddrBase58,
    hsame.params.trans h.same.params⟩, ?_, ?_, ?_, ?_, ?_, ?_, ?_, ?_, ?_⟩
  · intro u hu root e hstart
    rcases List.mem_append.mp hu with hu | hu
    · exact h.through u hu root e hstart
    · rw [List.mem_singleton.mp hu] at hstart
      exact absurd hstart (hnot root e)
  · intro root hnone u hu hroot e hthrough
    rw [hstate] at hnone
    rcases List.mem_append.mp hu with hu | hu
    · exact h.new root hnone u hu hroot e hthrough
    · rw [List.mem_singleton.mp hu] at hroot hthrough
      obtain ⟨st, hlook, -⟩ := hold e hthrough
      rw [hroot, hnone] at hlook
      cases hlook
  · intro root st hlook
    rw [hstate] at hlook
    obtain ⟨u, hu, hroot, hthrough⟩ := h.seen root st hlook
    exact ⟨u, List.mem_append_left _ hu, hroot, hthrough⟩
  · intro root st hlook u hu hroot e hthrough
    rw [hstate] at hlook
    rcases List.mem_append.mp hu with hu | hu
    · exact h.newest root st hlook u hu hroot e hthrough
    · rw [List.mem_singleton.mp hu] at hroot hthrough
      obtain ⟨st', hlook', hepoch⟩ := hold e hthrough
      rw [hroot, hlook] at hlook'
      cases hlook'
      rw [hepoch]
  · intro root st hlook
    rw [hstate] at hlook
    rw [hruns]
    exact h.counted root st hlook
  · intro root st hlook hdone u hu hfinished
    rw [hstate] at hlook
    rcases List.mem_append.mp hu with hu | hu
    · exact h.unfinished root st hlook hdone u hu hfinished
    · rw [List.mem_singleton.mp hu] at hfinished
      exact hnot _ _ hfinished.started
  · intro root e
    rw [hruns]
    exact h.atMost root e
  · exact stops_append h.stops fun u _ root e _ => hnot root e
  · refine starts_append h.starts ?_
    intro e hthrough _ hfirst
    obtain ⟨st, hlook, hepoch⟩ := hold e hthrough
    obtain ⟨u, hu, hroot, hseen⟩ := h.seen _ st hlook
    rw [hepoch] at hseen
    exact absurd hseen (hfirst u hu hroot)

/-- What is known of an epoch before a visit that reads it. -/
theorem Inv.before_spec (h : Inv w₀ history w) {v : Visit} (hmono : NeverDecreases (history ++ [v]))
    {e : Nat} (hthrough : v.Through e) :
    runsFor history v.root e = (w.before v.root e).attempts ∧
      ((w.before v.root e).done = false → ∀ u ∈ history, ¬ u.FinishedFor v.root e) := by
  have hfresh : (∀ u ∈ history, u.root = v.root → ¬ u.Through e) →
      runsFor history v.root e = 0 ∧ ∀ u ∈ history, ¬ u.FinishedFor v.root e := by
    intro hnone
    refine ⟨runsFor_eq_zero ?_, ?_⟩
    · intro u hu hstart
      exact hnone u hu hstart.1 (h.through u hu _ _ hstart)
    · intro u hu hfinished
      exact hnone u hu hfinished.1 (h.through u hu _ _ hfinished.started)
  unfold before
  cases hlook : w.state.lookup v.root with
  | none =>
      obtain ⟨hzero, hnone⟩ := hfresh fun u hu hroot => h.new _ hlook u hu hroot e
      exact ⟨hzero, fun _ => hnone⟩
  | some st =>
      by_cases hepoch : st.epoch = e
      · rw [Option.filter_some, if_pos (decide_eq_true hepoch)]
        subst hepoch
        exact ⟨h.counted _ st hlook, h.unfinished _ st hlook⟩
      · rw [Option.filter_some, if_neg (by simpa using hepoch)]
        obtain ⟨u, hu, hroot, hseen⟩ := h.seen _ st hlook
        have hle := hmono.le hu hroot hseen hthrough
        obtain ⟨hzero, hnone⟩ := hfresh fun u hu hroot hthrough' => by
          have hnewest := h.newest _ st hlook u hu hroot e hthrough'
          omega
        exact ⟨hzero, fun _ => hnone⟩

/-- A visit that gets through and writes the file's state. -/
theorem Inv.written (h : Inv w₀ history w) {w' : EpochWatcher} {v : Visit} {st : EpochState}
    (hmono : NeverDecreases (history ++ [v])) (hsame : SameArchive w w')
    (hstate : w'.state = w.state.insert v.root st) (hthrough : v.Through st.epoch)
    (honly : ∀ root e, v.StartedFor root e → root = v.root ∧ e = st.epoch)
    (hcount : runsFor (history ++ [v]) v.root st.epoch = st.attempts)
    (hmax : st.attempts ≤ maxAttemptsPerEpoch)
    (hunfinished : st.done = false → ∀ u ∈ history ++ [v], ¬ u.FinishedFor v.root st.epoch)
    (hstops : ∀ u ∈ history, u.FinishedFor v.root st.epoch → ¬ v.StartedFor v.root st.epoch)
    (hstarts : StartsNew w₀ history v) : Inv w₀ (history ++ [v]) w' := by
  have hlookup : ∀ root st', w'.state.lookup root = some st' →
      (root = v.root ∧ st' = st) ∨ (root ≠ v.root ∧ w.state.lookup root = some st') := by
    intro root st' hlook
    rw [hstate] at hlook
    rcases Maps.lookup_insert_some.mp hlook with ⟨hroot, heq⟩ | hother
    · exact .inl ⟨hroot, heq.symm⟩
    · exact .inr hother
  have hother : ∀ root e, root ≠ v.root → ¬ v.StartedFor root e := by
    intro root e hne hstart
    exact hne (honly root e hstart).1
  have hruns : ∀ root e, root ≠ v.root ∨ e ≠ st.epoch →
      runsFor (history ++ [v]) root e = runsFor history root e := by
    intro root e hne
    rw [runsFor_append, if_neg, Nat.add_zero]
    intro hstart
    obtain ⟨hroot, hepoch⟩ := honly root e hstart
    rcases hne with hne | hne
    · exact hne hroot
    · exact hne hepoch
  refine ⟨⟨hsame.myAddr.trans h.same.myAddr, hsame.myAddrBase58.trans h.same.myAddrBase58,
    hsame.params.trans h.same.params⟩, ?_, ?_, ?_, ?_, ?_, ?_, ?_, ?_, ?_⟩
  · intro u hu root e hstart
    rcases List.mem_append.mp hu with hu | hu
    · exact h.through u hu root e hstart
    · rw [List.mem_singleton.mp hu] at hstart ⊢
      rw [(honly root e hstart).2]
      exact hthrough
  · intro root hnone u hu hroot e he
    rw [hstate, Maps.lookup_insert] at hnone
    split at hnone
    · cases hnone
    · rename_i hne
      rcases List.mem_append.mp hu with hu | hu
      · exact h.new root hnone u hu hroot e he
      · rw [List.mem_singleton.mp hu] at hroot
        exact hne hroot.symm
  · intro root st' hlook
    rcases hlookup root st' hlook with ⟨rfl, rfl⟩ | ⟨-, hold⟩
    · exact ⟨v, by simp, rfl, hthrough⟩
    · obtain ⟨u, hu, hroot, hseen⟩ := h.seen root st' hold
      exact ⟨u, List.mem_append_left _ hu, hroot, hseen⟩
  · intro root st' hlook u hu hroot e he
    rcases hlookup root st' hlook with ⟨rfl, rfl⟩ | ⟨hne, hold⟩
    · rcases List.mem_append.mp hu with hu | hu
      · exact hmono.le hu hroot he hthrough
      · rw [List.mem_singleton.mp hu] at he
        exact Nat.le_of_eq (he.unique hthrough)
    · rcases List.mem_append.mp hu with hu | hu
      · exact h.newest root st' hold u hu hroot e he
      · rw [List.mem_singleton.mp hu] at hroot
        exact absurd hroot.symm hne
  · intro root st' hlook
    rcases hlookup root st' hlook with ⟨rfl, rfl⟩ | ⟨hne, hold⟩
    · exact hcount
    · rw [hruns root _ (.inl hne)]
      exact h.counted root st' hold
  · intro root st' hlook hdone u hu hfinished
    rcases hlookup root st' hlook with ⟨rfl, rfl⟩ | ⟨hne, hold⟩
    · exact hunfinished hdone u hu hfinished
    · rcases List.mem_append.mp hu with hu | hu
      · exact h.unfinished root st' hold hdone u hu hfinished
      · rw [List.mem_singleton.mp hu] at hfinished
        exact hother _ _ hne hfinished.started
  · intro root e
    by_cases hthis : root = v.root ∧ e = st.epoch
    · rw [hthis.1, hthis.2, hcount]
      exact hmax
    · rw [hruns root e (by tauto)]
      exact h.atMost root e
  · refine stops_append h.stops ?_
    intro u hu root e hfinished hstart
    obtain ⟨rfl, rfl⟩ := honly root e hstart
    exact hstops u hu hfinished hstart
  · exact starts_append h.starts hstarts

/-- **One check more.** -/
theorem Inv.check (h : Inv w₀ history w) (root : Hash) (answers : RootAnswers) (report : TickReport)
    (hmono : NeverDecreases (history ++ [⟨root, answers, (w.check root answers report).result,
      (w.check root answers report).started⟩])) :
    Inv w₀ (history ++ [⟨root, answers, (w.check root answers report).result,
      (w.check root answers report).started⟩]) (w.check root answers report).watcher := by
  have hsame := check_same w root answers report
  have hcases := check_cases w root answers report
  dsimp only at hcases
  generalize w.check root answers report = o at hmono hsame hcases ⊢
  rcases hcases with ⟨hnot, hstate, hstarted⟩ | ⟨e, hthrough, hhandled⟩
  · exact h.idle hsame hstate hstarted fun e he => absurd he (hnot e)
  · generalize hv : (⟨root, answers, o.result, o.started⟩ : Visit) = v at hmono ⊢
    have hroot : v.root = root := by rw [← hv]
    have hve : v.Through e := by
      rw [← hv]
      exact hthrough
    obtain ⟨hruns, hbefore⟩ := h.before_spec hmono hve
    rw [hroot] at hruns hbefore
    have hvstarted : v.started = o.started := by rw [← hv]
    generalize hst : o.watcher.state = state at hhandled
    generalize hos : o.started = started at hhandled hvstarted
    cases hhandled with
    | kept hdone hseen =>
        obtain ⟨st, hlook, hepoch⟩ := hseen
        refine h.idle hsame hst hvstarted ?_
        intro e' he'
        rw [hroot]
        exact ⟨st, hlook, hepoch.trans (hve.unique he')⟩
    | emptied hempty hattempts =>
        have hnone := not_startedFor hvstarted
        refine @Inv.written _ _ _ _ h _ _ ⟨e, true, (w.before root e).attempts⟩ hmono hsame
          (by rw [hst, hroot]) hve ?_ ?_ (Nat.le_of_lt hattempts) (fun hdone => nomatch hdone)
          (fun _ _ _ => hnone _ _) ?_
        · intro root' e' hstart
          exact absurd hstart (hnone root' e')
        · rw [runsFor_append, if_neg (hnone _ _), hroot, hruns]
          rfl
        · intro e' _ hheld _
          rw [← hv, hempty] at hheld
          exact absurd hheld Finset.not_nonempty_empty
    | settled hnew henough =>
        have hnone := not_startedFor hvstarted
        refine @Inv.written _ _ _ _ h _ _ ⟨e, true, 0⟩ hmono hsame (by rw [hst, hroot]) hve ?_ ?_ (Nat.zero_le _)
          (fun hdone => nomatch hdone) (fun _ _ _ => hnone _ _) ?_
        · intro root' e' hstart
          exact absurd hstart (hnone root' e')
        · rw [runsFor_append, if_neg (hnone _ _), hroot, hruns, before_of_new hnew]
        · intro e' he' _ _
          obtain rfl := hve.unique he'
          refine .inr ⟨?_, ?_⟩
          · intro u hu hur e''
            exact h.new root hnew u hu (hur.trans hroot) e''
          · rw [← hv]
            exact Enough.same h.same henough
    | attested hdone hattempts =>
        have hthis : v.StartedFor v.root e := by
          refine ⟨rfl, ?_⟩
          rw [hvstarted]
          rfl
        refine @Inv.written _ _ _ _ h _ _
          ⟨e, finishedFully answers.summary, (w.before root e).attempts + 1⟩ hmono hsame (by rw [hst, hroot]) hve ?_ ?_ hattempts ?_ ?_ ?_
        · rintro root' e' ⟨hroot', hfst⟩
          rw [hvstarted] at hfst
          exact ⟨hroot'.symm, (Option.some.inj hfst).symm⟩
        · rw [runsFor_append, if_pos hthis, hroot, hruns]
        · intro hfully u hu hfinished
          rcases List.mem_append.mp hu with hu | hu
          · rw [hroot] at hfinished
            exact hbefore hdone u hu hfinished
          · rw [List.mem_singleton.mp hu] at hfinished
            obtain ⟨-, summary, hsummary, hdone'⟩ := hfinished
            rw [hvstarted] at hsummary
            cases hsummary
            have hnotFully : finishedFully answers.summary = false := hfully
            rw [hnotFully] at hdone'
            cases hdone'
        · intro u hu hfinished
          rw [hroot] at hfinished
          exact absurd hfinished (hbefore hdone u hu)
        · intro e' he' _ _
          obtain rfl := hve.unique he'
          exact .inl hthis

/-! ### Ticks -/

theorem visits_prefix_visitRoot (t : TickState) (held : Hash × RootAnswers) :
    t.visits <+: (visitRoot t held).visits := by
  unfold visitRoot
  split
  · exact List.prefix_rfl
  · exact List.prefix_append _ _

theorem visits_prefix_foldl (heldRoots : List (Hash × RootAnswers)) :
    ∀ t : TickState, t.visits <+: (heldRoots.foldl visitRoot t).visits := by
  induction heldRoots with
  | nil =>
      intro t
      exact List.prefix_rfl
  | cons held heldRoots ih =>
      intro t
      exact (visits_prefix_visitRoot t held).trans (ih (visitRoot t held))

/-- The step of a tick. -/
theorem Inv.visitRoot {past : List Visit} {t : TickState} (h : Inv w₀ (past ++ t.visits) t.watcher)
    (held : Hash × RootAnswers) (hmono : NeverDecreases (past ++ (EpochWatcher.visitRoot t held).visits)) :
    Inv w₀ (past ++ (EpochWatcher.visitRoot t held).visits) (EpochWatcher.visitRoot t held).watcher := by
  unfold EpochWatcher.visitRoot at hmono ⊢
  by_cases hskip : held.1 ∈ t.watcher.notV2
  · rw [if_pos hskip]
    exact h
  · rw [if_neg hskip] at hmono ⊢
    dsimp only at hmono ⊢
    rw [← List.append_assoc] at hmono ⊢
    exact h.check held.1 held.2 t.report hmono

theorem Inv.foldl {past : List Visit} (heldRoots : List (Hash × RootAnswers)) :
    ∀ t : TickState, Inv w₀ (past ++ t.visits) t.watcher →
      NeverDecreases (past ++ (heldRoots.foldl EpochWatcher.visitRoot t).visits) →
      Inv w₀ (past ++ (heldRoots.foldl EpochWatcher.visitRoot t).visits)
        (heldRoots.foldl EpochWatcher.visitRoot t).watcher := by
  induction heldRoots with
  | nil =>
      intro t h _
      exact h
  | cons held heldRoots ih =>
      intro t h hmono
      refine ih (EpochWatcher.visitRoot t held) ?_ hmono
      refine h.visitRoot held (hmono.of_prefix ?_)
      exact (List.prefix_append_right_inj past).mpr (visits_prefix_foldl heldRoots _)

/-- **Tick after tick.** -/
theorem Inv.ticks (heldRoots : List (List (Hash × RootAnswers))) :
    ∀ (past : List Visit) (w : EpochWatcher), Inv w₀ past w →
      NeverDecreases (past ++ (w.ticks heldRoots).2) →
      Inv w₀ (past ++ (w.ticks heldRoots).2) (w.ticks heldRoots).1 := by
  induction heldRoots with
  | nil =>
      intro past w h _
      show Inv w₀ (past ++ []) w
      rw [List.append_nil]
      exact h
  | cons now rest ih =>
      intro past w h hmono
      change NeverDecreases (past ++ ((w.tick now).visits ++ ((w.tick now).watcher.ticks rest).2)) at hmono
      show Inv w₀ (past ++ ((w.tick now).visits ++ ((w.tick now).watcher.ticks rest).2))
        ((w.tick now).watcher.ticks rest).1
      rw [← List.append_assoc] at hmono ⊢
      refine ih _ _ ?_ hmono
      have hstart : Inv w₀ (past ++ (⟨w, ⟨0, [], []⟩, []⟩ : TickState).visits)
          (⟨w, ⟨0, [], []⟩, []⟩ : TickState).watcher := by
        rw [List.append_nil]
        exact h
      exact Inv.foldl now _ hstart (hmono.of_prefix (List.prefix_append _ _))

end

/--
**The watcher starts a run for every new epoch, none after one has finished, and at most
three for each,** whatever it is answered, as long as no file's latest epoch goes back.  A
tracker that lists only what it holds never shows a file without chunks; then a visit is the
first to read an epoch when it is the first to read it with chunks at hand.
-/
theorem watcher_attests_each_epoch [AssignmentScore] (myAddr : Addr) (myAddrBase58 : Str)
    (params : V2Params) (heldRoots : List (List (Hash × RootAnswers)))
    (hmono : NeverDecreases ((EpochWatcher.new myAddr myAddrBase58 params).ticks heldRoots).2) :
    (∀ root e, runsFor ((EpochWatcher.new myAddr myAddrBase58 params).ticks heldRoots).2 root e
      ≤ maxAttemptsPerEpoch) ∧
    (((EpochWatcher.new myAddr myAddrBase58 params).ticks heldRoots).2.Pairwise fun u v =>
      ∀ root e, u.FinishedFor root e → ¬ v.StartedFor root e) ∧
    (∀ past v rest, ((EpochWatcher.new myAddr myAddrBase58 params).ticks heldRoots).2
        = past ++ v :: rest →
      StartsNew (EpochWatcher.new myAddr myAddrBase58 params) past v) ∧
    (∀ past v rest, ((EpochWatcher.new myAddr myAddrBase58 params).ticks heldRoots).2
        = past ++ v :: rest →
      (∀ u ∈ past, u.answers.held.Nonempty) → ∀ e, v.Through e → v.answers.held.Nonempty →
      (∀ u ∈ past, u.root = v.root → ¬ (u.Through e ∧ u.answers.held.Nonempty)) →
      StartsUnlessEnough (EpochWatcher.new myAddr myAddrBase58 params) past v e) := by
  have hinv := (Inv.ticks heldRoots [] _ (Inv.fresh myAddr myAddrBase58 params)) hmono
  refine ⟨hinv.atMost, hinv.stops, hinv.starts, ?_⟩
  intro past v rest hhistory hheld e hthrough hhere hfirst
  refine hinv.starts past v rest hhistory e hthrough hhere ?_
  intro u hu hroot hu'
  exact hfirst u hu hroot ⟨hu', hheld u hu⟩

/-! ### A file whose epoch changes -/

/-- A coverage row with these epochs. -/
def epochRow (epochs : List Nat) (latest : Nat) : AssignmentCoverageV2 :=
  ⟨1, 1, false, 0, 0, [], [], epochs, latest, false, []⟩

/-- The answers about an active file of one chunk at these epochs; no archive is in the snapshot. -/
def activeAt (epochs : List Nat) (latest : Nat) (summary : Option AttestSummary) : RootAnswers :=
  ⟨.ok (some (epochRow epochs latest)), .ok ⟨[], 1, 1, 1, 100, 0, 1⟩, .ok [], {0},
    summary⟩

/-- The file at its first epoch, and at its second one. -/
def reassignedTicks : List (List (Hash × RootAnswers)) :=
  [[(Hash.fill 5, activeAt [100] 100 none)],
    [(Hash.fill 5, activeAt [100, 200] 200 (some ⟨[], none⟩))]]

def firstSighting : Visit := ⟨Hash.fill 5, activeAt [100] 100 none, .ok (), none⟩

def secondSighting : Visit :=
  ⟨Hash.fill 5, activeAt [100, 200] 200 (some ⟨[], none⟩), .ok (), some (200, some ⟨[], none⟩)⟩

/-- **The second epoch of a file that needed nothing at its first is attested.** -/
theorem second_epoch_is_attested :
    letI : AssignmentScore := ⟨fun _ _ _ => 0⟩
    NeverDecreases ((EpochWatcher.new 1 [] ⟨3, 8⟩).ticks reassignedTicks).2 ∧
      secondSighting ∈ ((EpochWatcher.new 1 [] ⟨3, 8⟩).ticks reassignedTicks).2 ∧
      secondSighting.StartedFor (Hash.fill 5) 200 := by
  let _ : AssignmentScore := ⟨fun _ _ _ => 0⟩
  have hhistory : ((EpochWatcher.new 1 [] ⟨3, 8⟩).ticks reassignedTicks).2
      = [firstSighting, secondSighting] := by
    rfl
  have hmono : NeverDecreases ((EpochWatcher.new 1 [] ⟨3, 8⟩).ticks reassignedTicks).2 := by
    rw [hhistory]
    refine .cons ?_ (List.pairwise_singleton _ _)
    intro v hv
    rw [List.mem_singleton.mp hv]
    intro _ e e' he he'
    cases he
    cases he'
    decide
  obtain ⟨-, -, hstarts, -⟩ := watcher_attests_each_epoch 1 [] ⟨3, 8⟩ reassignedTicks hmono
  have hthrough : secondSighting.Through 200 :=
    ⟨rfl, epochRow [100, 200] 200, _, rfl, nofun, rfl, rfl, rfl⟩
  have hfirst : ∀ u ∈ [firstSighting], u.root = secondSighting.root → ¬ u.Through 200 := by
    intro u hu _ h200
    rw [List.mem_singleton.mp hu] at h200
    have hreported := reported_of_through h200
    cases hreported
  refine ⟨hmono, ?_, ?_⟩
  · rw [hhistory]
    simp
  · rcases hstarts [firstSighting] secondSighting [] hhistory 200 hthrough
      (Finset.singleton_nonempty 0) hfirst with h | ⟨hnew, -⟩
    · exact h
    · refine absurd ?_ (hnew firstSighting (by simp) rfl 100)
      exact ⟨rfl, epochRow [100] 100, _, rfl, nofun, rfl, rfl, rfl⟩

end EpochWatcher

end Snip
