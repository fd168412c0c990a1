/-
The outcomes of an ingest, and what the log of the run says about them.

A run submits nothing before its checks are complete, then the registration, and the
activation only after everything in between.  Wherever it ends early, the outcome says
how far the registration and the activation got.
-/
import Snip.Proofs.IngestEvidence

namespace Snip

open Dialogue

/-! ### The fate of a transaction -/

/-- How far a transaction got, as the node tells it. -/
inductive TxFate where
  /-- The call that submits it came back with an error. -/
  | failedSend
  /-- Reported failed or dropped. -/
  | rejected
  /-- No status that settles it. -/
  | unsettled
  | finalized (height : Nat)

/-- What the last answer of a wait says. -/
def fateOf : Except String TxStatusV2 → TxFate
  | .ok (.finalized height) => .finalized height
  | .ok (.failed ..) | .ok .dropped => .rejected
  | .ok .unknown | .ok .pending | .ok (.included _) | .error _ => .unsettled

/-- The calls about one transaction. -/
inductive Traces (buildTx : Nat → Str) : List RpcCall → TxFate → Prop where
  | refused (nonce : Nat) (e : String) :
      Traces buildTx [.sendRaw (buildTx nonce) (.error e)] .failedSend
  | polled (nonce : Nat) (txHash : Str) (last : Except String TxStatusV2) {polls : List RpcCall} :
      (∀ p ∈ polls, Unsettled txHash p) →
      Traces buildTx (.sendRaw (buildTx nonce) (.ok txHash) :: (polls ++ [.txStatus txHash last]))
        (fateOf last)

/-- The calls of a log that are about transactions. -/
def submissionsOf (log : List IngestCall) : List RpcCall := log.filterMap IngestCall.submission?

theorem Polled.traces {buildTx : Nat → Str} {nonce : Nat} {txHash : Str}
    {last : Except String TxStatusV2} {log : List IngestCall}
    (h : Polled buildTx nonce txHash last log) :
    Traces buildTx (submissionsOf log) (fateOf last) := by
  obtain ⟨addrB58, polls, hpolls, rfl⟩ := h
  have hview : ∀ calls : List RpcCall,
      (calls.map IngestCall.submission).filterMap IngestCall.submission? = calls := by
    intro calls
    rw [List.filterMap_map]
    exact List.filterMap_some
  unfold submissionsOf
  rw [List.filterMap_cons_none rfl, hview]
  exact .polled nonce txHash last hpolls

/-- How far a submission got that ended with this error. -/
def SubmitError.fate? : SubmitError → Option TxFate
  | nonceQuery _ => none
  | send _ => some .failedSend
  | wait _ (.failed ..) | wait _ .dropped => some .rejected
  | wait _ (.timeout _) | wait _ (.rpc _) | wait _ .waiting => some .unsettled

/-- An error of the wait comes from the answer that it names. -/
theorem fateOf_of_settles {last : Except String TxStatusV2} (txHash : Str) {e : TxWaitError}
    (h : Settles last (.error e)) :
    SubmitError.fate? (.wait txHash e) = some (fateOf last) := by
  cases last with
  | error reason =>
      obtain rfl := Except.error.inj h
      rfl
  | ok status =>
      rcases h with h | ⟨hnone, h⟩
      · cases status with
        | finalized height => cases h
        | failed blockHeight reason =>
            obtain rfl := Except.error.inj (Option.some.inj h)
            rfl
        | dropped =>
            obtain rfl := Except.error.inj (Option.some.inj h)
            rfl
        | _ => cases h
      · have hfate : fateOf (.ok status) = .unsettled := by
          cases status with
          | unknown => rfl
          | pending => rfl
          | included height => rfl
          | _ => cases hnone
        rw [hfate]
        rcases h with h | h
        · obtain rfl := Except.error.inj h
          rfl
        · obtain rfl := Except.error.inj h
          rfl

/-- The log shows this much of one transaction, or nothing of any. -/
def Shows (buildTx : Nat → Str) (log : List IngestCall) : Option TxFate → Prop
  | none => Silent log
  | some fate => Traces buildTx (submissionsOf log) fate

/-- How far a submission got that did not see its transaction final. -/
def Stop.fate? : Stop SubmitError → Option TxFate
  | early e => e.fate?
  | waiting => some .unsettled
  | panicked => none

/-- A submission that ended early got as far as its end says. -/
theorem SubmitEnds.shows {buildTx : Nat → Str} {log : List IngestCall} {stop : Stop SubmitError}
    (h : SubmitEnds buildTx log stop) : Shows buildTx log stop.fate? := by
  cases stop with
  | early e =>
      cases e with
      | nonceQuery reason => exact h
      | send reason =>
          obtain ⟨addrB58, nonce, rfl⟩ := h
          exact .refused nonce reason
      | wait txHash e =>
          obtain ⟨nonce, last, hpolled, hsettles, -⟩ := h
          show Shows buildTx log (SubmitError.fate? (.wait txHash e))
          rw [fateOf_of_settles txHash hsettles]
          exact hpolled.traces
  | waiting =>
      obtain ⟨nonce, txHash, last, hpolled, hsettles⟩ := h
      have hfate : some TxFate.unsettled = some (fateOf last) :=
        fateOf_of_settles txHash hsettles
      show Shows buildTx log (some .unsettled)
      rw [hfate]
      exact hpolled.traces
  | panicked => exact h.elim

theorem SubmitEnds.traces {buildTx : Nat → Str} {log : List IngestCall} {stop : Stop SubmitError}
    {fate : TxFate} (h : SubmitEnds buildTx log stop) (hfate : stop.fate? = some fate) :
    Traces buildTx (submissionsOf log) fate := by
  have hshows := h.shows
  rw [hfate] at hshows
  exact hshows

/-- A submission that ended early has not seen its transaction final. -/
theorem fate?_ne_finalized (stop : Stop SubmitError) (height : Nat) :
    stop.fate? ≠ some (.finalized height) := by
  cases stop with
  | early e =>
      cases e with
      | wait txHash e => cases e <;> exact nofun
      | _ => exact nofun
  | _ => exact nofun

/-! ### The parts of a run -/

namespace Ingest

section

variable {σ : Type} [Blake3] [Bs58] [SumchainWire] [CryptoLib] [FileLifecycleWire]
  [AssignmentScore]

/-- The registration of a run. -/
def registers (c : Ingest σ) (r : Registration) : Nat → Str :=
  c.registerTx r.file r.visibility r.initialAccess

/-- Its activation. -/
def activates (c : Ingest σ) (r : Registration) : Nat → Str :=
  c.activateTx r.file.manifest.merkleRoot

/--
What a run has read before it submits anything: V2 is enabled, there are archives enough
at the height of the chain, and each of those the file needs was identified in time.
-/
def Checked (c : Ingest σ) (r : Registration) (peers : MapPeerResolver) (clock : IngestClock)
    (log : List IngestCall) : Prop :=
  0 < c.params.assignmentReplicationFactor ∧
  ∃ height enabledAt head raw snapshot peers', ∃ wakes : List (Wake × Nat),
    log = .blockHeight (.ok height) :: .blockHeight (.ok head) :: .activeNodes head (.ok raw) ::
      wakes.map (fun w => .wake w.1) ∧
    c.params.v2EnabledFromHeight = some enabledAt ∧ enabledAt ≤ height ∧
    decodeSnapshot raw = some snapshot ∧
    c.params.assignmentReplicationFactor ≤ snapshot.length ∧
    Snip.awaitArchives c.params.discoveryTimeout peers
      (requiredArchives r.file.manifest.merkleRoot snapshot
        (List.range r.file.manifest.chunkCount) c.params.assignmentReplicationFactor)
      (clock.discovery.headD 0) wakes = some (.ok (), peers')

/-- What the stages after the registration have to show: the whole file is delivered and covered. -/
def Delivered (c : Ingest σ) (r : Registration) (log : List IngestCall) : Prop :=
  ∃ info raw snapshot peers cov pushed,
    log = .fileInfo (fileRootHex r.file.manifest.merkleRoot) (.ok (some info)) ::
      .activeNodes info.assignmentHeight (.ok raw) :: pushed ∧
    decodeSnapshot raw = some snapshot ∧
    Covered c r.file snapshot (Finset.range r.file.manifest.chunkCount) peers pushed cov

/-- What an outcome may say about a registration that was submitted and did not become final. -/
def Reports (fate : TxFate) (outcome : IngestOutcome) : Prop :=
  fate = .rejected ∧ outcome.registrationTx = some .rejected ∨
    (fate = .failedSend ∨ fate = .unsettled) ∧ outcome.registrationTx = some .unconfirmed

/-- How an ingest ends short of `Activated`, or where it still waits, by its log. -/
inductive EndsEarly (c : Ingest σ) (made : Except IngestOutcome Registration)
    (peers : MapPeerResolver) (clock : IngestClock) :
    List IngestCall → Stop IngestOutcome → Prop where
  /-- Nothing was submitted. -/
  | notSent {log : List IngestCall} {stop : Stop IngestOutcome} : Silent log →
      (∀ outcome, stop = .early outcome → outcome.registrationTx = some .notSent) →
      EndsEarly c made peers clock log stop
  /-- The registration was submitted, and not seen to be final. -/
  | unregistered {checks registration : List IngestCall} {stop : Stop IngestOutcome}
      {r : Registration} {fate : TxFate} : made = .ok r → Silent checks →
      c.Checked r peers clock checks →
      Traces (c.registers r) (submissionsOf registration) fate →
      (∀ height, fate ≠ .finalized height) →
      (∀ outcome, stop = .early outcome → Reports fate outcome) →
      EndsEarly c made peers clock (checks ++ registration) stop
  /-- The registration is final, and the activation was not submitted. -/
  | undelivered {checks registration rest : List IngestCall} {stop : Stop IngestOutcome}
      {r : Registration} {height : Nat} : made = .ok r → Silent checks →
      c.Checked r peers clock checks →
      Traces (c.registers r) (submissionsOf registration) (.finalized height) → Silent rest →
      (∀ outcome, stop = .early outcome → LeavesPending r.file outcome) →
      EndsEarly c made peers clock (checks ++ (registration ++ rest)) stop
  /-- The activation was submitted, and not seen to be final. -/
  | unactivated {checks registration delivery activation : List IngestCall}
      {stop : Stop IngestOutcome} {r : Registration} {height : Nat} {fate : TxFate} :
      made = .ok r → Silent checks → c.Checked r peers clock checks →
      Traces (c.registers r) (submissionsOf registration) (.finalized height) →
      Silent delivery → c.Delivered r delivery →
      Traces (c.activates r) (submissionsOf activation) fate →
      (∀ height, fate ≠ .finalized height) →
      (∀ outcome, stop = .early outcome → LeavesPending r.file outcome) →
      EndsEarly c made peers clock (checks ++ (registration ++ (delivery ++ activation))) stop

/-- How an ingest ends `Activated`, by its log. -/
def EndsActivated (c : Ingest σ) (made : Except IngestOutcome Registration)
    (peers : MapPeerResolver) (clock : IngestClock) (log : List IngestCall)
    (outcome : IngestOutcome) : Prop :=
  ∃ r registerTxHash registerHeight activateTxHash activateHeight,
    made = .ok r ∧
    outcome = .activated r.file.manifest.merkleRoot r.file.manifest registerTxHash registerHeight
      activateTxHash activateHeight ∧
    ∃ checks registration delivery activation nonce nonce',
      log = checks ++ (registration ++ (delivery ++ activation)) ∧
      Silent checks ∧ c.Checked r peers clock checks ∧
      Polled (c.registers r) nonce registerTxHash (.ok (.finalized registerHeight)) registration ∧
      Silent delivery ∧ c.Delivered r delivery ∧
      Polled (c.activates r) nonce' activateTxHash (.ok (.finalized activateHeight)) activation

variable {c : Ingest σ}

omit [AssignmentScore] in
/-- The activation is final, or the file is left `Pending`. -/
theorem activate_spec (file : ReproducedFile) (lastCoverage : AssignmentCoverageV2)
    (clock : List Nat) :
    Exits (c.activate file lastCoverage clock)
      (fun log done => ∃ nonce, Polled (c.activateTx file.manifest.merkleRoot) nonce done.1
        (.ok (.finalized done.2)) log)
      fun log stop => (∀ outcome, stop = .early outcome → LeavesPending file outcome) ∧
        (Silent log ∨ ∃ fate,
          Traces (c.activateTx file.manifest.merkleRoot) (submissionsOf log) fate ∧
          ∀ height, fate ≠ .finalized height) := by
  refine Exits.mono (orReturn_submit (c.activateTx file.manifest.merkleRoot) clock _)
    (fun _ _ h => h) ?_
  intro log stop hlog
  obtain ⟨stop', rfl, hends⟩ := hlog
  refine ⟨?_, ?_⟩
  · intro outcome hstop
    cases stop' with
    | early e =>
        obtain rfl := Stop.early.inj hstop
        exact ⟨_, rfl, rfl⟩
    | waiting => cases hstop
    | panicked => cases hstop
  · have hnot := fate?_ne_finalized stop'
    cases hfate : stop'.fate? with
    | none =>
        have hshows := hends.shows
        rw [hfate] at hshows
        exact Or.inl hshows
    | some fate =>
        rw [hfate] at hnot
        exact Or.inr ⟨fate, hends.traces hfate, fun height heq => hnot height (congrArg some heq)⟩

/-- What follows the registration ends with a delivered and activated file, or pending. -/
theorem afterRegistration_spec (hr : 0 < c.params.assignmentReplicationFactor)
    (command : IngestCommand) (r : Registration) (peers : MapPeerResolver) (clock : IngestClock) :
    Exits (c.afterRegistration command r.file peers clock)
      (fun log done => ∃ delivery activation nonce, log = delivery ++ activation ∧
        Silent delivery ∧ c.Delivered r delivery ∧
        Polled (c.activates r) nonce done.1 (.ok (.finalized done.2)) activation)
      fun log stop => (∀ outcome, stop = .early outcome → LeavesPending r.file outcome) ∧
        (Silent log ∨ ∃ delivery activation fate, log = delivery ++ activation ∧
          Silent delivery ∧ c.Delivered r delivery ∧
          Traces (c.activates r) (submissionsOf activation) fate ∧
          ∀ height, fate ≠ .finalized height) := by
  refine Exits.bind
    (orReturn_quiet (fetchAssignmentInputs_spec r.file.manifest.merkleRoot) _) ?_ ?_
  · intro log stop hlog
    refine ⟨?_, Or.inl hlog.1⟩
    intro outcome hstop
    obtain ⟨e, rfl⟩ := hlog.2 outcome hstop
    exact ⟨_, rfl, rfl⟩
  intro log out hlog
  obtain ⟨info, snapshot⟩ := out
  obtain ⟨hquiet, raw, rfl, hdecode⟩ := hlog
  dsimp only
  by_cases hempty : snapshot = []
  · simp only [if_pos hempty]
    refine Exits.throw ⟨?_, Or.inl ?_⟩
    · intro outcome hstop
      obtain rfl := Stop.early.inj hstop
      exact ⟨_, rfl, rfl⟩
    · rw [List.append_nil]
      exact hquiet
  simp only [if_neg hempty]
  refine Exits.bind (pushUntilCovered_spec hr snapshot _ none peers clock) ?_ ?_
  · intro log stop hlog
    exact ⟨hlog.2.1, Or.inl (quiet_append.mpr ⟨hquiet, hlog.1⟩)⟩
  intro pushed cov hpushed
  obtain ⟨hquiet', waits, rest, -, -, hcovered⟩ := hpushed
  have hdelivery := quiet_append.mpr ⟨hquiet, hquiet'⟩
  have hdelivered : c.Delivered r _ :=
    ⟨info, raw, snapshot, peers.heard waits, cov, pushed, rfl, hdecode, hcovered⟩
  refine Exits.mono (activate_spec r.file cov clock.activation) ?_ ?_
  · intro log done hlog
    obtain ⟨nonce, hpolled⟩ := hlog
    exact ⟨_, log, nonce, (List.append_assoc _ _ _).symm, hdelivery, hdelivered, hpolled⟩
  · intro log stop hlog
    obtain ⟨hleaves, hlog⟩ := hlog
    refine ⟨hleaves, ?_⟩
    rw [← List.append_assoc]
    rcases hlog with hsilent | ⟨fate, htraces, hnot⟩
    · exact Or.inl (quiet_append.mpr ⟨hdelivery, hsilent⟩)
    · exact Or.inr ⟨_, log, fate, rfl, hdelivery, hdelivered, htraces, hnot⟩

/-! ### A run -/

omit [Blake3] [Bs58] [SumchainWire] [FileLifecycleWire] in
/-- No error before the registration is one of a registration that was sent. -/
theorem s1aRequireArchives_early (merkleRoot : Hash) (chunkCount : Nat) (peers : MapPeerResolver)
    (clock : List Nat) :
    Exits (c.s1aRequireArchives merkleRoot chunkCount peers clock) (fun _ _ => True)
      fun _ stop => ∀ e, stop = .early e → e.sentRegistration? = none := by
  refine Exits.bind Exits.query ?_ ?_
  · intro log stop hlog e he
    obtain ⟨reason, -, rfl⟩ := hlog
    obtain rfl := Stop.early.inj he
    rfl
  intro _ head _
  refine Exits.bind Exits.query ?_ ?_
  · intro log stop hlog e he
    obtain ⟨reason, -, rfl⟩ := hlog
    obtain rfl := Stop.early.inj he
    rfl
  intro _ raw _
  cases decodeSnapshot raw with
  | none =>
      refine Exits.throw ?_
      intro e he
      obtain rfl := Stop.early.inj he
      rfl
  | some snapshot =>
      dsimp only
      by_cases hfew : snapshot.length < c.params.assignmentReplicationFactor
      · simp only [if_pos hfew]
        refine Exits.throw ?_
        intro e he
        obtain rfl := Stop.early.inj he
        rfl
      · simp only [if_neg hfew]
        refine Exits.bind (awaitArchives_waits _ _ _) ?_ ?_
        · rintro log stop ⟨rfl, -⟩ e he
          cases he
        intro _ out _
        obtain ⟨found, peers'⟩ := out
        cases found with
        | ok _ => exact Exits.pure trivial
        | error f =>
            refine Exits.throw ?_
            intro e he
            obtain rfl := Stop.early.inj he
            rfl

omit [Blake3] [Bs58] [SumchainWire] [FileLifecycleWire] [AssignmentScore] in
/-- A command that gets past the first checks has read that V2 is enabled. -/
theorem preflight_spec (command : IngestCommand) :
    Exits (c.preflight command)
      (fun log _ => Silent log ∧ 0 < c.params.assignmentReplicationFactor ∧
        ∃ height enabledAt, log = [.blockHeight (.ok height)] ∧
          c.params.v2EnabledFromHeight = some enabledAt ∧ enabledAt ≤ height)
      fun log stop => Silent log ∧ ∀ outcome, stop = .early outcome → ∃ source,
        outcome = .failed .register none source ∧ outcome.registrationTx = some .notSent := by
  unfold preflight
  by_cases hr : c.params.assignmentReplicationFactor = 0
  · simp only [if_pos hr]
    refine Exits.throw ⟨quiet_nil, ?_⟩
    intro outcome houtcome
    obtain rfl := Stop.early.inj houtcome
    exact ⟨_, rfl, rfl⟩
  simp only [if_neg hr]
  refine Exits.bind (orReturn_quiet checkV2Enabled_spec _) ?_ ?_
  · intro log stop hlog
    refine ⟨hlog.1, ?_⟩
    intro outcome houtcome
    obtain ⟨e, rfl⟩ := hlog.2 outcome houtcome
    exact ⟨_, rfl, rfl⟩
  intro log height hlog
  obtain ⟨hquiet, rfl, enabledAt, henabled, hle⟩ := hlog
  refine Exits.pure ?_
  rw [List.append_nil]
  exact ⟨hquiet, Nat.pos_of_ne_zero hr, height, enabledAt, rfl, henabled, hle⟩

omit [Bs58] in
/-- A registration that did not become final ends the run as far as it got. -/
theorem endsEarly_of_registration {made : Except IngestOutcome Registration} {r : Registration}
    {peers : MapPeerResolver} {clock : IngestClock} {checks registration : List IngestCall}
    {stop : Stop SubmitError} (hmade : made = .ok r) (hquiet : Silent checks)
    (hchecks : c.Checked r peers clock checks)
    (hends : SubmitEnds (c.registers r) registration stop) :
    c.EndsEarly made peers clock (checks ++ registration)
      (stop.map fun e => .failed .register (some r.file.manifest) (.registration e)) := by
  cases stop with
  | panicked => exact hends.elim
  | waiting =>
      refine .unregistered hmade hquiet hchecks (hends.traces rfl) nofun ?_
      intro outcome houtcome
      cases houtcome
  | early e =>
      have hreports : ∀ {fate : TxFate},
          Reports fate (.failed .register (some r.file.manifest) (.registration e)) →
          ∀ outcome, Stop.early (.failed .register (some r.file.manifest) (.registration e))
            = .early outcome → Reports fate outcome := by
        intro fate hreports outcome houtcome
        rw [← Stop.early.inj houtcome]
        exact hreports
      cases e with
      | nonceQuery reason =>
          refine .notSent (quiet_append.mpr ⟨hquiet, hends.shows⟩) ?_
          intro outcome houtcome
          rw [← Stop.early.inj houtcome]
          rfl
      | send reason =>
          exact .unregistered hmade hquiet hchecks (hends.traces rfl) nofun
            (hreports (Or.inr ⟨Or.inl rfl, rfl⟩))
      | wait txHash e =>
          cases e with
          | failed blockHeight reason =>
              exact .unregistered hmade hquiet hchecks (hends.traces rfl) nofun
                (hreports (Or.inl ⟨rfl, rfl⟩))
          | dropped =>
              exact .unregistered hmade hquiet hchecks (hends.traces rfl) nofun
                (hreports (Or.inl ⟨rfl, rfl⟩))
          | timeout last =>
              exact .unregistered hmade hquiet hchecks (hends.traces rfl) nofun
                (hreports (Or.inr ⟨Or.inr rfl, rfl⟩))
          | rpc reason =>
              exact .unregistered hmade hquiet hchecks (hends.traces rfl) nofun
                (hreports (Or.inr ⟨Or.inr rfl, rfl⟩))
          | waiting =>
              exact .unregistered hmade hquiet hchecks (hends.traces rfl) nofun
                (hreports (Or.inr ⟨Or.inr rfl, rfl⟩))

/-- What follows the check of the chunk count. -/
theorem registerAndActivate_spec (hr : 0 < c.params.assignmentReplicationFactor)
    {checked : List IngestCall} {height enabledAt : Nat}
    (hchecked : checked = [.blockHeight (.ok height)])
    (henabled : c.params.v2EnabledFromHeight = some enabledAt) (hle : enabledAt ≤ height)
    (command : IngestCommand) (r : Registration) (peers : MapPeerResolver) (clock : IngestClock) :
    Exits (c.registerAndActivate command r peers clock)
      (fun log outcome => c.EndsActivated (.ok r) peers clock (checked ++ log) outcome)
      fun log stop => c.EndsEarly (.ok r) peers clock (checked ++ log) stop := by
  have hquiet : Silent checked := by
    rw [hchecked]
    exact quiet_cons.mpr ⟨rfl, quiet_nil⟩
  refine Exits.bind (Exits.adapt ((s1aRequireArchives_spec r.file.manifest.merkleRoot
    r.file.manifest.chunkCount peers clock.discovery).exits.and (s1aRequireArchives_early _ _ _ _))
    (F := fun log stop => c.EndsEarly (.ok r) peers clock (checked ++ log) stop) ?_)
    (fun _ _ h => h) ?_
  · intro log stop hlog
    refine .notSent (quiet_append.mpr ⟨hquiet, hlog.1⟩) ?_
    intro outcome houtcome
    cases stop with
    | waiting => cases houtcome
    | panicked => cases houtcome
    | early e =>
        obtain rfl := Stop.early.inj houtcome
        show some (e.sentRegistration?.getD .notSent) = _
        rw [hlog.2 e rfl]
        rfl
  intro log peers' hlog
  obtain ⟨⟨hquiet', head, raw, snapshot, wakes, hlog, hdecode, henough, hfound, -⟩, -⟩ := hlog
  have hquiet'' : Silent (checked ++ log) := quiet_append.mpr ⟨hquiet, hquiet'⟩
  have hchecks : c.Checked r peers clock (checked ++ log) := by
    refine ⟨hr, height, enabledAt, head, raw, snapshot, peers', wakes, ?_, henabled, hle, hdecode,
      henough, hfound⟩
    rw [hchecked, hlog]
    rfl
  refine Exits.bind (orReturn_submit (c.registers r) clock.registration _) ?_ ?_
  · intro registration stop hstop
    obtain ⟨stop', rfl, hends⟩ := hstop
    rw [← List.append_assoc]
    exact endsEarly_of_registration rfl hquiet'' hchecks hends
  intro registration done hdone
  obtain ⟨registerTxHash, registerHeight⟩ := done
  obtain ⟨nonce, hregistered⟩ := hdone
  refine Exits.bind (afterRegistration_spec hr command r peers' clock) ?_ ?_
  · intro rest stop hstop
    obtain ⟨hleaves, hrest⟩ := hstop
    rw [← List.append_assoc]
    rcases hrest with
      hsilent | ⟨delivery, activation, fate, rfl, hquiet3, hdelivered, htraces, hnot⟩
    · exact .undelivered rfl hquiet'' hchecks hregistered.traces hsilent hleaves
    · exact .unactivated rfl hquiet'' hchecks hregistered.traces hquiet3 hdelivered htraces hnot
        hleaves
  intro rest done hdone
  obtain ⟨activateTxHash, activateHeight⟩ := done
  obtain ⟨delivery, activation, nonce', rfl, hquiet3, hdelivered, hactivated⟩ := hdone
  refine Exits.pure ⟨r, registerTxHash, registerHeight, activateTxHash, activateHeight, rfl, rfl,
    checked ++ log, registration, delivery, activation, nonce, nonce', ?_, hquiet'', hchecks,
    hregistered, hquiet3, hdelivered, hactivated⟩
  simp only [List.append_assoc, List.append_nil]

/-- A run ends in one of these ways, and the log shows which. -/
theorem ingestStage_spec {made : Except IngestOutcome Registration}
    (hmade : ∀ outcome, made = .error outcome → outcome.registrationTx = some .notSent)
    (command : IngestCommand) (peers : MapPeerResolver) (clock : IngestClock) :
    Exits (c.ingestStage command made peers clock) (c.EndsActivated made peers clock)
      (c.EndsEarly made peers clock) := by
  refine Exits.bind (preflight_spec command) ?_ ?_
  · intro log stop hlog
    refine .notSent hlog.1 ?_
    intro outcome houtcome
    obtain ⟨source, -, hnot⟩ := hlog.2 outcome houtcome
    exact hnot
  intro checked _ hlog
  obtain ⟨hquiet, hr, height, enabledAt, hchecked, henabled, hle⟩ := hlog
  cases made with
  | error outcome =>
      refine Exits.bind (E := fun log stop => log = [] ∧ stop = .early outcome)
        (K := fun _ _ => False) (Exits.orStop ⟨rfl, rfl⟩) ?_ (fun _ _ h => h.elim)
      intro log stop hlog
      obtain ⟨rfl, rfl⟩ := hlog
      rw [List.append_nil]
      refine .notSent hquiet ?_
      intro outcome' houtcome'
      obtain rfl := Stop.early.inj houtcome'
      exact hmade _ rfl
  | ok r =>
      refine Exits.bind (E := fun _ _ => False) (K := fun log r' => log = [] ∧ r' = r)
        (Exits.orStop ⟨rfl, rfl⟩) (fun _ _ h => h.elim) ?_
      intro log r' hlog
      obtain ⟨rfl, rfl⟩ := hlog
      simpa only [List.nil_append] using
        registerAndActivate_spec hr hchecked henabled hle command r' peers clock

end

end Ingest

end Snip
