/-
The chunks that a command pushes, however it ends.

`run`, `run_private` and `resume` push chunks in one stage only.  A command that ends before
it has pushed nothing, and its outcome says so.  A command that gets to it pushes every
target that it knows by then, at once, and no other chunk before it ends.
-/
import Snip.Proofs.IngestResume

namespace Snip

open Dialogue

/-- The outcome comes from behind the pushes of chunks, as far as it tells. -/
def IngestOutcome.pastPushes : IngestOutcome → Bool
  | activated .. => true
  | pendingNeedsAction file => file.underReplicatedChunks.isSome || file.failedStage = .manifestPush
  | _ => false

namespace Ingest

section

variable {σ : Type} [Blake3] [CryptoLib] [AssignmentScore]

/-- Nothing was pushed before, and then every target that is known by then. -/
def Routes (c : Ingest σ) (file : ReproducedFile) (snapshot : List Addr) (chunks : Finset Nat)
    (peers : MapPeerResolver) (log : List IngestCall) : Prop :=
  ∃ before rest, log = before ++ rest ∧ Pushless before ∧
    Pushes file (c.pushTargets file snapshot chunks (peers.heard before)) rest

/-- A command that pushes goes by the snapshot that it has read at the row's first epoch. -/
structure RoutesBy (c : Ingest σ) (file : ReproducedFile) (chunks : Finset Nat)
    (peers : MapPeerResolver) (info : RegisteredFilePage) (raw : List NodeRecordInfo)
    (log : List IngestCall) : Prop where
  read : List.Sublist [.fileInfo (fileRootHex file.manifest.merkleRoot) (.ok (some info)),
    .activeNodes info.assignmentHeight (.ok raw)] log
  routes : ∃ snapshot, decodeSnapshot raw = some snapshot ∧
    c.Routes file snapshot chunks peers log

/-- A stage that leaves before the pushes has an outcome that says so. -/
def StopsBefore (log : List IngestCall) (stop : Stop IngestOutcome) : Prop :=
  Pushless log ∧ ∀ outcome, stop = .early outcome → outcome.pastPushes = false

variable {c : Ingest σ} {file : ReproducedFile} {snapshot : List Addr} {chunks : Finset Nat}
  {peers : MapPeerResolver} {info : RegisteredFilePage} {raw : List NodeRecordInfo}
  {log past : List IngestCall}

theorem Routes.append (h : c.Routes file snapshot chunks peers log) {rest : List IngestCall}
    (hrest : Pushless rest) : c.Routes file snapshot chunks peers (log ++ rest) := by
  obtain ⟨before, pushed, rfl, hbefore, hpushes⟩ := h
  exact ⟨before, pushed ++ rest, List.append_assoc _ _ _, hbefore, hpushes.append hrest⟩

theorem Routes.after (hpast : Pushless past)
    (h : c.Routes file snapshot chunks (peers.heard past) log) :
    c.Routes file snapshot chunks peers (past ++ log) := by
  obtain ⟨before, pushed, rfl, hbefore, hpushes⟩ := h
  rw [← MapPeerResolver.heard_append] at hpushes
  exact ⟨past ++ before, pushed, (List.append_assoc _ _ _).symm, quiet_append.mpr ⟨hpast, hbefore⟩,
    hpushes⟩

theorem RoutesBy.after (hpast : Pushless past)
    (h : c.RoutesBy file chunks (peers.heard past) info raw log) :
    c.RoutesBy file chunks peers info raw (past ++ log) := by
  obtain ⟨snapshot, hdecode, hroutes⟩ := h.routes
  exact ⟨h.read.trans (List.sublist_append_right _ _), snapshot, hdecode, hroutes.after hpast⟩

omit [Blake3] [CryptoLib] [AssignmentScore] in
theorem StopsBefore.after {stop : Stop IngestOutcome} (hpast : Pushless past)
    (h : StopsBefore log stop) : StopsBefore (past ++ log) stop :=
  ⟨quiet_append.mpr ⟨hpast, h.1⟩, h.2⟩

omit [Blake3] [CryptoLib] [AssignmentScore] in
theorem StopsBefore.early {outcome : IngestOutcome} (hlog : Pushless log)
    (h : outcome.pastPushes = false) : StopsBefore log (.early outcome) := by
  refine ⟨hlog, ?_⟩
  intro outcome' houtcome
  obtain rfl := Stop.early.inj houtcome
  exact h

omit [Blake3] [CryptoLib] [AssignmentScore] in
/-- A stage without a push, in the words of its caller. -/
theorem orReturn_stopsBefore {ε α : Type} {m : Stage σ ε α} {K : List IngestCall → α → Prop}
    (hquiet : Gathers IngestCall.chunkPush? m fun _ _ => True)
    (h : Exits m K fun _ _ => True) {f : ε → IngestOutcome}
    (hf : ∀ e, (f e).pastPushes = false) :
    Exits (m.orReturn f) (fun log a => Pushless log ∧ K log a) StopsBefore := by
  refine Exits.adapt (hquiet.exits.and h) ?_ |>.mono ?_ fun _ _ h => h
  · rintro log stop ⟨hpushless, -⟩
    cases stop with
    | early e => exact StopsBefore.early hpushless (hf e)
    | waiting => exact ⟨hpushless, fun _ h => by cases h⟩
    | panicked => exact ⟨hpushless, fun _ h => by cases h⟩
  · rintro log a ⟨⟨hpushless, -⟩, hlog⟩
    exact ⟨hpushless, hlog⟩

omit [CryptoLib] [AssignmentScore] in
/-- A sound file has something to push for each of its chunks. -/
theorem sendable_of_sound (hsound : file.Sound) {key : Nat × PeerId}
    (hlt : key.1 < file.manifest.chunkCount) : ¬ Unsendable file key := by
  intro hnone
  obtain ⟨data, proof, hpush, -⟩ := hsound.proves hlt
  cases hnone.symm.trans hpush

/-! ### From S2 on -/

theorem pushUntilCovered_routes (hr : 0 < c.params.assignmentReplicationFactor)
    (hsound : file.Sound) (snapshot : List Addr) (chunks : Finset Nat)
    (probed : Option AssignmentCoverageV2) (peers : MapPeerResolver) (clock : IngestClock) :
    Exits (c.pushUntilCovered file snapshot chunks probed peers clock)
      (fun log _ => c.Routes file snapshot chunks peers log)
      fun log stop => c.Routes file snapshot chunks peers log ∨ StopsBefore log stop := by
  have hroutes : ∀ {waits rest : List IngestCall},
      c.PushesAll file snapshot chunks peers waits rest →
      c.Routes file snapshot chunks peers (waits ++ rest) :=
    fun hall => ⟨_, _, rfl, hall.hears.pushless, hall.pushes⟩
  refine Exits.mono (pushUntilCovered_spec hr snapshot chunks probed peers clock) ?_ ?_
  · rintro log cov ⟨-, waits, rest, rfl, hall, -⟩
    exact hroutes hall
  · rintro log stop ⟨-, -, ⟨rfl, hhears⟩ | ⟨waits, rest, rfl, hall⟩ | ⟨key, hlt, hnone⟩⟩
    · refine Or.inr ⟨hhears.pushless, ?_⟩
      intro outcome houtcome
      cases houtcome
    · exact Or.inl (hroutes hall)
    · exact absurd hnone (sendable_of_sound hsound hlt)

variable [Bs58] [SumchainWire] [FileLifecycleWire]

omit [AssignmentScore] in
/-- An activation that ends early comes from behind S4, and does not say so. -/
theorem activate_stopsBefore (file : ReproducedFile) (lastCoverage : AssignmentCoverageV2)
    (clock : List Nat) :
    Exits (c.activate file lastCoverage clock) (fun log _ => Pushless log) StopsBefore :=
  Exits.mono (orReturn_stopsBefore (submit_pushless _ _) (Exits.mono (submit_spec _ _)
    (fun _ _ _ => trivial) fun _ _ _ => trivial) fun _ => rfl)
    (fun _ _ (h : _ ∧ True) => h.1) fun _ _ h => h

/-- What follows the registration. -/
theorem afterRegistration_routes (hr : 0 < c.params.assignmentReplicationFactor)
    (hsound : file.Sound) (command : IngestCommand) (peers : MapPeerResolver)
    (clock : IngestClock) :
    let Routed := fun log => ∃ info raw,
      c.RoutesBy file (Finset.range file.manifest.chunkCount) peers info raw log
    Exits (c.afterRegistration command file peers clock) (fun log _ => Routed log)
      fun log stop => Routed log ∨ StopsBefore log stop := by
  intro Routed
  refine Exits.bind (orReturn_stopsBefore (fetchAssignmentInputs_pushless _)
    (fetchAssignmentInputs_spec file.manifest.merkleRoot).goesOn fun _ => rfl) (fun _ _ h => Or.inr h) ?_
  rintro read ⟨info, snapshot⟩ ⟨hread, raw, hlog, hdecode⟩
  dsimp only
  by_cases hempty : snapshot = []
  · simp only [if_pos hempty]
    exact Exits.throw (Or.inr (StopsBefore.after hread (StopsBefore.early quiet_nil rfl)))
  simp only [if_neg hempty]
  have hroutes : ∀ {log : List IngestCall},
      c.Routes file snapshot (Finset.range file.manifest.chunkCount) peers log →
      Routed (read ++ log) := by
    intro log hroutes
    have hheard : peers.heard read = peers := by rw [hlog]; rfl
    refine ⟨info, raw, ?_, snapshot, hdecode, Routes.after hread (by rw [hheard]; exact hroutes)⟩
    rw [hlog]
    exact List.sublist_append_left _ _
  refine Exits.bind (pushUntilCovered_routes hr hsound snapshot _ none peers clock) ?_ ?_
  · rintro log stop (h | hstops)
    · exact Or.inl (hroutes h)
    · exact Or.inr (hstops.after hread)
  rintro pushed cov hpushed
  have happend : ∀ {log : List IngestCall}, Pushless log → Routed (read ++ (pushed ++ log)) :=
    fun hquiet => hroutes (hpushed.append hquiet)
  exact Exits.mono (activate_stopsBefore file cov clock.activation)
    (fun _ _ h => happend h) fun _ _ h => Or.inl (happend h.1)

/-- A command that registers a file pushes by the row that it reads afterwards, or not at all. -/
theorem registerAndActivate_routes (hr : 0 < c.params.assignmentReplicationFactor)
    (command : IngestCommand) (r : Registration) (hsound : r.file.Sound) (peers : MapPeerResolver)
    (clock : IngestClock) :
    let Routed := fun log => ∃ info raw,
      c.RoutesBy r.file (Finset.range r.file.manifest.chunkCount) peers info raw log
    Exits (c.registerAndActivate command r peers clock) (fun log _ => Routed log)
      fun log stop => Routed log ∨ StopsBefore log stop := by
  intro Routed
  refine Exits.bind (orReturn_stopsBefore (s1aRequireArchives_pushless _ _ _ _)
    (s1aRequireArchives_spec r.file.manifest.merkleRoot r.file.manifest.chunkCount peers
      clock.discovery).goesOn fun _ => rfl) (fun _ _ h => Or.inr h) ?_
  rintro waited peers' ⟨hwaited, -, -, -, -, -, -, -, -, rfl⟩
  refine Exits.bind (orReturn_stopsBefore (submit_pushless _ _)
    (Exits.mono (submit_spec (c.registers r) clock.registration) (fun _ _ h => h)
      fun _ _ _ => trivial) fun _ => rfl) (fun _ _ h => Or.inr (h.after hwaited)) ?_
  rintro registration ⟨registerTxHash, registerHeight⟩ ⟨hquiet, nonce, hregistered⟩
  have hbefore := quiet_append.mpr ⟨hwaited, hquiet⟩
  have hroutes : ∀ {log : List IngestCall}, (∃ info raw, c.RoutesBy r.file
      (Finset.range r.file.manifest.chunkCount) (peers.heard waited) info raw log) →
      Routed (waited ++ (registration ++ log)) := by
    rintro log ⟨info, raw, h⟩
    -- nothing is heard while the transaction is sent and polled
    rw [← MapPeerResolver.heard_of_wakeless hregistered.wakeless] at h
    rw [← List.append_assoc]
    exact ⟨info, raw, h.after hbefore⟩
  refine Exits.bind (afterRegistration_routes hr hsound command (peers.heard waited) clock) ?_ ?_
  · rintro log stop (h | hstops)
    · exact Or.inl (hroutes h)
    · rw [← List.append_assoc]
      exact Or.inr (hstops.after hbefore)
  rintro log ⟨activateTxHash, activateHeight⟩ h
  refine Exits.pure ?_
  rw [List.append_nil]
  exact hroutes h

omit [Blake3] [AssignmentScore] [Bs58] [SumchainWire] [FileLifecycleWire] in
theorem preflight_stopsBefore (command : IngestCommand) :
    Exits (c.preflight command)
      (fun log _ => 0 < c.params.assignmentReplicationFactor ∧
        ∃ height, log = [.blockHeight (.ok height)]) StopsBefore := by
  unfold preflight
  by_cases hr : c.params.assignmentReplicationFactor = 0
  · simp only [if_pos hr]
    exact Exits.throw (StopsBefore.early quiet_nil rfl)
  simp only [if_neg hr]
  refine Exits.bind (orReturn_stopsBefore checkV2Enabled_pushless
    checkV2Enabled_spec.goesOn fun _ => rfl) (fun _ _ h => h) ?_
  rintro log height ⟨-, rfl, -⟩
  exact Exits.pure ⟨Nat.pos_of_ne_zero hr, height, rfl⟩

/-- How a command that registers what was made of a file is over, by its log. -/
def IngestRoutes (c : Ingest σ) (made : Except IngestOutcome Registration)
    (peers : MapPeerResolver) (log : List IngestCall) : Prop :=
  ∃ r info raw, made = .ok r ∧
    c.RoutesBy r.file (Finset.range r.file.manifest.chunkCount) peers info raw log

theorem ingestStage_routes {made : Except IngestOutcome Registration}
    (hsound : ∀ r, made = .ok r → r.file.Sound)
    (hmade : ∀ outcome, made = .error outcome → outcome.registrationTx = some .notSent)
    (command : IngestCommand) (peers : MapPeerResolver) (clock : IngestClock) :
    Exits (c.ingestStage command made peers clock)
      (fun log outcome => c.IngestRoutes made peers log ∨
        Pushless log ∧ outcome.pastPushes = false)
      fun log stop => c.IngestRoutes made peers log ∨ StopsBefore log stop := by
  refine Exits.bind (preflight_stopsBefore command) (fun _ _ h => Or.inr h) ?_
  rintro checked _ ⟨hr, height, rfl⟩
  have hchecked : Pushless [IngestCall.blockHeight (.ok height)] :=
    quiet_cons.mpr ⟨rfl, quiet_nil⟩
  cases made with
  | error outcome =>
      refine Exits.bind (E := fun log stop => log = [] ∧ stop = .early outcome)
        (K := fun _ _ => False) (Exits.orStop ⟨rfl, rfl⟩) ?_ (fun _ _ h => h.elim)
      rintro log stop ⟨rfl, rfl⟩
      refine Or.inr (StopsBefore.after hchecked (StopsBefore.early quiet_nil ?_))
      have hnot := hmade _ rfl
      cases outcome with
      | failed stage manifest source => rfl
      | _ => cases hnot
  | ok r =>
      refine Exits.bind (E := fun _ _ => False) (K := fun log r' => log = [] ∧ r' = r)
        (Exits.orStop ⟨rfl, rfl⟩) (fun _ _ h => h.elim) ?_
      rintro log r' ⟨rfl, rfl⟩
      refine Exits.mono (registerAndActivate_routes hr command r' (hsound r' rfl) peers clock) ?_ ?_
      · rintro log outcome ⟨info, raw, h⟩
        exact Or.inl ⟨r', info, raw, rfl, RoutesBy.after hchecked h⟩
      · rintro log stop (⟨info, raw, h⟩ | hstops)
        · exact Or.inl ⟨r', info, raw, rfl, RoutesBy.after hchecked h⟩
        · exact Or.inr (hstops.after hchecked)

/-- A command pushes as `Routed` says, or nothing, and then its outcome is not past the pushes. -/
def PushesOrStops (Routed : List IngestCall → Prop) (log : List IngestCall)
    (out : Except Pause IngestOutcome) : Prop :=
  Routed log ∨ Pushless log ∧ ∀ outcome, out = .ok outcome → outcome.pastPushes = false

omit [Blake3] [CryptoLib] [AssignmentScore] [Bs58] [SumchainWire] [FileLifecycleWire] in
theorem outcomeOf_routes {m : Stage σ IngestOutcome IngestOutcome}
    {Routed : List IngestCall → Prop}
    (h : Exits m (fun log outcome => Routed log ∨ Pushless log ∧ outcome.pastPushes = false)
      fun log stop => Routed log ∨ StopsBefore log stop) :
    Ensures (outcomeOf m) (PushesOrStops Routed) := by
  refine Ensures.mono (outcomeOf_spec h) ?_
  rintro log out (⟨outcome, rfl, hroutes | ⟨hquiet, hnot⟩⟩ | ⟨stop, rfl, hroutes | ⟨hquiet, hnot⟩⟩)
  · exact Or.inl hroutes
  · refine Or.inr ⟨hquiet, ?_⟩
    intro outcome' houtcome
    obtain rfl := Except.ok.inj houtcome
    exact hnot
  · exact Or.inl hroutes
  · refine Or.inr ⟨hquiet, ?_⟩
    intro outcome houtcome
    cases stop with
    | early outcome' =>
        obtain rfl : outcome' = outcome := Except.ok.inj houtcome
        exact hnot outcome' rfl
    | waiting => cases houtcome
    | panicked => cases houtcome

theorem run_routes (c : Ingest σ) (fileName : Str) (content : Except Str Bytes)
    (peers : MapPeerResolver) (clock : IngestClock) :
    Ensures (c.run fileName content peers clock)
      (PushesOrStops (c.IngestRoutes (c.publicRegistration fileName content) peers)) := by
  refine outcomeOf_routes (ingestStage_routes ?_ (fun _ h => publicRegistration_error h) _ _ _)
  intro r hmade
  obtain ⟨-, -, -, hsound, -⟩ := publicRegistration_ok hmade
  exact hsound

theorem runPrivately_routes (c : Ingest σ) (kFile : Hash) (ephSeeds : Nat → Hash) (fileName : Str)
    (content : Except Str Bytes) (recipients : List PrivateRecipient) (peers : MapPeerResolver)
    (clock : IngestClock) :
    Ensures (c.runPrivately kFile ephSeeds fileName content recipients peers clock)
      (PushesOrStops (c.IngestRoutes
        (c.privateRegistration kFile ephSeeds fileName content recipients) peers)) := by
  refine outcomeOf_routes (ingestStage_routes ?_ (fun _ h => privateRegistration_error h) _ _ _)
  intro r hmade
  obtain ⟨-, -, -, -, -, hsound, -⟩ := privateRegistration_ok hmade
  exact hsound

/-! ### `resume` -/

/-- A resume pushes the chunks that the pages list as missing. -/
def MissingRoutes (c : Ingest σ) (file : ReproducedFile) (snapshot : List Addr)
    (peers : MapPeerResolver) (log : List IngestCall) : Prop :=
  ∃ missing pages, Listed (fileRootHex file.manifest.merkleRoot) pages missing ∧
    pages.Sublist log ∧ c.Routes file snapshot missing peers log

omit [Bs58] [SumchainWire] [FileLifecycleWire] in
theorem MissingRoutes.append (h : c.MissingRoutes file snapshot peers log) {rest : List IngestCall}
    (hrest : Pushless rest) : c.MissingRoutes file snapshot peers (log ++ rest) := by
  obtain ⟨missing, pages, hlisted, hsub, hroutes⟩ := h
  exact ⟨missing, pages, hlisted, hsub.trans (List.sublist_append_left _ _), hroutes.append hrest⟩

omit [Bs58] [SumchainWire] [FileLifecycleWire] in
theorem MissingRoutes.after (hpast : Pushless past)
    (h : c.MissingRoutes file snapshot (peers.heard past) log) :
    c.MissingRoutes file snapshot peers (past ++ log) := by
  obtain ⟨missing, pages, hlisted, hsub, hroutes⟩ := h
  exact ⟨missing, pages, hlisted, hsub.trans (List.sublist_append_right _ _), hroutes.after hpast⟩

omit [Bs58] [SumchainWire] [FileLifecycleWire] in
theorem resumeCoverage_routes (hr : 0 < c.params.assignmentReplicationFactor)
    (hsound : file.Sound) (snapshot : List Addr) (peers : MapPeerResolver) (calls : Nat)
    (clock : IngestClock) :
    Exits (c.resumeCoverage file snapshot peers calls clock)
      (fun log _ => c.MissingRoutes file snapshot peers log ∨ Pushless log)
      fun log stop => c.MissingRoutes file snapshot peers log ∨ StopsBefore log stop := by
  have hstops : ∀ {log : List IngestCall} {stage : IngestStage}
      {probed : Option AssignmentCoverageV2} {action : SuggestedAction}
      {source : Option IngestError}, stage ≠ .manifestPush → Pushless log →
      StopsBefore log (.early (leftPending file stage probed action source)) := by
    intro log stage probed action source hstage hlog
    exact StopsBefore.early hlog (decide_eq_false hstage)
  refine Exits.bind (E := fun _ _ => False) Exits.ask (fun _ _ h => h.elim) ?_
  rintro log answer rfl
  have hprobe : Pushless [IngestCall.coverage (fileRootHex file.manifest.merkleRoot) none answer] :=
    quiet_cons.mpr ⟨rfl, quiet_nil⟩
  cases answer with
  | error e => exact Exits.throw (Or.inr (hstops nofun hprobe))
  | ok row =>
  cases row with
  | none => exact Exits.throw (Or.inr (hstops nofun hprobe))
  | some probed =>
      dsimp only
      cases hprobed : probed.canActivateNow with
      | true => exact Exits.pure (Or.inr hprobe)
      | false =>
          simp only [Bool.false_eq_true, if_false]
          refine Exits.bind (orReturn_stopsBefore (collectLoop_pushless _ _ _ _)
            (collectMissingIndices_listed file.manifest.merkleRoot calls).goesOn fun _ => rfl)
            (fun _ _ h => Or.inr (h.after hprobe)) ?_
          rintro pages out ⟨hpages, hlisted⟩
          have hbefore := quiet_append.mpr ⟨hprobe, hpages⟩
          cases out with
          | none =>
              refine Exits.throw (Or.inr (hstops nofun ?_))
              rw [List.append_nil]
              exact hbefore
          | some missing =>
              have hroutes : ∀ {log : List IngestCall},
                  c.Routes file snapshot missing peers log → c.MissingRoutes file snapshot peers
                    ([.coverage (fileRootHex file.manifest.merkleRoot) none (.ok (some probed))] ++
                      (pages ++ log)) := by
                intro log hlog
                have hwakeless : ∀ wake, .wake wake ∉
                    [.coverage (fileRootHex file.manifest.merkleRoot) none (.ok (some probed))] ++
                      pages := by
                  intro wake hmem
                  rcases List.mem_cons.mp hmem with h | hmem
                  · cases h
                  · obtain ⟨_, _, h⟩ := (hlisted missing rfl).pages _ hmem
                    cases h
                have hheard : peers.heard ([] ++ _) = peers.heard [] :=
                  MapPeerResolver.heard_of_wakeless hwakeless
                rw [← List.append_assoc]
                refine ⟨missing, pages, hlisted missing rfl, ?_, Routes.after hbefore ?_⟩
                · exact (List.sublist_append_right _ _).trans (List.sublist_append_left _ _)
                · exact hheard.symm ▸ hlog
              refine Exits.mono (pushUntilCovered_routes hr hsound snapshot missing (some probed)
                peers clock) (fun _ _ h => Or.inl (hroutes h)) ?_
              rintro log stop (h | hstop)
              · exact Or.inl (hroutes h)
              · rw [← List.append_assoc]
                exact Or.inr (hstop.after hbefore)

/-- A resume goes by the row that it has read and by the pages of its coverage. -/
def ResumeRoutes (c : Ingest σ) (merkleRoot : Hash) (peers : MapPeerResolver)
    (log : List IngestCall) : Prop :=
  ∃ file missing pages info raw, file.Sound ∧ file.manifest.merkleRoot = merkleRoot ∧
    Listed (fileRootHex merkleRoot) pages missing ∧ pages.Sublist log ∧
    c.RoutesBy file missing peers info raw log

/-- A file that is rebuilt and pending. -/
theorem resumePending_routes (hr : 0 < c.params.assignmentReplicationFactor)
    (hsound : file.Sound) (height : Nat) (info : RegisteredFilePage) (peers : MapPeerResolver)
    (calls : Nat) (clock : IngestClock) :
    let Routed := fun log => c.ResumeRoutes file.manifest.merkleRoot peers
      ([.blockHeight (.ok height),
        .fileInfo (fileRootHex file.manifest.merkleRoot) (.ok (some info))] ++ log)
    Exits (c.resumePending info file peers calls clock)
      (fun log outcome => Routed log ∨ Pushless log ∧ outcome.pastPushes = false)
      fun log stop => Routed log ∨ StopsBefore log stop := by
  intro Routed
  refine Exits.bind (orReturn_stopsBefore (readSnapshot_pushless _)
    (readSnapshot_spec info.assignmentHeight).goesOn fun _ => rfl) (fun _ _ h => Or.inr h) ?_
  rintro read snapshot ⟨hread, raw, rfl, hdecode⟩
  by_cases hempty : snapshot = []
  · simp only [if_pos hempty]
    exact Exits.throw (Or.inr (StopsBefore.after hread (StopsBefore.early quiet_nil rfl)))
  simp only [if_neg hempty]
  have hroutes : ∀ {log : List IngestCall}, c.MissingRoutes file snapshot peers log →
      Routed ([.activeNodes info.assignmentHeight (.ok raw)] ++ log) := by
    intro log hlog
    have hpast : Pushless [.blockHeight (.ok height),
        .fileInfo (fileRootHex file.manifest.merkleRoot) (.ok (some info)),
        .activeNodes info.assignmentHeight (.ok raw)] :=
      quiet_cons.mpr ⟨rfl, quiet_cons.mpr ⟨rfl, hread⟩⟩
    obtain ⟨missing, pages, hlisted, hsub, hall⟩ := MissingRoutes.after hpast hlog
    exact ⟨file, missing, pages, info, raw, hsound, rfl, hlisted, hsub,
      (List.sublist_append_left _ log).trans (List.sublist_cons_self _ _), snapshot, hdecode, hall⟩
  refine Exits.bind (resumeCoverage_routes hr hsound snapshot peers calls clock) ?_ ?_
  · rintro log stop (h | hstops)
    · exact Or.inl (hroutes h)
    · exact Or.inr (hstops.after hread)
  rintro covered cov hcovered
  refine Exits.bind (activate_stopsBefore file cov clock.activation) ?_ ?_
  · rintro activation stop hstop
    rcases hcovered with h | hcovered
    · exact Or.inl (hroutes (h.append hstop.1))
    · exact Or.inr (StopsBefore.after hread (hstop.after hcovered))
  rintro activation ⟨txHash, activateHeight⟩ hquiet
  refine Exits.pure ?_
  rw [List.append_nil]
  rcases hcovered with h | hcovered
  · exact Or.inl (hroutes (h.append hquiet))
  · exact Or.inr ⟨quiet_append.mpr ⟨hread, quiet_append.mpr ⟨hcovered, hquiet⟩⟩, rfl⟩

omit [FileLifecycleWire] [AssignmentScore] in
theorem RowTells.pastPushes {merkleRoot : Hash} {fileName : Str} {content : Except Str Bytes}
    {outcome : IngestOutcome} (h : c.RowTells info merkleRoot fileName content outcome) :
    outcome.pastPushes = false := by
  cases h with
  | rootMismatch _ _ => rfl
  | active _ _ _ => rfl
  | abandoned _ _ => rfl
  | failed => rfl
  | unread => rfl

theorem resumeStage_routes (merkleRoot : Hash) (fileName : Str) (content : Except Str Bytes)
    (peers : MapPeerResolver) (calls : Nat) (clock : IngestClock) :
    Exits (c.resumeStage merkleRoot fileName content peers calls clock)
      (fun log outcome => c.ResumeRoutes merkleRoot peers log ∨
        Pushless log ∧ outcome.pastPushes = false)
      fun log stop => c.ResumeRoutes merkleRoot peers log ∨ StopsBefore log stop := by
  have hfailed : ∀ {log : List IngestCall} {source : IngestError}, Pushless log →
      StopsBefore log (.early (.failed .register none source)) :=
    fun hlog => StopsBefore.early hlog rfl
  refine Exits.bind (preflight_stopsBefore .resume) (fun _ _ h => Or.inr h) ?_
  rintro checked _ ⟨hr, height, rfl⟩
  have hchecked : ∀ answer : Except Str (Option RegisteredFilePage),
      Pushless [.blockHeight (.ok height), .fileInfo (fileRootHex merkleRoot) answer] :=
    fun _ => quiet_cons.mpr ⟨rfl, quiet_cons.mpr ⟨rfl, quiet_nil⟩⟩
  refine Exits.bind Exits.query ?_ ?_
  · rintro log stop ⟨reason, rfl, rfl⟩
    exact Or.inr (hfailed (hchecked _))
  rintro log row rfl
  cases row with
  | none => exact Exits.throw (Or.inr (hfailed (hchecked _)))
  | some info =>
  dsimp only
  cases hfile : c.resumeContent info merkleRoot fileName content with
  | error outcome =>
      refine Exits.bind (E := fun log stop => log = [] ∧ stop = .early outcome)
        (K := fun _ _ => False) (Exits.orStop ⟨rfl, rfl⟩) ?_ (fun _ _ h => h.elim)
      rintro log stop ⟨rfl, rfl⟩
      exact Or.inr (StopsBefore.early (hchecked _) (resumeContent_error hfile).pastPushes)
  | ok file =>
      refine Exits.bind (E := fun _ _ => False) (K := fun log file' => log = [] ∧ file' = file)
        (Exits.orStop ⟨rfl, rfl⟩) (fun _ _ h => h.elim) ?_
      rintro log file' ⟨rfl, rfl⟩
      obtain ⟨bytes, -, hresumed⟩ := resumeContent_ok hfile
      obtain ⟨hrebuild, -⟩ := resumeFile_ok hresumed
      obtain ⟨hsound, hroot⟩ := sound_of_resumed hrebuild
      have hroutes := resumePending_routes hr hsound height info peers calls clock
      rw [hroot] at hroutes
      have hread := hchecked (.ok (some info))
      refine Exits.mono hroutes ?_ ?_
      · rintro log outcome (h | ⟨hquiet, hnot⟩)
        · exact Or.inl h
        · have hall := quiet_append.mpr ⟨hread, hquiet⟩
          exact Or.inr ⟨hall, hnot⟩
      · rintro log stop (h | hstops)
        · exact Or.inl h
        · have hall := hstops.after hread
          exact Or.inr hall

theorem resume_routes (c : Ingest σ) (merkleRoot : Hash) (fileName : Str)
    (content : Except Str Bytes) (peers : MapPeerResolver) (calls : Nat) (clock : IngestClock) :
    Ensures (c.resume merkleRoot fileName content peers calls clock)
      (PushesOrStops (c.ResumeRoutes merkleRoot peers)) :=
  outcomeOf_routes (resumeStage_routes merkleRoot fileName content peers calls clock)

end

end Ingest

end Snip
