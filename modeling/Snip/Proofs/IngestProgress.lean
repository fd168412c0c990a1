/-
An ingest that everyone helps with ends with an active file.

The stages follow one another, and each leaves behind what the next one relies on: no
transaction before the registration, the registration before the row, chunks before the
manifest, and both before the coverage.
-/
import Snip.Proofs.IngestWaits

namespace Snip

open Dialogue

section

variable {σ : Type} [CryptoLib] [AssignmentScore] [Blake3] [Bs58] [SumchainWire]
  [FileLifecycleWire] {c : Ingest σ} {r : Registration} {peers : MapPeerResolver}
  {queue : σ → List SumNetEvent} {polls : σ → Nat} {start : σ} {clock : IngestClock}

/-! ### The command -/

/-- S2 to S4. -/
theorem Cooperates.pushUntilCovered (h : Cooperates c r peers queue polls start)
    (hsound : r.file.Sound) (hr : 0 < c.params.assignmentReplicationFactor)
    {snapshot : List Addr} {m : c.env.Moment start} (hopened : c.Opened r snapshot m.past)
    (hplace : Placeable c r.file (peers.heard m.past) snapshot (queue m.state))
    (hclock : ClocksSuffice c r.file clock (polls m.state) (toHear (queue m.state))) :
    ∃ cov m', Goes (c.pushUntilCovered r.file snapshot (Finset.range r.file.manifest.chunkCount)
        none (peers.heard m.past) clock) m cov m' ∧ c.Distributed r m'.past ∧
      Ingest.Coverable r m'.past ∧ polls m'.state ≤ polls m.state := by
  obtain ⟨resolver, m₁, hpush, hpushed, hpolls₁, htoHear⟩ :=
    h.s2PushChunks hsound hr hopened hplace hclock
  obtain ⟨m₂, hmanifest, hdistributed, hpolls₂⟩ := h.s3PushManifest hsound hpushed
    (hclock.manifestPush.mono (Nat.add_le_add_right htoHear _))
  have hpolls := hpolls₂.trans hpolls₁
  obtain ⟨cov, m₃, hcovered, hcalm⟩ := h.s4Loop hclock.coverage.early m₂ none hdistributed
    (hpolls.trans hclock.coverage.enough)
  obtain ⟨log, hlog, hquiet, hactivate, before, rfl, -⟩ :=
    hcovered.gathers (Ingest.s4Loop_spec _ _ _ none)
  refine ⟨cov, m₃, ?_, hdistributed.later ⟨_, hlog, hquiet⟩, ⟨cov, ?_, hactivate⟩,
    hcalm.polls.trans hpolls⟩
  · exact Goes.bind (Goes.adapt hpush _)
      (Goes.bind (Goes.adapt hmanifest _) (Goes.adapt hcovered _))
  · rw [hlog]
    exact List.mem_append_right _ (List.mem_append_right _ (List.mem_singleton_self _))

/-- What follows the registration. -/
theorem Cooperates.afterRegistration (h : Cooperates c r peers queue polls start)
    (hsound : r.file.Sound) (hr : 0 < c.params.assignmentReplicationFactor)
    (command : IngestCommand) {m : c.env.Moment start} (hregistered : c.Registered r m.past)
    (hunpushed : ∀ peer request answer, .push peer request answer ∉ m.past)
    (hclock : ClocksSuffice c r.file clock (polls m.state) (toHear (queue m.state))) :
    ∃ done m', Goes (c.afterRegistration command r.file (peers.heard m.past) clock) m done m' := by
  obtain ⟨info, s₁, hrow, hcalm₁⟩ := h.row m hregistered
  have hunpushed' : ∀ peer request answer, .push peer request answer ∉ (m.next hrow).past := by
    intro peer request answer hmem
    rcases List.mem_append.mp hmem with hmem | hmem
    · exact hunpushed peer request answer hmem
    · cases List.mem_singleton.mp hmem
  obtain ⟨raw, snapshot, s₂, hnodes, hdecode, hplace, hcalm₂⟩ := h.nodes (m.next hrow)
    info.assignmentHeight ⟨_, List.getLast?_concat .., rfl⟩ hunpushed'
  generalize hthen : (m.next hrow).next hnodes = m₂
  have hpast : m₂.past = m.past ++
      [.fileInfo (fileRootHex r.file.manifest.merkleRoot) (.ok (some info)),
        .activeNodes info.assignmentHeight (.ok raw)] := by
    subst hthen
    exact List.append_assoc m.past [_] [_]
  have hheard : peers.heard m₂.past = peers.heard m.past := by
    rw [hpast, MapPeerResolver.heard_of_wakeless (by simp)]
  have hcalm : Calm queue polls m.state m₂.state := by
    subst hthen
    exact hcalm₁.trans hcalm₂
  have hne : snapshot ≠ [] := by
    intro hempty
    have harchives := hplace.archives
    rw [hempty] at harchives
    exact absurd hr (not_lt.mpr harchives)
  have hlater : Later m.past m₂.past :=
    ⟨_, hpast, quiet_cons.mpr ⟨rfl, quiet_cons.mpr ⟨rfl, quiet_nil⟩⟩⟩
  have hopened : c.Opened r snapshot m₂.past := by
    refine ⟨hregistered.later hlater, info, raw, ?_, ?_, hdecode⟩
    · rw [hpast]
      simp
    · rw [hpast]
      simp
  have hplace' : Placeable c r.file (peers.heard m₂.past) snapshot (queue m₂.state) := by
    have hqueue : queue (m.next hrow).state = queue m.state := hcalm₁.queue
    have hfirst : peers.heard (m.next hrow).past = peers.heard m.past :=
      MapPeerResolver.heard_of_wakeless (by simp)
    rw [hheard, hcalm.queue]
    rw [hqueue, hfirst] at hplace
    exact hplace
  obtain ⟨cov, m₃, hpush, hdistributed, hcoverable, hpolls⟩ := h.pushUntilCovered hsound hr hopened
    hplace' (hclock.mono hcalm.polls (by rw [hcalm.queue]))
  have htakes : ∀ (m' : c.env.Moment start) (nonce : Nat),
      m'.past = m₃.past ++ [.nonce c.myAddrBase58 (.ok nonce)] → ∃ txHash s',
        c.env.Answers m'.state (.submission (.sendRaw (c.activates r nonce) (.ok txHash))) s' ∧
          Calm queue polls m'.state s' := by
    intro m' nonce hpast'
    obtain ⟨cov', hmem, hdone⟩ := hcoverable
    refine h.takesActivation m' nonce ?_ ?_ ⟨cov', ?_, hdone⟩
    · rw [hpast']
      exact List.getLast?_concat ..
    · rw [hpast']
      exact hdistributed.later (.call rfl)
    · rw [hpast']
      exact List.mem_append_left _ hmem
  obtain ⟨done, m₄, hactivate, -⟩ := h.submit (c.activates r) (fun nonce => ⟨nonce, Or.inr rfl⟩)
    (hclock.activation.mono (hpolls.trans hcalm.polls)) htakes
  refine ⟨done, m₄, ?_⟩
  have hinputs : Goes (c.fetchAssignmentInputs r.file.manifest.merkleRoot) m (info, snapshot)
      m₂ := by
    subst hthen
    refine Goes.bind (Goes.query hrow hrow) (Goes.bind (Goes.bind (Goes.query hnodes hnodes) ?_)
      (Goes.pure _ _))
    rw [hdecode]
    exact Goes.pure _ _
  refine Goes.bind (Goes.adapt hinputs _) ?_
  simp only [if_neg hne]
  rw [← hheard]
  exact Goes.bind hpush (Goes.adapt hactivate _)

/-- What precedes the registration: the archives are there, and nothing is sent yet. -/
theorem Cooperates.s1aRequireArchives (h : Cooperates c r peers queue polls start)
    {m : c.env.Moment start} (hsilent : Silent m.past) (hheard : peers.heard m.past = peers)
    (hunpushed : ∀ peer request answer, .push peer request answer ∉ m.past)
    (hclock : ClocksSuffice c r.file clock (polls m.state) (toHear (queue m.state))) :
    ∃ m', Goes (c.s1aRequireArchives r.file.manifest.merkleRoot r.file.manifest.chunkCount peers
          clock.discovery) m (peers.heard m'.past) m' ∧ Silent m'.past ∧
      (∀ peer request answer, .push peer request answer ∉ m'.past) ∧
      polls m'.state ≤ polls m.state ∧ toHear (queue m'.state) ≤ toHear (queue m.state) := by
  obtain ⟨enabledAt, -, hheight⟩ := h.enabled
  obtain ⟨head, s₁, hhead, -, hcalm₁⟩ := hheight m
  have hunpushed' : ∀ peer request answer, .push peer request answer ∉ (m.next hhead).past := by
    intro peer request answer hmem
    rcases List.mem_append.mp hmem with hmem | hmem
    · exact hunpushed peer request answer hmem
    · cases List.mem_singleton.mp hmem
  obtain ⟨raw, snapshot, s₂, hnodes, hdecode, hplace, hcalm₂⟩ := h.nodes (m.next hhead) head
    ⟨_, List.getLast?_concat .., rfl⟩ hunpushed'
  generalize hthen : (m.next hhead).next hnodes = m₂
  have hpast : m₂.past = m.past ++ [.blockHeight (.ok head), .activeNodes head (.ok raw)] := by
    subst hthen
    exact List.append_assoc m.past [_] [_]
  have hheard₂ : peers.heard m₂.past = peers := by
    rw [hpast, MapPeerResolver.heard_of_wakeless (by simp), hheard]
  have hcalm : Calm queue polls m.state m₂.state := by
    subst hthen
    exact hcalm₁.trans hcalm₂
  obtain ⟨before, after, hqueue, hfound⟩ := hplace.found
  have hqueue₂ : queue m₂.state = before ++ after := by
    have hfirst : queue (m.next hhead).state = queue m.state := hcalm₁.queue
    rw [hcalm.queue, ← hfirst]
    exact hqueue
  have hfirst : peers.heard (m.next hhead).past = peers :=
    (MapPeerResolver.heard_of_wakeless (by simp)).trans hheard
  rw [hfirst, ← hheard₂] at hfound
  obtain ⟨m₃, hwait, -, hpolls, htoHear, heard, hpast₃⟩ := h.awaitArchives (ε := IngestError)
    hclock.patience hqueue₂ hfound (hclock.discovery.mono (by rw [hcalm.queue]))
  rw [hheard₂] at hwait
  rw [hcalm.queue] at htoHear
  refine ⟨m₃, ?_, ?_, ?_, hpolls.trans hcalm.polls, htoHear⟩
  · have hfew : ¬ snapshot.length < c.params.assignmentReplicationFactor :=
      not_lt.mpr (hplace.archives.trans (List.toFinset_card_le snapshot))
    subst hthen
    refine Goes.bind (Goes.query hhead hhead) (Goes.bind (Goes.query hnodes hnodes) ?_)
    rw [hdecode]
    simp only [if_neg hfew]
    exact Goes.bind hwait (Goes.pure _ m₃)
  · rw [hpast₃, hpast]
    refine quiet_append.mpr ⟨quiet_append.mpr ⟨hsilent, ?_⟩, ?_⟩
    · exact quiet_cons.mpr ⟨rfl, quiet_cons.mpr ⟨rfl, quiet_nil⟩⟩
    · exact List.forall_mem_map.mpr fun _ _ => rfl
  · rw [hpast₃, hpast]
    intro peer request answer hmem
    simp only [List.mem_append, List.mem_cons, List.mem_map, List.not_mem_nil, or_false,
      reduceCtorEq, and_false, exists_false] at hmem
    exact hunpushed peer request answer hmem

/-- The registration itself, and what is checked before it. -/
theorem Cooperates.registerAndActivate (h : Cooperates c r peers queue polls start)
    (hsound : r.file.Sound) (hr : 0 < c.params.assignmentReplicationFactor)
    (command : IngestCommand) {m : c.env.Moment start} (hsilent : Silent m.past)
    (hheard : peers.heard m.past = peers)
    (hunpushed : ∀ peer request answer, .push peer request answer ∉ m.past)
    (hclock : ClocksSuffice c r.file clock (polls m.state) (toHear (queue m.state))) :
    ∃ registerTx registerHeight activateTx activateHeight m',
      Goes (c.registerAndActivate command r peers clock) m
        (.activated r.file.manifest.merkleRoot r.file.manifest registerTx registerHeight activateTx
          activateHeight) m' := by
  obtain ⟨m₁, hrequired, hsilent₁, hunpushed₁, hpolls₁, htoHear₁⟩ :=
    h.s1aRequireArchives hsilent hheard hunpushed hclock
  have htakes : ∀ (m' : c.env.Moment start) (nonce : Nat),
      m'.past = m₁.past ++ [.nonce c.myAddrBase58 (.ok nonce)] → ∃ txHash s',
        c.env.Answers m'.state (.submission (.sendRaw (c.registers r nonce) (.ok txHash))) s' ∧
          Calm queue polls m'.state s' := by
    intro m' nonce hpast
    refine h.takesRegistration m' nonce ?_ ?_
    · rw [hpast]
      exact List.getLast?_concat ..
    · rw [hpast, sentOf_append, sentOf_silent hsilent₁]
      rfl
  obtain ⟨⟨registerTx, registerHeight⟩, m₂, hregister, hcalm₂⟩ := h.submit (c.registers r)
    (fun nonce => ⟨nonce, Or.inl rfl⟩) (hclock.registration.mono hpolls₁) htakes
  obtain ⟨log, hlog, nonce, hpolled⟩ := hregister.exits (Ingest.submit_spec _ clock.registration)
  have hregistered : c.Registered r m₂.past := by
    have hsent := hpolled.sent
    obtain ⟨addrB58, statuses, -, rfl⟩ := hpolled
    refine ⟨nonce, registerTx, registerHeight, ?_, ?_, ?_⟩
    · rw [hlog, sentOf_append, sentOf_silent hsilent₁, hsent]
      rfl
    · rw [hlog]
      simp [Ingest.registers]
    · rw [hlog]
      simp
  have hheard₂ : peers.heard m₂.past = peers.heard m₁.past := by
    obtain ⟨addrB58, statuses, -, rfl⟩ := hpolled
    rw [hlog, MapPeerResolver.heard_of_wakeless (by simp)]
  have hunpushed₂ : ∀ peer request answer, .push peer request answer ∉ m₂.past := by
    obtain ⟨addrB58, statuses, -, rfl⟩ := hpolled
    rw [hlog]
    intro peer request answer hmem
    rcases List.mem_append.mp hmem with hmem | hmem
    · exact hunpushed₁ peer request answer hmem
    · simp at hmem
  obtain ⟨⟨activateTx, activateHeight⟩, m₃, hactivate⟩ := h.afterRegistration hsound hr command
    hregistered hunpushed₂
    (hclock.mono (hcalm₂.polls.trans hpolls₁) (by rw [hcalm₂.queue]; exact htoHear₁))
  rw [hheard₂] at hactivate
  refine ⟨registerTx, registerHeight, activateTx, activateHeight, m₃, ?_⟩
  exact Goes.bind (Goes.adapt hrequired _) (Goes.bind (Goes.adapt hregister _)
    (Goes.bind hactivate (Goes.pure _ m₃)))

/-- The steps of both commands. -/
theorem Cooperates.ingestStage (h : Cooperates c r peers queue polls start)
    (hsound : r.file.Sound) (hr : 0 < c.params.assignmentReplicationFactor)
    (command : IngestCommand)
    (hclock : ClocksSuffice c r.file clock (polls start) (toHear (queue start))) :
    ∃ registerTx registerHeight activateTx activateHeight m',
      Gives (Ingest.outcomeOf (c.ingestStage command (.ok r) peers clock))
        (.first c.env.Answers start) (.ok (.activated r.file.manifest.merkleRoot r.file.manifest
          registerTx registerHeight activateTx activateHeight)) m' := by
  obtain ⟨enabledAt, henabled, hheight⟩ := h.enabled
  obtain ⟨height, s₁, hasked, hle, hcalm⟩ := hheight (.first c.env.Answers start)
  have hcalm : Calm queue polls start s₁ := hcalm
  obtain ⟨registerTx, registerHeight, activateTx, activateHeight, m₂, hgoes⟩ :=
    h.registerAndActivate hsound hr command (m := (Moment.first c.env.Answers start).next hasked)
      (quiet_cons.mpr ⟨rfl, quiet_nil⟩) rfl (by simp [Moment.next, Moment.first])
      (hclock.mono hcalm.polls (by
        show toHear (queue s₁) ≤ _
        rw [hcalm.queue]))
  refine ⟨registerTx, registerHeight, activateTx, activateHeight, m₂, ?_⟩
  have hchecked : Goes (c.preflight command) (.first c.env.Answers start) ()
      ((Moment.first c.env.Answers start).next hasked) := by
    have hgate : Goes c.checkV2Enabled (.first c.env.Answers start) height
        ((Moment.first c.env.Answers start).next hasked) := by
      refine Goes.bind (Goes.query hasked hasked) ?_
      rw [henabled]
      simp only [if_neg (not_lt.mpr hle)]
      exact Goes.pure height _
    unfold Ingest.preflight
    rw [if_neg (Nat.pos_iff_ne_zero.mp hr)]
    exact Goes.bind (Goes.adapt hgate _) (Goes.pure () _)
  have hstage : Goes (c.ingestStage command (.ok r) peers clock) (.first c.env.Answers start)
      (.activated r.file.manifest.merkleRoot r.file.manifest registerTx registerHeight activateTx
        activateHeight) m₂ :=
    Goes.bind hchecked (Goes.bind (Goes.orStop rfl _) hgoes)
  exact Gives.bind hstage (Gives.pure _ m₂)

/--
**An ingest that everyone helps with activates the file.**  The chain answers, and only so
often that something is not done yet.  It takes the registration, and has the row once that
is final; every archive that the assignment names has a peer, or will have one soon, and
acknowledges what it is sent then, after whatever else the network tells in between; the
coverage becomes complete once chunks and manifest are with the archives; the clocks do not
run out.  Then `run` and `run_private` end with the file active.
-/
theorem cooperating_ingest_activates {fileName : Str} {content : Except Str Bytes}
    (h : Cooperates c r peers queue polls start)
    (hr : 0 < c.params.assignmentReplicationFactor)
    (hclock : ClocksSuffice c r.file clock (polls start) (toHear (queue start))) :
    (c.publicRegistration fileName content = .ok r →
      ∃ registerTx registerHeight activateTx activateHeight,
        ((c.run fileName content peers clock) start).1 = .ok (.activated r.file.manifest.merkleRoot
          r.file.manifest registerTx registerHeight activateTx activateHeight)) ∧
    ∀ kFile ephSeeds recipients,
      c.privateRegistration kFile ephSeeds fileName content recipients = .ok r →
        ∃ registerTx registerHeight activateTx activateHeight,
          ((c.runPrivately kFile ephSeeds fileName content recipients peers clock) start).1
            = .ok (.activated r.file.manifest.merkleRoot r.file.manifest registerTx
              registerHeight activateTx activateHeight) := by
  constructor
  · intro hmade
    obtain ⟨-, -, -, hsound, -⟩ := Ingest.publicRegistration_ok hmade
    obtain ⟨registerTx, registerHeight, activateTx, activateHeight, m, log, hrun, -⟩ :=
      h.ingestStage hsound hr .run hclock
    refine ⟨registerTx, registerHeight, activateTx, activateHeight, ?_⟩
    unfold Ingest.run
    rw [hmade]
    exact congrArg Prod.fst hrun
  · intro kFile ephSeeds recipients hmade
    obtain ⟨-, -, -, -, -, hsound, -⟩ := Ingest.privateRegistration_ok hmade
    obtain ⟨registerTx, registerHeight, activateTx, activateHeight, m, log, hrun, -⟩ :=
      h.ingestStage hsound hr .runPrivate hclock
    refine ⟨registerTx, registerHeight, activateTx, activateHeight, ?_⟩
    unfold Ingest.runPrivately
    rw [hmade]
    exact congrArg Prod.fst hrun

end

/-! #### A file of one chunk, and one archive

Nobody is known at first: the archive says who it is while the command waits.  It refuses
the chunk once, and takes it when it is sent again.  The row is there after the
registration only, and the coverage is not complete before the manifest is delivered. -/

/-- The answer of an archive that takes what it is sent. -/
def acceptance (peer : PeerId) : ShardRequestV2 → List SumNetEvent
  | .push _ merkleRoot i _ =>
      [.shardReceivedV2 peer (.pushAck merkleRoot i none) ⟨peer, .v2Push merkleRoot i⟩]
  | .manifestPush merkleRoot _ =>
      [.shardReceivedV2 peer (.manifestPushAck merkleRoot none) ⟨peer, .v2ManifestPush merkleRoot⟩]
  | .pull .. | .manifestPull _ => []

def ShardRequestV2.isManifestPush : ShardRequestV2 → Bool
  | .manifestPush .. => true
  | _ => false

structure SoloState where
  /-- What the network has to tell. -/
  queue : List SumNetEvent
  registered : Bool
  delivered : Bool

def soloEnv (info : RegisteredFilePage) : IngestEnv SoloState where
  chainGetBlockHeight := fun s => (.ok 1, s)
  storageGetActiveNodesAtHeight := fun _ s => (.ok [⟨.archiveNode, .active, .ok 0⟩], s)
  storageGetFileInfoV2 := fun _ s => (.ok (if s.registered then some info else none), s)
  coverage := ⟨fun _ _ _ s => (.ok (some ⟨1, 1, s.delivered, 0, 0, [], [], [], 0, false, []⟩), s)⟩
  getNonce := fun _ s => (.ok 0, s)
  v1RootRegistered := fun _ s => (.ok false, s)
  submission := {
    storageGetFileInfoV2 := fun _ s => (.ok none, s)
    storageGetAssignmentCoverageV2 := fun _ s => (.ok none, s)
    chainGetChainParams := fun s => (.ok 1, s)
    getLatestBlockHead := fun s => (.error "not asked", s)
    storageBuildReassignChunksV2 := fun _ _ _ s => (.error "not asked", s)
    sendRawTransaction := fun _ s => (.ok ['t'], { s with registered := true })
    getTransactionStatus := fun _ s => (.ok (.finalized 2), s) }
  push := fun peer request s => (.ok (), { s with
    queue := s.queue ++ acceptance peer request
    delivered := s.delivered || request.isManifestPush })
  nextEvent := fun s =>
    match s.queue with
    | [] => (.timer, s)
    | event :: queue => (.event event, { s with queue })

def soloIngest [CryptoLib] (p : IngestPipeline) (info : RegisteredFilePage) :
    Ingest SoloState where
  toIngestPipeline := p
  params := ⟨1, 1, 1, 1, 10, 10, 2, 10, 10, 10, 0, some 0⟩
  env := soloEnv info

def nobody : MapPeerResolver := ⟨∅⟩

/-- Events that say nothing about who is who. -/
def Answering (queue : List SumNetEvent) : Prop :=
  ∀ event ∈ queue, ∃ peer response origin, event = .shardReceivedV2 peer response origin

/-- The archive has not said yet who it is, or it is known. -/
def SoloKnown (past : List IngestCall) (queue : List SumNetEvent) : Prop :=
  (∃ rest, queue = .peerIdentified 10 0 :: rest ∧ Answering rest ∧
    nobody.heard past = nobody) ∨
  Answering queue ∧ nobody.heard past = ⟨nobody.peerAddresses.insert 10 0⟩

/-- What the state has to do with the calls that led there. -/
structure SoloRemembers (past : List IngestCall) (s : SoloState) : Prop where
  registered : ∀ txHex answer, .submission (.sendRaw txHex answer) ∈ past → s.registered = true
  delivered : ∀ peer request answer, .push peer request answer ∈ past →
    request.isManifestPush = true → s.delivered = true
  known : SoloKnown past s.queue

theorem SoloKnown.calm {past : List IngestCall} {queue : List SumNetEvent} {call : IngestCall}
    (h : SoloKnown past queue) (hcall : ∀ wake, call ≠ .wake wake) :
    SoloKnown (past ++ [call]) queue := by
  unfold SoloKnown
  rw [MapPeerResolver.heard_of_wakeless fun wake hmem =>
    hcall wake (List.mem_singleton.mp hmem).symm]
  exact h

/-- What an archive answers is no news about peers. -/
theorem SoloKnown.push {past : List IngestCall} {queue : List SumNetEvent}
    (h : SoloKnown past queue) (peer : PeerId) (request : ShardRequestV2) :
    SoloKnown past (queue ++ acceptance peer request) := by
  have hmore : ∀ rest, Answering rest → Answering (rest ++ acceptance peer request) := by
    intro rest hrest event hevent
    rcases List.mem_append.mp hevent with hevent | hevent
    · exact hrest event hevent
    · cases request with
      | push data merkleRoot i proof => exact ⟨_, _, _, List.mem_singleton.mp hevent⟩
      | manifestPush merkleRoot bytes => exact ⟨_, _, _, List.mem_singleton.mp hevent⟩
      | pull cid start stop => cases hevent
      | manifestPull merkleRoot => cases hevent
  rcases h with ⟨rest, rfl, hrest, hheard⟩ | ⟨hqueue, hheard⟩
  · exact Or.inl ⟨_, rfl, hmore rest hrest, hheard⟩
  · exact Or.inr ⟨hmore queue hqueue, hheard⟩

theorem SoloKnown.event {past : List IngestCall} {event : SumNetEvent} {queue : List SumNetEvent}
    (h : SoloKnown past (event :: queue)) :
    SoloKnown (past ++ [.wake (.event event)]) queue := by
  unfold SoloKnown
  rw [MapPeerResolver.heard_append]
  rcases h with ⟨rest, hcons, hrest, hheard⟩ | ⟨hqueue, hheard⟩
  · obtain ⟨rfl, rfl⟩ := List.cons.inj hcons
    rw [hheard]
    exact Or.inr ⟨hrest, rfl⟩
  · obtain ⟨peer, response, origin, rfl⟩ := hqueue event (List.mem_cons_self ..)
    refine Or.inr ⟨fun e he => hqueue e (List.mem_cons_of_mem _ he), ?_⟩
    rw [hheard]
    rfl

/-- A call that changes nothing in the state. -/
theorem SoloRemembers.same {past : List IngestCall} {s : SoloState} {call : IngestCall}
    (h : SoloRemembers past s) (hwake : ∀ wake, call ≠ .wake wake)
    (hsend : ∀ txHex answer, call ≠ .submission (.sendRaw txHex answer))
    (hpush : ∀ peer request answer, call ≠ .push peer request answer) :
    SoloRemembers (past ++ [call]) s where
  registered := by
    intro txHex answer hmem
    rcases List.mem_append.mp hmem with hmem | hmem
    · exact h.registered txHex answer hmem
    · exact absurd (List.mem_singleton.mp hmem).symm (hsend txHex answer)
  delivered := by
    intro peer request answer hmem hmanifest
    rcases List.mem_append.mp hmem with hmem | hmem
    · exact h.delivered peer request answer hmem hmanifest
    · exact absurd (List.mem_singleton.mp hmem).symm (hpush peer request answer)
  known := h.known.calm hwake

/-- By cases on the call: three of them change the state. -/
theorem SoloRemembers.step {info : RegisteredFilePage} {past : List IngestCall} {s s' : SoloState}
    {call : IngestCall} (h : SoloRemembers past s) (hstep : (soloEnv info).Answers s call s') :
    SoloRemembers (past ++ [call]) s' := by
  cases call with
  | blockHeight answer =>
      obtain ⟨-, rfl⟩ := Prod.mk.inj hstep
      exact h.same nofun nofun nofun
  | activeNodes height answer =>
      obtain ⟨-, rfl⟩ := Prod.mk.inj hstep
      exact h.same nofun nofun nofun
  | fileInfo rootHex answer =>
      obtain ⟨-, rfl⟩ := Prod.mk.inj hstep
      exact h.same nofun nofun nofun
  | coverage rootHex offset answer =>
      obtain ⟨limit, hstep⟩ := hstep
      obtain ⟨-, rfl⟩ := Prod.mk.inj hstep
      exact h.same nofun nofun nofun
  | nonce addrB58 answer =>
      obtain ⟨-, rfl⟩ := Prod.mk.inj hstep
      exact h.same nofun nofun nofun
  | v1Root rootHex answer =>
      obtain ⟨-, rfl⟩ := Prod.mk.inj hstep
      exact h.same nofun nofun nofun
  | submission call =>
      cases call with
      | sendRaw txHex answer =>
          obtain ⟨-, rfl⟩ := Prod.mk.inj hstep
          refine ⟨fun _ _ _ => rfl, ?_, h.known.calm nofun⟩
          intro peer request answer' hmem hmanifest
          rcases List.mem_append.mp hmem with hmem | hmem
          · exact h.delivered peer request answer' hmem hmanifest
          · cases List.mem_singleton.mp hmem
      | txStatus txHash answer =>
          obtain ⟨-, rfl⟩ := Prod.mk.inj hstep
          exact h.same nofun nofun nofun
      | _ => exact absurd hstep not_false
  | push peer request answer =>
      obtain ⟨-, rfl⟩ := Prod.mk.inj hstep
      refine ⟨?_, ?_, (h.known.push peer request).calm nofun⟩
      · intro txHex answer' hmem
        rcases List.mem_append.mp hmem with hmem | hmem
        · exact h.registered txHex answer' hmem
        · cases List.mem_singleton.mp hmem
      · intro peer' request' answer' hmem hmanifest
        rcases List.mem_append.mp hmem with hmem | hmem
        · rw [h.delivered peer' request' answer' hmem hmanifest]
          rfl
        · obtain ⟨rfl, rfl, rfl⟩ := IngestCall.push.inj (List.mem_singleton.mp hmem)
          show (s.delivered || request'.isManifestPush) = true
          rw [hmanifest, Bool.or_true]
  | wake wake =>
      have hregistered : ∀ txHex answer,
          .submission (.sendRaw txHex answer) ∈ past ++ [.wake wake] → s.registered = true := by
        intro txHex answer hmem
        rcases List.mem_append.mp hmem with hmem | hmem
        · exact h.registered txHex answer hmem
        · cases List.mem_singleton.mp hmem
      have hdelivered : ∀ peer request answer, .push peer request answer ∈ past ++ [.wake wake] →
          request.isManifestPush = true → s.delivered = true := by
        intro peer request answer hmem hmanifest
        rcases List.mem_append.mp hmem with hmem | hmem
        · exact h.delivered peer request answer hmem hmanifest
        · cases List.mem_singleton.mp hmem
      have hstep : (match s.queue with
        | [] => (Wake.timer, s)
        | event :: queue => (Wake.event event, { s with queue })) = (wake, s') := hstep
      have hknown := h.known
      split at hstep
      · obtain ⟨rfl, rfl⟩ := Prod.mk.inj hstep
        refine ⟨hregistered, hdelivered, ?_⟩
        unfold SoloKnown
        rw [MapPeerResolver.heard_append]
        exact hknown
      · rename_i event queue hqueue
        obtain ⟨rfl, rfl⟩ := Prod.mk.inj hstep
        rw [hqueue] at hknown
        exact ⟨hregistered, hdelivered, hknown.event⟩

/-- What the archive says while the command waits, and its refusal. -/
def soloStart (merkleRoot : Hash) : SoloState where
  queue := [.peerIdentified 10 0,
    .shardReceivedV2 10 (.pushAck merkleRoot 0 (some ['e'])) ⟨10, .v2Push merkleRoot 0⟩]
  registered := false
  delivered := false

theorem soloEnv_remembers {info : RegisteredFilePage} {merkleRoot : Hash}
    (m : (soloEnv info).Moment (soloStart merkleRoot)) : SoloRemembers m.past m.state := by
  refine m.reached.invariant (P := SoloRemembers) (fun _ _ _ _ h hstep => h.step hstep) []
    ⟨nofun, nofun, Or.inl ⟨_, rfl, ?_, rfl⟩⟩
  intro event hevent
  exact ⟨_, _, _, List.mem_singleton.mp hevent⟩

theorem soloEnv_delivers (info : RegisteredFilePage) {peer : PeerId} {request : ShardRequestV2}
    {response : ShardResponseV2} {origin : OutboundOrigin} (s : SoloState)
    (h : acceptance peer request = [.shardReceivedV2 peer response origin]) :
    ∃ s', (soloEnv info).push peer request s = (.ok (), s') ∧ 0 ≤ 0 ∧
      Delivers peer response s.queue s'.queue := by
  refine ⟨_, rfl, le_refl _, s.queue, [], origin, (List.append_nil _).symm, ?_⟩
  show s.queue ++ acceptance peer request = _
  rw [h]

section

variable [CryptoLib] [AssignmentScore]

/-- Wherever the wait starts, the archive is known or about to be. -/
theorem SoloKnown.placeable {past : List IngestCall} {queue : List SumNetEvent}
    (h : SoloKnown past queue) (p : IngestPipeline) (info : RegisteredFilePage)
    (file : ReproducedFile) :
    Placeable (soloIngest p info) file (nobody.heard past) [0] queue := by
  have honly : ∀ a ∈ (soloIngest p info).archivesOf file [0], a = 0 := by
    intro a ha
    obtain ⟨i, -, ha⟩ := Ingest.mem_archivesOf.mp ha
    have ha : a ∈ assignedArchives file.manifest.merkleRoot [0] i 1 := ha
    rw [assignedArchives_solo _ _ _ Nat.one_pos] at ha
    exact List.mem_singleton.mp ha
  refine ⟨le_refl _, ?_⟩
  rcases h with ⟨rest, rfl, -, hheard⟩ | ⟨-, hheard⟩
  · refine ⟨[.peerIdentified 10 0], rest, rfl, ?_⟩
    intro a ha
    rw [honly a ha, hheard]
    refine ⟨by decide +kernel, ?_⟩
    rintro ⟨⟨peer, hpeer, -⟩, -⟩
    exact absurd hpeer (by rw [show nobody.resolve 0 = none by decide +kernel]; exact nofun)
  · refine ⟨[], queue, rfl, ?_⟩
    intro a ha
    rw [honly a ha, hheard]
    refine ⟨by decide +kernel, ?_⟩
    rintro ⟨⟨peer, -, w, hw, -⟩, -⟩
    cases hw

theorem soloIngest_cooperates [Blake3] [Bs58] [SumchainWire] [FileLifecycleWire]
    (p : IngestPipeline) (info : RegisteredFilePage) (r : Registration)
    (hcount : r.file.manifest.chunkCount = 1) :
    Cooperates (soloIngest p info) r nobody SoloState.queue (fun _ => 0)
      (soloStart r.file.manifest.merkleRoot) where
  enabled := ⟨0, rfl, fun m => ⟨1, m.state, rfl, Nat.zero_le 1, rfl, le_refl _⟩⟩
  nodes := fun m _ _ _ => ⟨_, [0], m.state, rfl, decodeSnapshot_solo 0,
    (soloEnv_remembers m).known.placeable p info r.file, rfl, le_refl _⟩
  nonce := fun m => ⟨0, m.state, rfl, rfl, le_refl _⟩
  takesRegistration := fun m _ _ _ => ⟨['t'], _, rfl, rfl, le_refl _⟩
  finalizes := fun m _ _ _ _ => ⟨_, m.state, rfl, ⟨rfl, le_refl _⟩, Or.inl ⟨2, rfl⟩⟩
  row := by
    intro m hregistered
    obtain ⟨nonce, txHash, height, -, hsent, -⟩ := hregistered
    have hrow := (soloEnv_remembers m).registered _ _ hsent
    refine ⟨info, m.state, ?_, rfl, le_refl _⟩
    show (Except.ok (if m.state.registered then some info else none), m.state) = _
    rw [hrow]
    rfl
  acksChunk := by
    intro m key request hwanted hrequest
    obtain ⟨data, proof, rfl⟩ := pushRequest_eq hrequest
    exact soloEnv_delivers info m.state rfl
  acksManifest := fun m peer _ => soloEnv_delivers info m.state rfl
  covers := by
    intro m hdistributed
    obtain ⟨snapshot, resolver, hopened, hplaced⟩ := hdistributed
    -- the archive of the one chunk has acknowledged the manifest, so it was sent
    have hmanifest : m.state.delivered = true := by
      have hfirst : 0 ∈ Finset.range r.file.manifest.chunkCount := by
        rw [hcount]
        exact Finset.mem_range.mpr Nat.one_pos
      have hreplicas := hplaced.replicas 0 hfirst
      have hone : (soloIngest p info).params.assignmentReplicationFactor = 1 := rfl
      rw [hone] at hreplicas
      obtain ⟨a, ha⟩ := Finset.card_pos.mp (hreplicas ▸ Nat.one_pos)
      have ha := List.mem_toFinset.mp ha
      obtain ⟨peer, -, -, -, -, hpeer, -, -⟩ := hplaced.acked 0 hfirst a ha
      have hfile : a ∈ Ingest.fileArchives (soloIngest p info) r.file snapshot :=
        List.mem_toFinset.mpr (List.mem_flatMap.mpr
          ⟨0, List.mem_range.mpr (Finset.mem_range.mp hfirst), ha⟩)
      obtain ⟨origin, hsub⟩ := hplaced.manifests a hfile peer hpeer
      exact (soloEnv_remembers m).delivered _ _ _ (hsub.subset (List.mem_cons_self ..)) rfl
    refine ⟨_, m.state, rfl, ⟨rfl, le_refl _⟩, Or.inl ⟨_, rfl, hmanifest⟩⟩
  takesActivation := fun m _ _ _ _ => ⟨['t'], _, rfl, rfl, le_refl _⟩
  tells := by
    intro m event rest hqueue
    refine ⟨{ m.state with queue := rest }, ?_, le_refl _, rfl⟩
    show (match m.state.queue with
      | [] => (Wake.timer, m.state)
      | event :: queue => (Wake.event event, { m.state with queue })) = _
    rw [hqueue]

end

/-- Readings enough for every wait. -/
def soloClock : IngestClock where
  discovery := [0, 0, 0, 0]
  registration := [0, 0]
  pushDiscovery := [0, 0, 0, 0]
  push := [0, 0, 0, 0, 0]
  manifestPush := [0, 0, 0, 0, 0, 0]
  coverage := [0, 0]
  activation := [0, 0]

/-- Three bytes, registered, delivered and activated. -/
theorem solo_ingest_activates :
    letI := Blake3.reference
    letI := Bs58.bitcoin
    letI := CryptoLib.reference
    letI := emptyWire
    letI := AssignmentScore.flat
    letI : FileLifecycleWire := ⟨fun _ => []⟩
    let file := ReproducedFile.ofPublic ['f'] [1, 2, 3]
    let merkleRoot := file.manifest.merkleRoot
    let info : RegisteredFilePage := ⟨soloRow ownersPipeline merkleRoot, 0, none, none⟩
    ∃ registerTx registerHeight activateTx activateHeight,
      ((soloIngest ownersPipeline info).run ['f'] (.ok [1, 2, 3]) nobody soloClock
        (soloStart merkleRoot)).1 = .ok (.activated merkleRoot file.manifest registerTx
          registerHeight activateTx activateHeight) := by
  let _ := Blake3.reference
  let _ := Bs58.bitcoin
  let _ := CryptoLib.reference
  let _ := emptyWire
  let _ := AssignmentScore.flat
  let _ : FileLifecycleWire := ⟨fun _ => []⟩
  intro file merkleRoot info
  have hcount : file.manifest.chunkCount = 1 :=
    (chunkMapped_small ['f'] (by decide) (by decide)).2.1
  have hmade : (soloIngest ownersPipeline info).publicRegistration ['f'] (.ok [1, 2, 3])
      = .ok ⟨file, 0, []⟩ := by
    have hfew : ¬ maxChunkCountPerFile < file.manifest.chunkCount := by
      rw [hcount]
      decide
    unfold Ingest.publicRegistration
    exact if_neg hfew
  have hpushes : pushesOf (soloIngest ownersPipeline info) file = 1 := by
    unfold pushesOf
    rw [hcount]
    rfl
  have hearly : ∀ n, ∀ now ∈ List.replicate n 0, now < 0 + 10 := by
    intro n now hnow
    rw [List.eq_of_mem_replicate hnow]
    decide
  have htoHear : toHear (soloStart merkleRoot).queue = 3 := rfl
  refine (cooperating_ingest_activates
    (soloIngest_cooperates ownersPipeline info ⟨file, 0, []⟩ hcount) Nat.one_pos
    ⟨by decide, ?_, ?_, ?_, ?_, ?_, ?_, ?_⟩).1 hmade
  · rw [htoHear]
    exact ⟨le_refl _, hearly 3⟩
  · exact ⟨by decide, hearly 1⟩
  · rw [htoHear]
    exact ⟨le_refl _, hearly 3⟩
  · rw [htoHear, hpushes]
    exact ⟨le_refl _, hearly 4⟩
  · rw [htoHear, hpushes]
    exact ⟨le_refl _, hearly 5⟩
  · exact ⟨by decide, hearly 1⟩
  · exact ⟨by decide, hearly 1⟩

end Snip
