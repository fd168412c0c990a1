/-
The stages of an ingest (`sum-node/src/ingest_v2.rs`).

A stage asks the chain and the network and either goes on with a value or ends early.
Every loop with a deadline gets the readings of the clock that its turns make; when they
are used up, it is still waiting.  The loops themselves are those of `Node/PeerDiscovery`
and `Node/IngestV2`, here with the calls they make.
-/
import Mathlib.Data.Finset.Sort
import Snip.Lib.Stages
import Snip.Node.Ingest

namespace Snip

/-- Why a stage does not go on. -/
inductive Stop (ε : Type) where
  | early (e : ε)
  /-- The readings of the clock end before the stage does. -/
  | waiting
  | panicked

def Stop.map {ε δ : Type} (f : ε → δ) : Stop ε → Stop δ
  | early e => .early (f e)
  | waiting => .waiting
  | panicked => .panicked

/-- A stage over environments `σ`, with what it may end early with. -/
abbrev Stage (σ ε α : Type) := ExceptT (Stop ε) (Dialogue σ IngestCall) α

/-- The early end of a stage, as its caller reports it. -/
def Stage.orReturn {σ ε δ α : Type} (m : Stage σ ε α) (f : ε → δ) : Stage σ δ α :=
  ExceptT.adapt (Stop.map f) m

/-- `IngestPipeline` with its parameters and what it talks to. -/
structure Ingest (σ : Type) [CryptoLib] extends IngestPipeline where
  params : IngestParams
  env : IngestEnv σ

/-- What the waits of a command read of the clock. -/
structure IngestClock where
  discovery : List Nat
  registration : List Nat
  pushDiscovery : List Nat
  push : List Nat
  manifestPush : List Nat
  coverage : List Nat
  activation : List Nat

/-- What `s2_push_chunks` fails with. -/
structure S2Failure where
  underReplicated : List Nat
  source : Option DiscoveryFailure

inductive S4WaitError where
  | timeout (lastCoverage : Option AssignmentCoverageV2)
  | notFound

/-- What one poll of S4 makes of the answer. -/
inductive CoveragePoll where
  | done (cov : AssignmentCoverageV2)
  | gone
  | again (last : Option AssignmentCoverageV2)

/-- A query that fails leaves the coverage seen last as it is. -/
def pollCoverage (last : Option AssignmentCoverageV2) :
    Except Str (Option AssignmentCoverageV2) → CoveragePoll
  | .ok (some cov) => if cov.canActivateNow then .done cov else .again (some cov)
  | .ok none => .gone
  | .error _ => .again last

/-- One acknowledgement of a manifest, if it is wanted. -/
def noteManifestAck (merkleRoot : Hash) (needed : Finset PeerId) (event : SumNetEvent)
    (acked : Finset PeerId) : Finset PeerId :=
  match event with
  | .shardReceivedV2 peerId (.manifestPushAck ackedRoot none) _ =>
      if ackedRoot = merkleRoot ∧ peerId ∈ needed then insert peerId acked else acked
  | _ => acked

/-- The failure of a wait, if it failed. -/
def discoveryFailure? : Except DiscoveryFailure Unit → Option DiscoveryFailure
  | .ok () => none
  | .error f => some f

namespace Ingest

section

variable {σ ε : Type} [CryptoLib] (c : Ingest σ)

/-! ### Waiting for the archives -/

/-- `next_event`, or the timer. -/
def nextEvent : Stage σ ε Wake := ExceptT.lift (Dialogue.ask c.env.nextEvent .wake)

/-- The loop of `await_archives`. -/
def awaitTurns (d : ArchiveDiscovery) (peers : MapPeerResolver) (now : Nat) :
    List Nat → Stage σ ε (Except DiscoveryFailure Unit × MapPeerResolver)
  | [] =>
      match d.status now with
      | .complete => pure (.ok (), peers)
      | .timedOut missing =>
          pure (.error (.timedOut d.required.card missing c.params.discoveryTimeout), peers)
      | .waiting _ => throw .waiting
  | next :: clock =>
      match d.status now with
      | .complete => pure (.ok (), peers)
      | .timedOut missing =>
          pure (.error (.timedOut d.required.card missing c.params.discoveryTimeout), peers)
      | .waiting _ => do
          match ← c.nextEvent with
          | .timer => awaitTurns d peers next clock
          | .closed => pure (.error (.networkClosed d.required.card d.missing), peers)
          | .event event => awaitTurns (d.observe event) (peers.observe event) next clock

/-- `await_archives`: how it ended, and the resolver as it is by then. -/
def awaitArchives (required : Finset Addr) (peers : MapPeerResolver) (clock : List Nat) :
    Stage σ ε (Except DiscoveryFailure Unit × MapPeerResolver) :=
  let started := clock.headD 0
  c.awaitTurns (seededDiscovery peers required (started + c.params.discoveryTimeout)) peers started
    clock.tail

/-- `check_v2_enabled`. -/
def checkV2Enabled : Stage σ GateError Nat := do
  let height ← Dialogue.query c.env.chainGetBlockHeight .blockHeight
    fun e => .early (.heightQuery e)
  match c.params.v2EnabledFromHeight with
  | none => throw (.early .disabled)
  | some enabledAt =>
      if height < enabledAt then throw (.early (.notYet height enabledAt)) else pure height

/-! ### Submitting -/

/-- Nonce, transaction, submission and the wait for it to be final. -/
def submit [Blake3] [Bs58] [SumchainWire] (buildTx : Nat → Str) (clock : List Nat) :
    Stage σ SubmitError (Str × Nat) := do
  let nonce ← Dialogue.query (c.env.getNonce c.myAddrBase58) (.nonce c.myAddrBase58)
    fun e => .early (.nonceQuery e)
  let txHex := buildTx nonce
  let txHash ← Dialogue.query (c.env.submission.sendRawTransaction txHex)
    (fun answer => .submission (.sendRaw txHex answer)) fun e => .early (.send e)
  match ← ExceptT.lift (Dialogue.relabel .submission (waitForFinalized c.env.submission txHash
      (clock.headD 0 + c.params.finalityTimeout) clock.tail)) with
  | .ok height => pure (txHash, height)
  | .error .waiting => throw .waiting
  | .error e => throw (.early (.wait txHash e))

section

variable [Blake3] [Bs58] [SumchainWire] [FileLifecycleWire]

/-- The transaction of S1. -/
def registerTx (file : ReproducedFile) (visibility : Nat)
    (initialAccess : List AccessEntryV2Mirror) (nonce : Nat) : Str :=
  buildRegisterFilePendingV2Tx c.signingKeySeed c.params.chainId nonce c.params.feePerTx
    file.manifest.merkleRoot file.manifest.totalSizeBytes file.storedSizeBytes
    file.manifest.chunkCount c.params.feeDeposit visibility initialAccess

/-- `s1_register_pending`. -/
def s1RegisterPending (file : ReproducedFile) (visibility : Nat)
    (initialAccess : List AccessEntryV2Mirror) (clock : List Nat) :
    Stage σ SubmitError (Str × Nat) :=
  c.submit (c.registerTx file visibility initialAccess) clock

/-- The transaction of S5. -/
def activateTx (merkleRoot : Hash) (nonce : Nat) : Str :=
  buildActivateFileV2Tx c.signingKeySeed c.params.chainId nonce c.params.feePerTx merkleRoot

/-- `s5_activate`. -/
def s5Activate (merkleRoot : Hash) (clock : List Nat) : Stage σ SubmitError (Str × Nat) :=
  c.submit (c.activateTx merkleRoot) clock

end

/-! ### Assignment -/

section

variable [AssignmentScore]

/-- `s1a_require_archives`; the resolver is the one that the wait leaves behind. -/
def s1aRequireArchives (merkleRoot : Hash) (chunkCount : Nat) (peers : MapPeerResolver)
    (clock : List Nat) : Stage σ IngestError MapPeerResolver := do
  let r := c.params.assignmentReplicationFactor
  let head ← Dialogue.query c.env.chainGetBlockHeight .blockHeight fun e => .early (.headQuery e)
  let raw ← Dialogue.query (c.env.storageGetActiveNodesAtHeight head) (.activeNodes head)
    fun e => .early (.headNodesQuery head e)
  match decodeSnapshot raw with
  | none => throw (.early .snapshotAddress)
  | some snapshot =>
  if snapshot.length < r then throw (.early (.tooFewArchives snapshot.length head r))
  else
  let required := requiredArchives merkleRoot snapshot (List.range chunkCount) r
  match ← c.awaitArchives required peers clock with
  | (.ok (), peers) => pure peers
  | (.error f, _) => throw (.early (.unreachable f))

end

/-- The snapshot of a height. -/
def readSnapshot (height : Nat) : Stage σ IngestError (List Addr) := do
  let raw ← Dialogue.query (c.env.storageGetActiveNodesAtHeight height) (.activeNodes height)
    fun e => .early (.nodesQuery e)
  match decodeSnapshot raw with
  | none => throw (.early .snapshotAddress)
  | some snapshot => pure snapshot

/-- `fetch_assignment_inputs`. -/
def fetchAssignmentInputs (merkleRoot : Hash) :
    Stage σ IngestError (RegisteredFilePage × List Addr) := do
  let rootHex := fileRootHex merkleRoot
  match ← Dialogue.query (c.env.storageGetFileInfoV2 rootHex) (.fileInfo rootHex)
      fun e => .early (.rowQuery e) with
  | none => throw (.early (.noRow merkleRoot))
  | some info =>
  let snapshot ← c.readSnapshot info.assignmentHeight
  pure (info, snapshot)

/-! ### S2 -/

variable [Blake3]

/-- `send_one_push`: whether the network layer took it. -/
def sendOnePush (file : ReproducedFile) (key : Nat × PeerId) : Stage σ ε Bool :=
  match pushRequest file.manifest file.mapped file.tree key.1 with
  | none => throw .panicked
  | some request => do
      let answer ← ExceptT.lift (Dialogue.ask (c.env.push key.2 request) (.push key.2 request))
      pure answer.isOk

variable [AssignmentScore]

/-- What the waves read of the pipeline. -/
def pushJob (file : ReproducedFile) (snapshot : List Addr) (chunksToPush : Finset Nat)
    (peers : MapPeerResolver) (failure : Option DiscoveryFailure) : PushJob where
  merkleRoot := file.manifest.merkleRoot
  chunkCount := file.manifest.chunkCount
  snapshot := snapshot
  chunksToPush := chunksToPush
  assignmentReplicationFactor := c.params.assignmentReplicationFactor
  pushRetries := c.params.pushRetries
  peers := peers
  discoveryFailure := failure.map DiscoveryFailure.missing

/-- The first push to each target that is left. -/
def s2Wave (file : ReproducedFile) (job : PushJob) :
    List (Nat × PeerId) → S2State → Stage σ ε S2State
  | [], s => pure s
  | t :: rest, s => do
      let ok ← c.sendOnePush file t
      s2Wave file job rest
        (job.sendRest rest (if ok then { s with attempts := s.attempts.insert t 1 } else s))

/-- A refused push is sent again; its attempt is counted, whatever becomes of it. -/
def s2Resend (file : ReproducedFile) (job : PushJob) (s : S2State) : Stage σ ε S2State :=
  match s.phase with
  | .retrying key => do
      let _ok ← c.sendOnePush file key
      pure (job.loopHead s)
  | _ => pure s

/-- What the loop returns with, as the stage ends with it. -/
def s2Return (failure : Option DiscoveryFailure) :
    Except PushFailure (Finset Addr) → Stage σ S2Failure (Finset Addr)
  | .ok distinct => pure distinct
  | .error e => throw (.early ⟨e.underReplicated, failure⟩)

/-- The loop of S2. -/
def s2Loop (file : ReproducedFile) (job : PushJob) (failure : Option DiscoveryFailure)
    (deadline : Nat) : List Nat → S2State → Stage σ S2Failure (Finset Addr)
  | clock, s =>
      match s.phase with
      | .returned result => s2Return failure result
      | _ =>
          match clock with
          | [] => throw .waiting
          | now :: clock =>
              if deadline ≤ now then s2Return failure (job.audit s)
              else do
                match ← c.nextEvent with
                | .timer | .closed => s2Return failure (job.audit s)
                | .event event => do
                    let s ← c.s2Resend file job (job.onEvent s event)
                    s2Loop file job failure deadline clock s

/-- `s2_push_chunks`: every archive of the file, and the resolver after the wait. -/
def s2PushChunks (file : ReproducedFile) (snapshot : List Addr) (chunksToPush : Finset Nat)
    (peers : MapPeerResolver) (clock : IngestClock) :
    Stage σ S2Failure (Finset Addr × MapPeerResolver) := do
  let required := requiredArchives file.manifest.merkleRoot snapshot
    (chunksToPush.sort (· ≤ ·)) c.params.assignmentReplicationFactor
  let (found, peers) ← c.awaitArchives required peers clock.pushDiscovery
  let job := c.pushJob file snapshot chunksToPush peers (discoveryFailure? found)
  let s ← c.s2Wave file job job.targets job.opening
  let distinct ← c.s2Loop file job (discoveryFailure? found)
    (clock.push.headD 0 + c.params.pushWaitSecs) clock.push.tail s
  pure (distinct, peers)

/-! ### S3 and S4 -/

omit [Blake3] [AssignmentScore]

/-- Whom the manifest goes to: one peer for each archive that has one. -/
def manifestTargets (distinctAssigned : Finset Addr) (peers : MapPeerResolver) : Finset PeerId :=
  ((distinctAssigned.sort (· ≤ ·)).filterMap peers.resolve).toFinset

/-- The push to each of them; the first that fails ends the stage. -/
def s3Wave (request : ShardRequestV2) : List PeerId → Stage σ IngestError Unit
  | [] => pure ()
  | peer :: rest => do
      Dialogue.query (c.env.push peer request) (.push peer request)
        fun e => .early (.manifestSend e)
      s3Wave request rest

/-- The loop of S3: who has acknowledged when it ends. -/
def s3Loop (merkleRoot : Hash) (needed : Finset PeerId) (deadline : Nat) :
    List Nat → Finset PeerId → Stage σ ε (Finset PeerId)
  | clock, acked =>
      if needed.card ≤ acked.card then pure acked
      else
        match clock with
        | [] => throw .waiting
        | now :: clock =>
            if deadline ≤ now then pure acked
            else do
              match ← c.nextEvent with
              | .timer | .closed => pure acked
              | .event event =>
                  s3Loop merkleRoot needed deadline clock
                    (noteManifestAck merkleRoot needed event acked)

/-- `s3_push_manifest`. -/
def s3PushManifest (file : ReproducedFile) (distinctAssigned : Finset Addr)
    (peers : MapPeerResolver) (clock : List Nat) : Stage σ IngestError Unit := do
  let needed := manifestTargets distinctAssigned peers
  let request := manifestPushRequest file.manifest (some file.manifestBytes)
  c.s3Wave request (needed.sort (· ≤ ·))
  let acked ← c.s3Loop file.manifest.merkleRoot needed
    (clock.headD 0 + c.params.manifestPushWaitSecs) clock.tail ∅
  if acked.card < needed.card then throw (.early (.manifestAcks acked.card needed.card))
  else pure ()

/-- The row of the coverage, without a page. -/
def askCoverage (merkleRoot : Hash) : Stage σ ε (Except Str (Option AssignmentCoverageV2)) :=
  ExceptT.lift (Dialogue.ask
    (c.env.coverage.storageGetAssignmentCoverageV2 (fileRootHex merkleRoot) none none)
    (.coverage (fileRootHex merkleRoot) none))

/-- The loop of S4; `last` is the coverage it has seen most recently. -/
def s4Loop (merkleRoot : Hash) (deadline : Nat) :
    List Nat → Option AssignmentCoverageV2 → Stage σ S4WaitError AssignmentCoverageV2
  | clock, last => do
      match pollCoverage last (← c.askCoverage merkleRoot) with
      | .done cov => pure cov
      | .gone => throw (.early .notFound)
      | .again last =>
          match clock with
          | [] => throw .waiting
          | now :: clock =>
              if deadline ≤ now then throw (.early (.timeout last))
              else s4Loop merkleRoot deadline clock last

/-- `s4_wait_coverage`. -/
def s4WaitCoverage (merkleRoot : Hash) (clock : List Nat) :
    Stage σ S4WaitError AssignmentCoverageV2 :=
  c.s4Loop merkleRoot (clock.headD 0 + c.params.activationWaitSecs) clock.tail none

/-! ### The chunks that nobody has attested -/

/-- The loop of `collect_missing_indices`, with at most `calls` calls. -/
def collectLoop (merkleRoot : Hash) : Nat → Nat → Finset Nat → Stage σ Str (Option (Finset Nat))
  | 0, _, _ => throw .waiting
  | calls + 1, offset, missing => do
      match ← Dialogue.query (c.env.coverage.page merkleRoot offset)
          (.coverage (fileRootHex merkleRoot) (some offset)) .early with
      | none => pure none
      | some cov =>
          match cov.missingIndices.getLast? with
          | none => pure (some missing)
          | some last =>
              let missing := missing ∪ cov.missingIndices.toFinset
              let offset := saturatingNext last
              if offset = last then pure (some missing)
              else collectLoop merkleRoot calls offset missing

/-- `collect_missing_indices`. -/
def collectMissingIndices (merkleRoot : Hash) (calls : Nat) :
    Stage σ Str (Option (Finset Nat)) :=
  c.collectLoop merkleRoot calls 0 ∅

end

end Ingest

end Snip
