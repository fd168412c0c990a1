/-
The owner's commands on a V2 file (`sum-node/src/ingest_v2.rs`): `run`, `run_private`,
`resume` and `abandon`, and the exit status of an ingest.

`run` and `run_private` differ in the file that they make of the path and in their texts;
from the wait for the archives on they are one.  `resume` shares the stages from S2 on.
-/
import Snip.Node.IngestStages
import Snip.Store.Serve

namespace Snip

/-- How a command ends that has an outcome only when it is over. -/
inductive Pause where
  | waiting
  | panicked
deriving DecidableEq

/-- An early end is an outcome as well. -/
def Stop.outcome {δ : Type} : Except (Stop δ) δ → Except Pause δ
  | .ok outcome | .error (.early outcome) => .ok outcome
  | .error .waiting => .error .waiting
  | .error .panicked => .error .panicked

/-- What an ingest leaves `Pending`. -/
def leftPending (file : ReproducedFile) (stage : IngestStage)
    (lastCoverage : Option AssignmentCoverageV2) (suggested : SuggestedAction)
    (source : Option IngestError) : IngestOutcome :=
  .pendingNeedsAction
    ⟨file.manifest.merkleRoot, file.manifest, stage, lastCoverage, none, suggested, source⟩

/-- The outcome of S2 that falls short. -/
def leftUnderReplicated (file : ReproducedFile) (lastCoverage : Option AssignmentCoverageV2)
    (e : S2Failure) : IngestOutcome :=
  .pendingNeedsAction
    ⟨file.manifest.merkleRoot, file.manifest, .push, lastCoverage, some e.underReplicated, .resume,
      e.source.map .undiscovered⟩

/-- The outcome of S4 without a coverage that activates. -/
def leftUncovered (file : ReproducedFile) : S4WaitError → IngestOutcome
  | .timeout lastCoverage => leftPending file .coverage lastCoverage .resume none
  | .notFound => leftPending file .coverage none .abandon (some .noCoverage)

/-- The outcome of a resume that ends before it asks for the snapshot. -/
def ResumeStop.outcome : ResumeStop → IngestOutcome
  | rootMismatch expected actual manifest => .rootMismatch expected actual manifest
  | activatedOnChain merkleRoot manifest registerHeight activateHeight =>
      .activatedOnChain merkleRoot manifest registerHeight activateHeight
  | abandonedOnChain merkleRoot manifest abandonedAtHeight =>
      .abandonedOnChain merkleRoot manifest abandonedAtHeight
  | notOwner operatorB58 ownerB58 =>
      .failed .register none (.stopped (.notOwner operatorB58 ownerB58))
  | keyRecovery e => .failed .register none (.stopped (.keyRecovery e))
  | encryption e => .failed .register none (.stopped (.encryption e))
  | activeWithoutHeight merkleRoot manifest =>
      .failed .register (some manifest) (.stopped (.activeWithoutHeight merkleRoot manifest))
  | unexpectedLifecycle lifecycle manifest =>
      .failed .register (some manifest) (.stopped (.unexpectedLifecycle lifecycle manifest))

/-- `AbandonOutcome::Failed`. -/
inductive AbandonError where
  | gate (e : GateError)
  | rowQuery (e : Str)
  | submission (e : SubmitError)

def AbandonError.message [SumchainWire] : AbandonError → Option String
  | gate e => some e.message
  | rowQuery e => some (String.ofList e)
  | submission e =>
      e.message ⟨"AbandonFileV2", " dropped (resubmit with new nonce)", " timeout; last status: "⟩

/-- Why an abandon is not admissible. -/
inductive NotAdmissible where
  | notRegistered (merkleRoot : Hash)
  | lifecycle (byte : LifecycleV2)
  | grace (createdAt blocks : Nat)

def NotAdmissible.reason : NotAdmissible → String
  | notRegistered merkleRoot =>
      "file " ++ String.ofList (fileRootHex merkleRoot) ++ " is not registered on chain"
  | lifecycle byte => "lifecycle byte " ++ toString byte ++ " (expected Pending = 0)"
  | grace createdAt blocks =>
      "activation grace not yet expired (chain plan §3.5: current_height must be > created_at + " ++
        "activation_grace_blocks; created_at=" ++ toString createdAt ++ ", grace=" ++
        toString blocks ++ ")"

inductive AbandonOutcome where
  | abandoned (txHash : Str) (finalizedAtHeight : Nat)
  | notAdmissible (reason : NotAdmissible) (currentHeight earliestAdmissibleHeight : Nat)
  | failed (source : AbandonError)

/-- What is registered: the file, who may read it, and the first access list. -/
structure Registration where
  file : ReproducedFile
  visibility : Nat
  initialAccess : List AccessEntryV2Mirror

namespace Ingest

section

variable {σ : Type} [Blake3] [Bs58] [SumchainWire] [CryptoLib] [FileLifecycleWire]
  [AssignmentScore] (c : Ingest σ)

/-! ### From the push on -/

/-- S2 to S4; `probed` is what a resume has read of the coverage before. -/
def pushUntilCovered (file : ReproducedFile) (snapshot : List Addr) (chunksToPush : Finset Nat)
    (probed : Option AssignmentCoverageV2) (peers : MapPeerResolver) (clock : IngestClock) :
    Stage σ IngestOutcome AssignmentCoverageV2 := do
  let (distinctAssigned, peers) ←
    (c.s2PushChunks file snapshot chunksToPush peers clock).orReturn
      (leftUnderReplicated file probed)
  (c.s3PushManifest file distinctAssigned peers clock.manifestPush).orReturn fun e =>
    leftPending file .manifestPush probed .resume (some e)
  (c.s4WaitCoverage file.manifest.merkleRoot clock.coverage).orReturn (leftUncovered file)

/-- S5. -/
def activate (file : ReproducedFile) (lastCoverage : AssignmentCoverageV2) (clock : List Nat) :
    Stage σ IngestOutcome (Str × Nat) :=
  (c.s5Activate file.manifest.merkleRoot clock).orReturn fun e =>
    leftPending file .activate (some lastCoverage) .resume (some (.activation e))

/-! ### `run` and `run_private` -/

/-- What follows the registration. -/
def afterRegistration (command : IngestCommand) (file : ReproducedFile) (peers : MapPeerResolver)
    (clock : IngestClock) : Stage σ IngestOutcome (Str × Nat) := do
  let (info, snapshot) ← (c.fetchAssignmentInputs file.manifest.merkleRoot).orReturn fun e =>
    leftPending file .push none .resume (some e)
  if snapshot = [] then
    throw (.early (leftPending file .push none .abandon
      (some (.emptySnapshot command info.assignmentHeight))))
  else
  let lastCoverage ← c.pushUntilCovered file snapshot (Finset.range file.manifest.chunkCount) none
    peers clock
  c.activate file lastCoverage clock.activation

/-- What follows the check of the chunk count. -/
def registerAndActivate (command : IngestCommand) (r : Registration) (peers : MapPeerResolver)
    (clock : IngestClock) : Stage σ IngestOutcome IngestOutcome := do
  let manifest := r.file.manifest
  let peers ← (c.s1aRequireArchives manifest.merkleRoot manifest.chunkCount peers
    clock.discovery).orReturn fun e => .failed .register (some manifest) e
  let (registerTxHash, registerHeight) ←
    (c.s1RegisterPending r.file r.visibility r.initialAccess clock.registration).orReturn fun e =>
      .failed .register (some manifest) (.registration e)
  let (activateTxHash, activateHeight) ← c.afterRegistration command r.file peers clock
  pure (.activated manifest.merkleRoot manifest registerTxHash registerHeight activateTxHash
    activateHeight)

/-- What comes before anything is made of the file. -/
def preflight (command : IngestCommand) : Stage σ IngestOutcome Unit :=
  if c.params.assignmentReplicationFactor = 0 then
    throw (.early (.failed .register none (.zeroReplication command)))
  else do
    let _height ← (c.checkV2Enabled).orReturn fun e => .failed .register none (.gate e)
    pure ()

/-- The steps of `run` and of `run_private`; `made` is what they make of the file. -/
def ingestStage (command : IngestCommand) (made : Except IngestOutcome Registration)
    (peers : MapPeerResolver) (clock : IngestClock) : Stage σ IngestOutcome IngestOutcome := do
  c.preflight command
  let r ← Dialogue.orStop (made.mapError .early)
  c.registerAndActivate command r peers clock

/-- What `run` makes of the content of the path. -/
def publicRegistration (fileName : Str) (content : Except Str Bytes) :
    Except IngestOutcome Registration :=
  match content with
  | .error e => .error (.failed .register none (.chunking e))
  | .ok mapped =>
      let file := ReproducedFile.ofPublic fileName mapped
      if c.maxChunkCountPerFile < file.manifest.chunkCount then
        .error (.failed .register (some file.manifest)
          (.tooManyChunks .run file.manifest.chunkCount c.maxChunkCountPerFile))
      else .ok ⟨file, 0, []⟩

/-- What `run_private` makes of it; `kFile` and `ephSeeds` are what it draws. -/
def privateRegistration (kFile : Hash) (ephSeeds : Nat → Hash) (fileName : Str)
    (content : Except Str Bytes) (recipients : List PrivateRecipient) :
    Except IngestOutcome Registration :=
  match content with
  | .error e => .error (.failed .register none (.chunking e))
  | .ok plaintext =>
      match c.runPrivate kFile ephSeeds fileName plaintext recipients with
      | .error (.encryption e) => .error (.failed .register none (.encryption e))
      | .error (.tooManyChunks manifest limit) =>
          .error (.failed .register (some manifest)
            (.tooManyChunks .runPrivate manifest.chunkCount limit))
      | .ok encrypted => .ok ⟨.ofPrivate encrypted.artifacts, 1, encrypted.initialAccess⟩

/-- A command with its early ends. -/
def outcomeOf {δ : Type} (m : Stage σ δ δ) : Dialogue σ IngestCall (Except Pause δ) := do
  let out ← m.run
  pure (Stop.outcome out)

/-- `run`. -/
def run (fileName : Str) (content : Except Str Bytes) (peers : MapPeerResolver)
    (clock : IngestClock) : Dialogue σ IngestCall (Except Pause IngestOutcome) :=
  outcomeOf (c.ingestStage .run (c.publicRegistration fileName content) peers clock)

/-- `run_private`. -/
def runPrivately (kFile : Hash) (ephSeeds : Nat → Hash) (fileName : Str)
    (content : Except Str Bytes) (recipients : List PrivateRecipient) (peers : MapPeerResolver)
    (clock : IngestClock) : Dialogue σ IngestCall (Except Pause IngestOutcome) :=
  outcomeOf (c.ingestStage .runPrivate
    (c.privateRegistration kFile ephSeeds fileName content recipients) peers clock)

/-! ### The exit status -/

/-- `root_on_chain` after the V2 table: without a row there the V1 table decides. -/
def rootWithoutRow (rootHex : Str) (v2 : Except Str (Option RegisteredFilePage)) :
    Dialogue σ IngestCall (RootOnChain × List Str) := do
  match v2, ← Dialogue.ask (c.env.v1RootRegistered rootHex) (.v1Root rootHex) with
  | _, .ok true => pure (.registered, [])
  | .error e2, .error e1 => pure (.lookupFailed, [e2, e1])
  | .error e, .ok false | .ok _, .error e => pure (.lookupFailed, [e])
  | .ok _, .ok false => pure (.notRegistered, [])

/-- `root_on_chain`: a row in either table counts, whatever the other lookup did. -/
def rootOnChain (rootHex : Str) : Dialogue σ IngestCall (RootOnChain × List Str) := do
  match ← Dialogue.ask (c.env.storageGetFileInfoV2 rootHex) (.fileInfo rootHex) with
  | .ok (some _) => pure (.registered, [])
  | v2 => c.rootWithoutRow rootHex v2

/-- The lookup, for a registration that was not sent or was rejected, and only then. -/
def rootOfRefused (outcome : IngestOutcome) : Dialogue σ IngestCall (RootOnChain × List Str) :=
  match outcome.registrationTx, outcome.merkleRoot with
  | some .notSent, some merkleRoot | some .rejected, some merkleRoot =>
      c.rootOnChain (fileRootHex merkleRoot)
  | _, _ => pure (.notLookedUp, [])

/-- `ingest_exit_status`. -/
def ingestExitStatus (outcome : IngestOutcome) : Dialogue σ IngestCall IngestExitStatus := do
  let (root, errors) ← c.rootOfRefused outcome
  pure ⟨outcome.ingestExitCode root, root, errors⟩

/-- What the command line makes of a run with `--exit-status`. -/
def withExitStatus (m : Dialogue σ IngestCall (Except Pause IngestOutcome)) :
    Dialogue σ IngestCall (Except Pause (IngestOutcome × IngestExitStatus)) := do
  match ← m with
  | .error pause => pure (.error pause)
  | .ok outcome =>
      let status ← c.ingestExitStatus outcome
      pure (.ok (outcome, status))

/-! ### `resume` -/

/-- What a resume pushes unless the file can be activated already. -/
def resumeCoverage (file : ReproducedFile) (snapshot : List Addr) (peers : MapPeerResolver)
    (calls : Nat) (clock : IngestClock) : Stage σ IngestOutcome AssignmentCoverageV2 := do
  match ← c.askCoverage file.manifest.merkleRoot with
  | .error e => throw (.early (leftPending file .coverage none .resume (some (.coverageQuery e))))
  | .ok none => throw (.early (leftPending file .coverage none .abandon (some .resumeNoCoverage)))
  | .ok (some coverage) =>
  if coverage.canActivateNow then pure coverage
  else
  match ← (c.collectMissingIndices file.manifest.merkleRoot calls).orReturn fun e =>
      leftPending file .coverage (some coverage) .resume (some (.coverageQuery e)) with
  | none =>
      throw (.early
        (leftPending file .coverage (some coverage) .abandon (some .missingIndicesGone)))
  | some missing => c.pushUntilCovered file snapshot missing (some coverage) peers clock

/-- `resume` of a file that is rebuilt and still pending. -/
def resumePending (info : RegisteredFilePage) (file : ReproducedFile) (peers : MapPeerResolver)
    (calls : Nat) (clock : IngestClock) : Stage σ IngestOutcome IngestOutcome := do
  let snapshot ← (c.readSnapshot info.assignmentHeight).orReturn fun e =>
    leftPending file .push none .resume (some e)
  if snapshot = [] then
    throw (.early (leftPending file .push none .abandon
      (some (.emptySnapshot .resume info.assignmentHeight))))
  else
  let lastCoverage ← c.resumeCoverage file snapshot peers calls clock
  let (activateTxHash, activateHeight) ← c.activate file lastCoverage clock.activation
  pure (.resumedActivated file.manifest.merkleRoot file.manifest info.createdAt activateTxHash
    activateHeight)

/-- What `resume` makes of the content of the path, or how it ends there. -/
def resumeContent (info : RegisteredFilePage) (merkleRoot : Hash) (fileName : Str)
    (content : Except Str Bytes) : Except IngestOutcome ReproducedFile :=
  match content with
  | .ok content => (c.resumeFile info merkleRoot fileName content).mapError ResumeStop.outcome
  | .error e =>
      if !info.visibility.isPrivate then .error (.failed .register none (.chunking e))
      -- The owner and the key are checked before the path is opened.
      else if info.owner ≠ c.myAddrBase58 then
        .error (ResumeStop.notOwner c.myAddrBase58 info.owner).outcome
      else
        match c.recoverKFile info.toOwnedFilePage with
        | .error stop => .error (ResumeStop.keyRecovery stop).outcome
        | .ok _ => .error (.failed .register none (.resumeUnread e))

/-- `resume`, as a stage. -/
def resumeStage (merkleRoot : Hash) (fileName : Str) (content : Except Str Bytes)
    (peers : MapPeerResolver) (calls : Nat) (clock : IngestClock) :
    Stage σ IngestOutcome IngestOutcome := do
  c.preflight .resume
  let rootHex := fileRootHex merkleRoot
  match ← Dialogue.query (c.env.storageGetFileInfoV2 rootHex) (.fileInfo rootHex)
      fun e => .early (.failed .register none (.resumeRowQuery e)) with
  | none => throw (.early (.failed .register none (.resumeNoRow merkleRoot)))
  | some info =>
  let file ← Dialogue.orStop ((c.resumeContent info merkleRoot fileName content).mapError .early)
  c.resumePending info file peers calls clock

/-- `resume`. -/
def resume (merkleRoot : Hash) (fileName : Str) (content : Except Str Bytes)
    (peers : MapPeerResolver) (calls : Nat) (clock : IngestClock) :
    Dialogue σ IngestCall (Except Pause IngestOutcome) :=
  outcomeOf (c.resumeStage merkleRoot fileName content peers calls clock)

/-! ### `abandon` -/

/-- The transaction of `abandon`. -/
def abandonTx (merkleRoot : Hash) (nonce : Nat) : Str :=
  buildAbandonFileV2Tx c.signingKeySeed c.params.chainId nonce c.params.feePerTx merkleRoot

/-- `created_at + activation_grace_blocks + 1`, each sum cut off at `u64::MAX`. -/
def earliestAdmissible (createdAt : Nat) : Nat :=
  saturatingAdd64 (saturatingAdd64 createdAt c.params.activationGraceBlocks) 1

/-- `abandon`, as a stage. -/
def abandonStage (merkleRoot : Hash) (clock : List Nat) : Stage σ AbandonOutcome AbandonOutcome :=
  do
  let currentHeight ← (c.checkV2Enabled).orReturn fun e => .failed (.gate e)
  let rootHex := fileRootHex merkleRoot
  match ← Dialogue.query (c.env.storageGetFileInfoV2 rootHex) (.fileInfo rootHex)
      fun e => .early (.failed (.rowQuery e)) with
  | none => throw (.early (.notAdmissible (.notRegistered merkleRoot) currentHeight 0))
  | some info =>
  if !info.lifecycle.isPending then
    throw (.early (.notAdmissible (.lifecycle info.lifecycle) currentHeight 0))
  else if currentHeight < c.earliestAdmissible info.createdAt then
    throw (.early (.notAdmissible (.grace info.createdAt c.params.activationGraceBlocks)
      currentHeight (c.earliestAdmissible info.createdAt)))
  else
  let (txHash, height) ← (c.submit (c.abandonTx merkleRoot) clock).orReturn fun e =>
    .failed (.submission e)
  pure (.abandoned txHash height)

/-- `abandon`. -/
def abandon (merkleRoot : Hash) (clock : List Nat) :
    Dialogue σ IngestCall (Except Pause AbandonOutcome) :=
  outcomeOf (c.abandonStage merkleRoot clock)

end

end Ingest

end Snip
