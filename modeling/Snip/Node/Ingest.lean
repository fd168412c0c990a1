/-
What an ingest reports (`sum-node/src/ingest_v2.rs`).

`run` and `run_private` register a file and see it through to `Active`; `resume` takes up
a file that is still `Pending`.  Here are their parameters, the calls they make, the
outcomes with the errors inside them, and the exit codes that the command line makes of an
outcome.  The stages themselves are in `Node/IngestStages`.

Times are whole seconds.  The chain and the network are an environment with a state of its
own: answers may change between any two calls.
-/
import Snip.Node.MissingIndices
import Snip.Node.PeerDiscovery
import Snip.Node.Rebuild
import Snip.Node.Targets

namespace Snip

/-! ### Parameters and calls -/

/-- `IngestParams`; the limit on the chunk count is the pipeline's. -/
structure IngestParams where
  assignmentReplicationFactor : Nat
  chainId : Nat
  feePerTx : Nat
  feeDeposit : Nat
  activationWaitSecs : Nat
  finalityTimeout : Nat
  pushRetries : Nat
  pushWaitSecs : Nat
  manifestPushWaitSecs : Nat
  discoveryTimeout : Nat
  activationGraceBlocks : Nat
  v2EnabledFromHeight : Option Nat

/-- `V2IngestRpc` and `V2IngestNet`. -/
structure IngestEnv (σ : Type) where
  /-- The finalized height. -/
  chainGetBlockHeight : σ → Except Str Nat × σ
  storageGetActiveNodesAtHeight : Nat → σ → Except Str (List NodeRecordInfo) × σ
  storageGetFileInfoV2 : Str → σ → Except Str (Option RegisteredFilePage) × σ
  coverage : CoverageRpc σ
  getNonce : Str → σ → Except Str Nat × σ
  v1RootRegistered : Str → σ → Except Str Bool × σ
  /-- What sends a transaction and tells its status. -/
  submission : ReassignRpc σ
  /-- `push_chunk_v2` and `push_manifest_v2`. -/
  push : PeerId → ShardRequestV2 → σ → Except Str Unit × σ
  /-- `next_event`, or the timer beside it. -/
  nextEvent : σ → Wake × σ

/-- A call with its answer. -/
inductive IngestCall where
  | blockHeight (answer : Except Str Nat)
  | activeNodes (height : Nat) (answer : Except Str (List NodeRecordInfo))
  | fileInfo (rootHex : Str) (answer : Except Str (Option RegisteredFilePage))
  | coverage (rootHex : Str) (offset : Option Nat)
      (answer : Except Str (Option AssignmentCoverageV2))
  | nonce (addrB58 : Str) (answer : Except Str Nat)
  | v1Root (rootHex : Str) (answer : Except Str Bool)
  | submission (call : RpcCall)
  | push (peer : PeerId) (request : ShardRequestV2) (answer : Except Str Unit)
  | wake (wake : Wake)

/-- The call about a transaction, if it is one. -/
def IngestCall.submission? : IngestCall → Option RpcCall
  | .submission call => some call
  | _ => none

/-- The transaction a call submits, if it does. -/
def IngestCall.sent? (call : IngestCall) : Option Str := call.submission?.bind RpcCall.sent?

/-! ### Errors -/

/-- Whose texts an error uses. -/
inductive IngestCommand where
  | run
  | runPrivate
  | resume
deriving DecidableEq

/-- Why `check_v2_enabled` refuses. -/
inductive GateError where
  | heightQuery (e : Str)
  | disabled
  | notYet (height enabledAt : Nat)

def GateError.message : GateError → String
  | heightQuery e => String.ofList e
  | disabled =>
      "V2 disabled on this chain (chain_getChainParams.v2_enabled_from_height = null) — " ++
        "refusing to submit V2 lifecycle tx; the chain would reject it"
  | notYet height enabledAt =>
      "V2 not enabled yet: finalized height " ++ toString height ++ " < v2_enabled_from_height " ++
        toString enabledAt ++ " (" ++ toString (enabledAt - height) ++
        " blocks remaining); refusing to submit V2 lifecycle tx — the chain would reject it and " ++
        "burn the fee"

/-- Where a submission stopped: before it was sent, in the call, or in the wait after it. -/
inductive SubmitError where
  | nonceQuery (e : Str)
  | send (e : String)
  | wait (txHash : Str) (e : TxWaitError)

/-- How the texts about a submission differ between the commands. -/
structure SubmitTexts where
  operation : String
  dropped : String
  timeout : String

/-- The text of the error; a wait that is not over has none. -/
def SubmitError.message [SumchainWire] (texts : SubmitTexts) : SubmitError → Option String
  | nonceQuery e => some (String.ofList e)
  | send e => some e
  | wait _ (.failed _ reason) => some (texts.operation ++ " failed: " ++ String.ofList reason)
  | wait _ .dropped => some (texts.operation ++ texts.dropped)
  | wait _ (.timeout lastStatus) => some (texts.operation ++ texts.timeout ++ lastStatus.debug)
  | wait _ (.rpc e) => some e
  | wait _ .waiting => none

/-- What became of the registration. -/
inductive RegistrationTx where
  | notSent
  | rejected
  | unconfirmed
deriving DecidableEq

/-- `SentRegistrationError`: nothing of it before the transaction was sent. -/
def SubmitError.sentRegistration? : SubmitError → Option RegistrationTx
  | nonceQuery _ => none
  | send _ => some .unconfirmed
  | wait _ (.failed ..) | wait _ .dropped => some .rejected
  | wait _ (.timeout _) | wait _ (.rpc _) | wait _ .waiting => some .unconfirmed

/-- `{:?}` of a time of whole seconds. -/
def debugSecs (n : Nat) : String := if n = 0 then "0ns" else toString n ++ "s"

/-- `fmt_addrs`. -/
def fmtAddrs [Blake3] [Bs58] (addrs : List Addr) : String :=
  String.intercalate ", " (addrs.map fun a => String.ofList (l1AddressBase58 a))

def DiscoveryFailure.message [Blake3] [Bs58] : DiscoveryFailure → String
  | timedOut required missing waited =>
      "peer discovery timed out after " ++ debugSecs waited ++ ": " ++ toString missing.length ++
        " of " ++ toString required ++ " required archives were not identified on the network " ++
        "(counted by chain address): " ++ fmtAddrs missing
  | networkClosed required missing =>
      "peer discovery stopped because the network shut down: " ++ toString missing.length ++
        " of " ++ toString required ++ " required archives were not identified " ++
        "(counted by chain address): " ++ fmtAddrs missing

/-- What the outcomes carry as their source. -/
inductive IngestError where
  | zeroReplication (command : IngestCommand)
  | gate (e : GateError)
  | chunking (e : Str)
  | encryption (e : PrivateIngestError)
  | tooManyChunks (command : IngestCommand) (chunkCount limit : Nat)
  | headQuery (e : Str)
  | headNodesQuery (height : Nat) (e : Str)
  | snapshotAddress
  | tooFewArchives (eligible height r : Nat)
  | unreachable (f : DiscoveryFailure)
  | registration (e : SubmitError)
  | rowQuery (e : Str)
  | noRow (merkleRoot : Hash)
  | nodesQuery (e : Str)
  | emptySnapshot (command : IngestCommand) (height : Nat)
  | undiscovered (f : DiscoveryFailure)
  | manifestSend (e : Str)
  | manifestAcks (acked needed : Nat)
  | noCoverage
  | activation (e : SubmitError)
  | stopped (stop : ResumeStop)
  | resumeRowQuery (e : Str)
  | resumeNoRow (merkleRoot : Hash)
  | resumeUnread (e : Str)
  | resumeNoCoverage
  | missingIndicesGone
  | coverageQuery (e : Str)

/-- The text of a registration without targets. -/
def zeroReplicationText : IngestCommand → String
  | .run =>
      "ingest-v2: assignment_replication_factor is 0; refusing to register a file with no " ++
        "assignment targets. No S1 tx was submitted; no chain state created; no fees spent."
  | .runPrivate =>
      "ingest-v2 (private): assignment_replication_factor is 0; refusing to encrypt and " ++
        "register a file with no assignment targets. No S1 tx was submitted; no chain state " ++
        "created."
  | .resume =>
      "resume: assignment_replication_factor is 0; refusing to resume a Pending file with no " ++
        "assignment targets. No S2/S3 push and no S5 tx submitted. " ++
        "The Pending file on chain is unchanged."

/-- The text of a snapshot without archives. -/
def emptySnapshotText (height : Nat) : IngestCommand → String
  | .run =>
      "file is registered as Pending, but its pinned assignment snapshot at height " ++
        toString height ++ " contains no eligible archives (role=ArchiveNode && status=Active) " ++
        "after filtering. That historical snapshot will not change when archives join later — " ++
        "storage_getActiveNodesAtHeight(" ++ toString height ++ ") queries chain history at a " ++
        "fixed height. No chunks were pushed. Abandon the Pending file when admissible " ++
        "(current_height > created_at + activation_grace_blocks). If the chain reports " ++
        "reassignment_needed, \x60sum-node reassign\x60 can submit ReassignChunksV2 to append a " ++
        "new assignment epoch, but SNIP does not yet push or attest under a later epoch, so " ++
        "that is not a complete recovery in this release."
  | .runPrivate =>
      "private file is registered as Pending, but its pinned assignment snapshot at height " ++
        toString height ++ " contains no eligible archives (role=ArchiveNode && status=Active) " ++
        "after filtering. That historical snapshot will not change when archives join later. " ++
        "No chunks were pushed. Abandon when admissible. If the chain reports " ++
        "reassignment_needed, \x60sum-node reassign\x60 can submit ReassignChunksV2, but SNIP " ++
        "does not yet push or attest under a later epoch, so that is not a complete recovery in " ++
        "this release."
  | .resume =>
      "resume: pinned assignment snapshot at height " ++ toString height ++
        " contains no eligible archives after filtering. Historical chain state at that height " ++
        "is immutable — subsequent \x60resume\x60 calls will observe the same empty snapshot. " ++
        "The file remains Pending on chain. Abandon when admissible. If the chain reports " ++
        "reassignment_needed, \x60sum-node reassign\x60 can submit ReassignChunksV2 to append a " ++
        "new assignment epoch, but SNIP does not yet push or attest under a later epoch, so " ++
        "that is not a complete recovery in this release."

/-- The text of the error; an address that does not decode adds its own. -/
def IngestError.message [Blake3] [Bs58] [SumchainWire] : IngestError → Option String
  | zeroReplication command => some (zeroReplicationText command)
  | gate e => some e.message
  | chunking e => some (String.ofList e)
  | encryption e => e.message
  | tooManyChunks command chunkCount limit =>
      some ((if command = .runPrivate then "private ingest: " else "") ++ "chunk_count " ++
        toString chunkCount ++ " exceeds max_chunk_count_per_file " ++ toString limit)
  | headQuery _ => some "S1a: chain_getBlockHeight before registration"
  | headNodesQuery height _ =>
      some ("S1a: storage_getActiveNodesAtHeight(" ++ toString height ++ ") before registration")
  | snapshotAddress => none
  | tooFewArchives eligible height r =>
      some ("ingest-v2: the chain lists " ++ toString eligible ++ " eligible archives at height " ++
        toString height ++ ", but every chunk needs R=" ++ toString r ++
        " distinct archives, so the file could not be replicated. Refusing to register it: no " ++
        "S1 tx was submitted; no chain state created; no fees spent.")
  | unreachable f =>
      some ("ingest-v2: " ++ f.message ++ ". Refusing to register the file: no S1 tx was " ++
        "submitted; no chain state created; no fees spent. Retry once those archives are " ++
        "reachable.")
  | registration e =>
      e.message ⟨"RegisterFilePendingV2", " dropped (resubmit with new nonce)",
        " timeout, last status: "⟩
  | rowQuery e | nodesQuery e | manifestSend e | coverageQuery e => some (String.ofList e)
  | noRow merkleRoot =>
      some ("storage_getFileInfoV2 returned no row for registered file " ++
        String.ofList (fileRootHex merkleRoot))
  | emptySnapshot command height => some (emptySnapshotText height command)
  | undiscovered f => some f.message
  | manifestAcks acked needed =>
      some ("ManifestPush: only " ++ toString acked ++ " of " ++ toString needed ++
        " assigned-archive targets ACKed")
  | noCoverage =>
      some ("storage_getAssignmentCoverageV2 returned no row (null) — coverage is not tracked " ++
        "for this file; cannot activate")
  | activation e => e.message ⟨"ActivateFileV2", " dropped", " timeout, last status: "⟩
  | stopped stop => stop.message
  | resumeRowQuery _ => some "resume: storage_getFileInfoV2 failed"
  | resumeNoRow merkleRoot =>
      some ("resume: storage_getFileInfoV2 returned no row — file " ++
        String.ofList (fileRootHex merkleRoot) ++ " is not registered on chain")
  | resumeUnread _ => some "resume (Private): re-encryption with recovered K_file failed"
  | resumeNoCoverage =>
      some ("resume: storage_getAssignmentCoverageV2 returned no row (null) — coverage is not " ++
        "tracked for this file; cannot activate")
  | missingIndicesGone =>
      some ("resume: storage_getAssignmentCoverageV2 returned no row (null) while collecting " ++
        "missing indices — coverage no longer tracked")

/-! ### Outcomes and exit codes -/

inductive IngestStage where
  | register
  | push
  | manifestPush
  | coverage
  | activate
deriving DecidableEq

inductive SuggestedAction where
  | resume
  | abandon
deriving DecidableEq

/-- What `PendingNeedsAction` says about a file that is left behind. -/
structure PendingFile where
  merkleRoot : Hash
  manifest : DataManifest
  failedStage : IngestStage
  lastCoverage : Option AssignmentCoverageV2
  underReplicatedChunks : Option (List Nat)
  suggested : SuggestedAction
  source : Option IngestError

inductive IngestOutcome where
  | activated (merkleRoot : Hash) (manifest : DataManifest) (registerTxHash : Str)
      (registerHeight : Nat) (activateTxHash : Str) (activateHeight : Nat)
  | activatedOnChain (merkleRoot : Hash) (manifest : DataManifest)
      (registerHeight activateHeight : Nat)
  | resumedActivated (merkleRoot : Hash) (manifest : DataManifest) (registerHeight : Nat)
      (activateTxHash : Str) (activateHeight : Nat)
  | abandonedOnChain (merkleRoot : Hash) (manifest : DataManifest) (abandonedAtHeight : Option Nat)
  | rootMismatch (expected actual : Hash) (manifest : DataManifest)
  | failed (stage : IngestStage) (manifest : Option DataManifest) (source : IngestError)
  | pendingNeedsAction (file : PendingFile)

/-- `downcast_ref::<SentRegistrationError>`. -/
def IngestError.sentRegistration? : IngestError → Option RegistrationTx
  | registration e => e.sentRegistration?
  | _ => none

namespace IngestOutcome

def registrationTx : IngestOutcome → Option RegistrationTx
  | failed .register _ source => some (source.sentRegistration?.getD .notSent)
  | _ => none

def manifest : IngestOutcome → Option DataManifest
  | activated _ manifest _ _ _ _ | activatedOnChain _ manifest _ _
  | resumedActivated _ manifest _ _ _ | abandonedOnChain _ manifest _
  | rootMismatch _ _ manifest => some manifest
  | pendingNeedsAction file => some file.manifest
  | failed _ manifest _ => manifest

def merkleRoot (outcome : IngestOutcome) : Option Hash :=
  outcome.manifest.map DataManifest.merkleRoot

end IngestOutcome

/-- What the chain holds for a root, as far as the lookups tell. -/
inductive RootOnChain where
  | registered
  | notRegistered
  | lookupFailed
  | notLookedUp
deriving DecidableEq

namespace ResumeExit

def active : Nat := 0
def error : Nat := 1
def pending : Nat := 3
def abandoned : Nat := 4
def rootMismatch : Nat := 5

end ResumeExit

namespace IngestExit

def active : Nat := ResumeExit.active
def error : Nat := ResumeExit.error
def pending : Nat := ResumeExit.pending
def abandoned : Nat := ResumeExit.abandoned
def refused : Nat := 6
def alreadyRegistered : Nat := 7
def registrationUnconfirmed : Nat := 8

end IngestExit

namespace IngestOutcome

/-- The code of a registration that was not sent or was rejected. -/
def refusalCode (outcome : IngestOutcome) : RootOnChain → Nat
  | .registered => IngestExit.alreadyRegistered
  | .notRegistered => IngestExit.refused
  -- Stopped before there was a root to look up.
  | .notLookedUp => if outcome.merkleRoot = none then IngestExit.refused else IngestExit.error
  | .lookupFailed => IngestExit.error

def ingestExitCode (outcome : IngestOutcome) (root : RootOnChain) : Nat :=
  match outcome with
  | activated .. | resumedActivated .. | activatedOnChain .. => IngestExit.active
  | pendingNeedsAction _ => IngestExit.pending
  | abandonedOnChain .. => IngestExit.abandoned
  | rootMismatch .. => IngestExit.error
  | failed .. =>
      match outcome.registrationTx with
      | some .unconfirmed => IngestExit.registrationUnconfirmed
      | some .notSent | some .rejected => outcome.refusalCode root
      | none => IngestExit.error

def resumeExitCode : IngestOutcome → Nat
  | activated .. | resumedActivated .. | activatedOnChain .. => ResumeExit.active
  | pendingNeedsAction _ => ResumeExit.pending
  | abandonedOnChain .. => ResumeExit.abandoned
  | rootMismatch .. => ResumeExit.rootMismatch
  | failed .. => ResumeExit.error

end IngestOutcome

/-- `IngestExitStatus`. -/
structure IngestExitStatus where
  code : Nat
  rootOnChain : RootOnChain
  /-- What the lookups that failed said. -/
  lookupErrors : List Str

end Snip
