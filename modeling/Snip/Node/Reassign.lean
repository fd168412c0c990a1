/-
The owner's `reassign` command (`sum-node/src/reassign_v2.rs`).

It reads the chain, decides whether an archive that has left holds a chunk of the file,
has the chain build the transaction, checks every byte of it, signs and submits.  The RPC
is an environment with a state of its own: answers may change between any two calls.
`sumchain_wire` and the Ed25519 library are parameters; so are the texts of their errors.
-/
import Snip.Lib.Dialogue
import Snip.Node.Acl
import Snip.Store.Assignment

namespace Snip

/-- `ArchiveCoverageSummaryV2`. -/
structure ArchiveCoverageSummaryV2 where
  archive : Str
  assignedCount : Option Nat
  attestedCount : Nat
  currentlyActive : Bool
deriving DecidableEq

/-- `AssignmentEpochCoverageV2`. -/
structure AssignmentEpochCoverageV2 where
  epochHeight : Nat
  isEpochZero : Bool
  coveredCount : Nat
  perArchive : List ArchiveCoverageSummaryV2
deriving DecidableEq

structure AssignmentCoverageV2 where
  chunkCount : Nat
  coveredCount : Nat
  canActivateNow : Bool
  missingTotal : Nat
  missingOffset : Nat
  missingIndices : List Nat
  /-- Of epoch 0 only. -/
  perArchive : List ArchiveCoverageSummaryV2
  assignmentEpochs : List Nat
  latestAssignmentEpoch : Nat
  reassignmentNeeded : Bool
  perEpoch : List AssignmentEpochCoverageV2
deriving DecidableEq

/-- `resolved_latest_epoch`: an old chain sends no epochs. -/
def AssignmentCoverageV2.resolvedLatestEpoch (c : AssignmentCoverageV2) : Option Nat :=
  if c.assignmentEpochs = [] then none else some c.latestAssignmentEpoch

structure BlockHeadInfo where
  height : Nat
  hash : Str
  stateRoot : Str
deriving DecidableEq

structure StorageBuildResponse where
  unsignedTx : Str
  signingHash : Str
  sender : Str
  nonce : Nat
  fee : Nat
  chainId : Nat
deriving DecidableEq

/-- `TxPayload`: the one operation this command asks for, and all others. -/
inductive TxPayloadV2 where
  | reassignChunksV2 (merkleRoot : Hash)
  | other (data : Bytes)
deriving DecidableEq

structure TransactionV2 where
  chainId : Nat
  sender : Addr
  nonce : Nat
  fee : Nat
  payload : TxPayloadV2
deriving DecidableEq

inductive TxStatusV2 where
  | unknown
  | pending
  | included (blockHeight : Nat)
  | finalized (blockHeight : Nat)
  | failed (blockHeight : Option Nat) (reason : Str)
  | dropped
deriving DecidableEq

/-- What the command takes from `sumchain_wire`, from `ed25519_dalek` and from `hex`. -/
class SumchainWire where
  /-- `Address::from_base58`. -/
  fromBase58 : Str → Except Str Addr
  /-- `Address::to_base58`. -/
  toBase58 : Addr → Str
  /-- `TransactionV2::from_bytes`. -/
  fromBytes : Bytes → Except Str TransactionV2
  /-- `TransactionV2::to_bytes`. -/
  toBytes : TransactionV2 → Bytes
  /-- `TransactionV2::signing_hash`. -/
  signingHash : TransactionV2 → Hash
  /-- `SigningKey::from_bytes(seed).verifying_key()`. -/
  verifyingKey : Hash → Hash
  /-- `Address::from_public_key`. -/
  fromPublicKey : Hash → Addr
  /-- `SigningKey::from_bytes(seed).sign`. -/
  sign : Hash → Bytes → Bytes
  /-- `SignedTransaction::new_v2(tx, signature, public_key).to_hex()`. -/
  signedHex : TransactionV2 → Bytes → Hash → Str
  /-- The text of `hex::decode`'s error. -/
  hexError : Str → Str
  /-- `{:?}` of a text. -/
  debugText : Str → Str

/-- `{:?}` of a status. -/
def TxStatusV2.debug [SumchainWire] : TxStatusV2 → String
  | .unknown => "Unknown"
  | .pending => "Pending"
  | .included blockHeight => "Included \x7b block_height: " ++ toString blockHeight ++ " \x7d"
  | .finalized blockHeight => "Finalized \x7b block_height: " ++ toString blockHeight ++ " \x7d"
  | .failed blockHeight reason =>
      "Failed \x7b block_height: " ++
        (match blockHeight with
          | none => "None"
          | some h => "Some(" ++ toString h ++ ")") ++
        ", reason: " ++ String.ofList (SumchainWire.debugText reason) ++ " \x7d"
  | .dropped => "Dropped"

/-! ### Is there a departed assignee? -/

inductive AssignedEvidence where
  | chainCount (n : Nat)
  | localFirstChunk (chunk : Nat)
deriving DecidableEq

structure DepartedAssignee where
  archive : Str
  evidence : AssignedEvidence
deriving DecidableEq

inductive N2Verdict where
  | departed (d : DepartedAssignee)
  | noDepartedAssignee (departed : List Str)
deriving DecidableEq

inductive N2Error where
  /-- The response contradicts itself: read again. -/
  | inconsistent (reason : String)
  /-- The response lacks what the decision needs: refuse. -/
  | unusable (reason : String)
deriving DecidableEq

/-- `first_assigned_chunk` of `AssignmentOracle`. -/
abbrev AssignmentOracle := Hash → Nat → List Addr → Nat → List Addr → Option (Nat × Addr)

def chainScorer [AssignmentScore] : AssignmentOracle := firstChunkAssignedToAny

section

variable [SumchainWire]

/-- The address of an archive, or the refusal of the whole response. -/
def decodeArchive (entry : ArchiveCoverageSummaryV2) : Except N2Error Addr :=
  match SumchainWire.fromBase58 entry.archive with
  | .ok addr => .ok addr
  | .error e =>
      .error (.unusable ("archive " ++ String.ofList (SumchainWire.debugText entry.archive) ++
        " is not an L1 address: " ++ String.ofList e))

/-- The chain's own count, where it is there and not zero. -/
def chainCounted (entry : ArchiveCoverageSummaryV2) : Option DepartedAssignee :=
  match entry.assignedCount with
  | some n => if 0 < n then some ⟨entry.archive, .chainCount n⟩ else none
  | none => none

/-- The second half of `evaluate_n2`, over the decoded archives of the latest epoch. -/
def judgeSnapshot (oracle : AssignmentOracle) (merkleRoot : Hash)
    (chunkCount replicationFactor : Nat) (perArchive : List ArchiveCoverageSummaryV2)
    (snapshot : List Addr) : Except N2Error N2Verdict :=
  let departed := (perArchive.zip snapshot).filter fun p => !p.1.currentlyActive
  if departed = [] then
    .error (.inconsistent
      "reassignment_needed is set, but every archive in the latest snapshot is active")
  else
    -- the chain's own counts first
    match departed.findSome? fun p => chainCounted p.1 with
    | some d => .ok (.departed d)
    | none =>
        let uncounted := (departed.filter fun p => p.1.assignedCount.isNone).map (·.2)
        match (if uncounted = [] then none
            else oracle merkleRoot chunkCount snapshot replicationFactor uncounted) with
        | some (chunk, who) =>
            .ok (.departed ⟨SumchainWire.toBase58 who, .localFirstChunk chunk⟩)
        | none => .ok (.noDepartedAssignee (departed.map (·.1.archive)))

/-- `evaluate_n2`. -/
def evaluateN2 (oracle : AssignmentOracle) (coverage : AssignmentCoverageV2) (merkleRoot : Hash)
    (replicationFactor : Nat) : Except N2Error N2Verdict :=
  if replicationFactor = 0 then
    .error (.unusable "the chain reports assignment_replication_factor 0")
  else
    match coverage.resolvedLatestEpoch with
    | none =>
        .error (.unusable
          "the coverage response has no assignment epochs (pre-reassignment chain)")
    | some latestEpoch =>
        if coverage.perEpoch.length ≠ coverage.assignmentEpochs.length then
          .error (.unusable ("per_epoch has " ++ toString coverage.perEpoch.length ++
            " entries for " ++ toString coverage.assignmentEpochs.length ++ " assignment epochs"))
        else
          match coverage.perEpoch.getLast? with
          | none => .error (.unusable "per_epoch is empty")
          | some latest =>
              if latest.epochHeight ≠ latestEpoch then
                .error (.unusable ("the last per_epoch entry is for height " ++
                  toString latest.epochHeight ++ ", not the latest epoch " ++
                  toString latestEpoch))
              else
                match latest.perArchive.mapM decodeArchive with
                | .error e => .error e
                | .ok snapshot =>
                    judgeSnapshot oracle merkleRoot coverage.chunkCount replicationFactor
                      latest.perArchive snapshot

/-! ### The built transaction -/

/-- `decode_hex_field`. -/
def decodeHexField (name : String) (value : Str) : Except String Bytes :=
  let digits := match value with
    | '0' :: 'x' :: rest => rest
    | _ => value
  match hexDecode digits with
  | some bytes => .ok bytes
  | none => .error (name ++ " is not hex: " ++ String.ofList (SumchainWire.hexError digits))

/-- The address as error texts and responses spell it. -/
def Addr.base58 (a : Addr) : String := String.ofList (SumchainWire.toBase58 a)

/-- The checks on a decoded transaction, first mismatch first. -/
def checkUnsignedReassign (resp : StorageBuildResponse) (tx : TransactionV2) (bytes : Bytes)
    (expectedFrom : Addr) (merkleRoot : Hash) (chainId fee : Nat) : Except String TransactionV2 :=
  if SumchainWire.toBytes tx ≠ bytes then
    .error "unsigned_tx is not the canonical encoding of its transaction"
  else if tx.chainId ≠ chainId then
    .error ("chain_id is " ++ toString tx.chainId ++ ", expected " ++ toString chainId)
  else if tx.sender ≠ expectedFrom then
    .error ("sender is " ++ tx.sender.base58 ++ ", expected " ++ expectedFrom.base58)
  else if tx.fee ≠ fee then
    .error ("fee is " ++ toString tx.fee ++ ", expected " ++ toString fee)
  else if tx.payload ≠ .reassignChunksV2 merkleRoot then
    .error ("payload is not ReassignChunksV2 for 0x" ++ String.ofList (hexEncode merkleRoot.bytes))
  else if resp.sender ≠ SumchainWire.toBase58 tx.sender then
    .error ("response `from` " ++ String.ofList resp.sender ++
      " disagrees with the transaction sender")
  else if resp.nonce ≠ tx.nonce then
    .error ("response nonce " ++ toString resp.nonce ++
      " disagrees with the transaction nonce " ++ toString tx.nonce)
  else if resp.fee ≠ tx.fee then
    .error ("response fee " ++ toString resp.fee ++
      " disagrees with the transaction fee " ++ toString tx.fee)
  else if resp.chainId ≠ tx.chainId then
    .error ("response chain_id " ++ toString resp.chainId ++
      " disagrees with the transaction chain_id " ++ toString tx.chainId)
  else
    match decodeHexField "signing_hash" resp.signingHash with
    | .error e => .error e
    | .ok signingHash =>
        if signingHash ≠ (SumchainWire.signingHash tx).bytes then
          .error "response signing_hash is not the hash of unsigned_tx"
        else .ok tx

/-- `verify_unsigned_reassign`. -/
def verifyUnsignedReassign (resp : StorageBuildResponse) (expectedFrom : Addr)
    (merkleRoot : Hash) (chainId fee : Nat) : Except String TransactionV2 :=
  match decodeHexField "unsigned_tx" resp.unsignedTx with
  | .error e => .error e
  | .ok bytes =>
      match SumchainWire.fromBytes bytes with
      | .error e =>
          .error ("unsigned_tx does not decode as one TransactionV2: " ++ String.ofList e)
      | .ok tx => checkUnsignedReassign resp tx bytes expectedFrom merkleRoot chainId fee

/-- The address of a key. -/
def ownAddress (seed : Hash) : Addr :=
  SumchainWire.fromPublicKey (SumchainWire.verifyingKey seed)

/-- `sign_v2`. -/
def signV2 (seed : Hash) (tx : TransactionV2) : Str :=
  SumchainWire.signedHex tx (SumchainWire.sign seed (SumchainWire.signingHash tx).bytes)
    (SumchainWire.verifyingKey seed)

/-- `sign_transaction_v2`: never for another sender. -/
def signTransactionV2 (seed : Hash) (tx : TransactionV2) : Except String Str :=
  if tx.sender ≠ ownAddress seed then
    .error ("refusing to sign: transaction sender " ++ tx.sender.base58 ++
      " is not this key's address " ++ (ownAddress seed).base58)
  else .ok (signV2 seed tx)

end

/-! ### The calls -/

/-- The row of a file with its owner. -/
structure OwnedFileInfo extends StorageFileInfoV2 where
  owner : Str

/-- `ReassignRpc`: each answer comes from the state the chain's node is in by then. -/
structure ReassignRpc (σ : Type) where
  storageGetFileInfoV2 : Str → σ → Except String (Option OwnedFileInfo) × σ
  storageGetAssignmentCoverageV2 : Str → σ → Except String (Option AssignmentCoverageV2) × σ
  /-- The parameters' `assignment_replication_factor`. -/
  chainGetChainParams : σ → Except String Nat × σ
  getLatestBlockHead : σ → Except String BlockHeadInfo × σ
  storageBuildReassignChunksV2 : Str → Str → Nat → σ → Except String StorageBuildResponse × σ
  sendRawTransaction : Str → σ → Except String Str × σ
  getTransactionStatus : Str → σ → Except String TxStatusV2 × σ

/-- A call with its answer. -/
inductive RpcCall where
  | fileInfo (rootHex : Str) (answer : Except String (Option OwnedFileInfo))
  | coverage (rootHex : Str) (answer : Except String (Option AssignmentCoverageV2))
  | chainParams (answer : Except String Nat)
  | blockHead (answer : Except String BlockHeadInfo)
  | buildReassign (sender rootHex : Str) (fee : Nat) (answer : Except String StorageBuildResponse)
  | sendRaw (signedTxHex : Str) (answer : Except String Str)
  | txStatus (txHash : Str) (answer : Except String TxStatusV2)

/-- The transaction a call submits, if it does. -/
def RpcCall.sent? : RpcCall → Option Str
  | .sendRaw signedTxHex _ => some signedTxHex
  | _ => none

structure ReassignRequest where
  merkleRoot : Hash
  chainId : Nat
  fee : Nat
  dryRun : Bool
  pollInterval : Nat
  finalityTimeout : Nat

/-- `TxWaitError`. -/
inductive TxWaitError where
  | failed (blockHeight : Option Nat) (reason : Str)
  | dropped
  | timeout (lastStatus : TxStatusV2)
  | rpc (e : String)
  /-- The readings of the clock end before the wait does. -/
  | waiting

inductive ReassignOutcome where
  | reassigned (txHash : Str) (finalizedAtHeight : Nat) (departed : DepartedAssignee)
  | dryRun (nonce fee : Nat) (signingHash : Str) (departed : DepartedAssignee)
      (head : BlockHeadInfo)
  | notRegistered
  | notOwner (owner : Str)
  | notNeeded (latestAssignmentEpoch : Option Nat)
  | noDepartedAssignee (latestAssignmentEpoch : Nat) (departed : List Str) (head : BlockHeadInfo)
  | unstableRead (attempts : Nat) (reason : String)
  | unusableCoverage (reason : String)
  | buildMismatch (reason : String)
  | refused (txHash : Str) (blockHeight : Option Nat) (reason : Str)
  | failed (source : String)
  /-- `wait_for_finalized` has not returned yet. -/
  | waiting (txHash : Str)

/-- The command, over nodes `σ`. -/
abbrev ReassignM (σ : Type) := Dialogue σ RpcCall

section

variable {σ : Type}

/-- The statuses that end the wait. -/
def TxStatusV2.settled? : TxStatusV2 → Option (Except TxWaitError Nat)
  | .finalized blockHeight => some (.ok blockHeight)
  | .failed blockHeight reason => some (.error (.failed blockHeight reason))
  | .dropped => some (.error .dropped)
  | .unknown | .pending | .included _ => none

/--
`wait_for_finalized`: after each status that does not settle it, one reading of the clock.
What it sleeps between two polls is in the readings.
-/
def waitForFinalized (rpc : ReassignRpc σ) (txHash : Str) (deadline : Nat) :
    List Nat → ReassignM σ (Except TxWaitError Nat)
  | [] => do
      match ← Dialogue.ask (rpc.getTransactionStatus txHash) (.txStatus txHash) with
      | .error e => pure (.error (.rpc e))
      | .ok status => pure (status.settled?.getD (.error .waiting))
  | now :: clock => do
      match ← Dialogue.ask (rpc.getTransactionStatus txHash) (.txStatus txHash) with
      | .error e => pure (.error (.rpc e))
      | .ok status =>
      match status.settled? with
      | some result => pure result
      | none =>
          if deadline ≤ now then pure (.error (.timeout status))
          else waitForFinalized rpc txHash deadline clock

/-- `READ_ATTEMPTS`. -/
def readAttempts : Nat := 3

/-- What the reads decide on: the verdict, its coverage and the head around it. -/
structure StableRead where
  verdict : N2Verdict
  coverage : AssignmentCoverageV2
  head : BlockHeadInfo

variable [SumchainWire]

/-- The text of a head that moved. -/
def headChanged (head1 head2 : BlockHeadInfo) : String :=
  "the chain head changed during the reads: height " ++ toString head1.height ++
    " hash " ++ String.ofList head1.hash ++ " state root " ++ String.ofList head1.stateRoot ++
    " -> height " ++ toString head2.height ++ " hash " ++ String.ofList head2.hash ++
    " state root " ++ String.ofList head2.stateRoot

/-- The attempts that are left: head, coverage, coverage, head.  An `error` ends the command. -/
def readStable (rpc : ReassignRpc σ) (oracle : AssignmentOracle) (merkleRoot : Hash)
    (replicationFactor : Nat) : Nat → String → ReassignM σ (Except ReassignOutcome StableRead)
  | 0, lastReason => pure (.error (.unstableRead readAttempts lastReason))
  | attempts + 1, _ => do
      let rootHex := fileRootHex merkleRoot
      match ← Dialogue.ask rpc.getLatestBlockHead .blockHead with
      | .error e => pure (.error (.failed e))
      | .ok head1 =>
      match ← Dialogue.ask (rpc.storageGetAssignmentCoverageV2 rootHex) (.coverage rootHex) with
      | .error e => pure (.error (.failed e))
      | .ok none => pure (.error .notRegistered)
      | .ok (some first) =>
      if !first.reassignmentNeeded then
        pure (.error (.notNeeded first.resolvedLatestEpoch))
      else
      match ← Dialogue.ask (rpc.storageGetAssignmentCoverageV2 rootHex) (.coverage rootHex) with
      | .error e => pure (.error (.failed e))
      | .ok none => pure (.error .notRegistered)
      | .ok (some second) =>
      match ← Dialogue.ask rpc.getLatestBlockHead .blockHead with
      | .error e => pure (.error (.failed e))
      | .ok head2 =>
      if head1 ≠ head2 then
        readStable rpc oracle merkleRoot replicationFactor attempts (headChanged head1 head2)
      else if first ≠ second then
        readStable rpc oracle merkleRoot replicationFactor attempts
          "the two coverage reads differ"
      else
        match evaluateN2 oracle first merkleRoot replicationFactor with
        | .ok verdict => pure (.ok ⟨verdict, first, head1⟩)
        | .error (.inconsistent reason) =>
            readStable rpc oracle merkleRoot replicationFactor attempts reason
        | .error (.unusable reason) => pure (.error (.unusableCoverage reason))

/-- Sign, submit and wait, once the transaction is verified. -/
def submitReassign (rpc : ReassignRpc σ) (seed : Hash) (req : ReassignRequest) (clock : List Nat)
    (departed : DepartedAssignee) (tx : TransactionV2) : ReassignM σ ReassignOutcome := do
  match signTransactionV2 seed tx with
  | .error e => pure (.failed e)
  | .ok signedHex =>
  match ← Dialogue.ask (rpc.sendRawTransaction signedHex) (.sendRaw signedHex) with
  | .error e => pure (.failed e)
  | .ok txHash =>
  match ← waitForFinalized rpc txHash (clock.headD 0 + req.finalityTimeout) clock.tail with
  | .ok height => pure (.reassigned txHash height departed)
  | .error (.failed blockHeight reason) => pure (.refused txHash blockHeight reason)
  | .error .dropped =>
      pure (.failed ("ReassignChunksV2 " ++ String.ofList txHash ++
        " dropped before inclusion; re-run the command"))
  | .error (.timeout lastStatus) =>
      pure (.failed ("ReassignChunksV2 " ++ String.ofList txHash ++
        ": finality timeout; last status " ++ lastStatus.debug))
  | .error (.rpc e) => pure (.failed e)
  | .error .waiting => pure (.waiting txHash)

/-- Have the transaction built and check it; a dry run ends here. -/
def buildReassign (rpc : ReassignRpc σ) (seed : Hash) (req : ReassignRequest) (clock : List Nat)
    (departed : DepartedAssignee) (head : BlockHeadInfo) : ReassignM σ ReassignOutcome := do
  let own := ownAddress seed
  let ownB58 := SumchainWire.toBase58 own
  let rootHex := fileRootHex req.merkleRoot
  match ← Dialogue.ask (rpc.storageBuildReassignChunksV2 ownB58 rootHex req.fee)
      (.buildReassign ownB58 rootHex req.fee) with
  | .error e => pure (.failed e)
  | .ok resp =>
  match verifyUnsignedReassign resp own req.merkleRoot req.chainId req.fee with
  | .error reason => pure (.buildMismatch reason)
  | .ok tx =>
  if req.dryRun then pure (.dryRun tx.nonce tx.fee resp.signingHash departed head)
  else submitReassign rpc seed req clock departed tx

/-- `reassign_chunks_v2_with`; `clock` is what the wait for finality reads of it. -/
def reassignChunksV2With (rpc : ReassignRpc σ) (seed : Hash) (req : ReassignRequest)
    (oracle : AssignmentOracle) (clock : List Nat) : ReassignM σ ReassignOutcome := do
  let rootHex := fileRootHex req.merkleRoot
  match ← Dialogue.ask (rpc.storageGetFileInfoV2 rootHex) (.fileInfo rootHex) with
  | .error e => pure (.failed e)
  | .ok none => pure .notRegistered
  | .ok (some info) =>
  if info.owner ≠ SumchainWire.toBase58 (ownAddress seed) then pure (.notOwner info.owner)
  else
  match ← Dialogue.ask rpc.chainGetChainParams .chainParams with
  | .error e => pure (.failed e)
  | .ok replicationFactor =>
  match ← readStable rpc oracle req.merkleRoot replicationFactor readAttempts "" with
  | .error outcome => pure outcome
  | .ok read =>
  match read.verdict with
  | .noDepartedAssignee departed =>
      pure (.noDepartedAssignee read.coverage.latestAssignmentEpoch departed read.head)
  | .departed departed => buildReassign rpc seed req clock departed read.head

/-- `reassign_chunks_v2`: with the chain's scorer. -/
def reassignChunksV2 [AssignmentScore] (rpc : ReassignRpc σ) (seed : Hash) (req : ReassignRequest)
    (clock : List Nat) : ReassignM σ ReassignOutcome :=
  reassignChunksV2With rpc seed req chainScorer clock

end

end Snip
