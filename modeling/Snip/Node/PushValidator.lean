/-
The check of a pushed chunk against the chain (`sum-node/src/push_validator.rs`).

What the chain answers to the queries of one request is a `ChainRpc`; answers to
different requests need not agree with each other.  File rows, snapshots and
assignment epochs are cached, and a refusal that rests on a cached epoch is
checked once more against a newer one.
-/
import Snip.Store.Merkle
import Snip.Store.Assignment
import Snip.Lib.Lru

namespace Snip

/-! ### What the chain answers -/

/-- `VisibilityV2`, a byte on the wire. -/
abbrev VisibilityV2 := UInt8

def VisibilityV2.isPublic (v : VisibilityV2) : Bool := v = 0
def VisibilityV2.isPrivate (v : VisibilityV2) : Bool := v = 1

/-- `LifecycleV2`, a byte on the wire. -/
abbrev LifecycleV2 := UInt8

def LifecycleV2.isPending (l : LifecycleV2) : Bool := l = 0
def LifecycleV2.isActive (l : LifecycleV2) : Bool := l = 1
def LifecycleV2.isAbandoned (l : LifecycleV2) : Bool := l = 2

/-- The row of a registered file. -/
structure StorageFileInfoV2 where
  merkleRoot : Str
  plaintextSizeBytes : Nat
  storedSizeBytes : Nat
  chunkCount : Nat
  assignmentHeight : Nat
  visibility : VisibilityV2
  lifecycle : LifecycleV2
deriving DecidableEq

inductive NodeRole where
  | archiveNode
  | other
deriving DecidableEq

inductive NodeStatus where
  | active
  | other
deriving DecidableEq

/--
A row of the node registry.  The base58 address is what it decodes to, or the text in which
it is reported with the error.
-/
structure NodeRecordInfo where
  role : NodeRole
  status : NodeStatus
  base58 : Except Str Addr

def NodeRecordInfo.address (r : NodeRecordInfo) : Option Addr := r.base58.toOption

@[simp] theorem NodeRecordInfo.address_ok (role : NodeRole) (status : NodeStatus) (a : Addr) :
    NodeRecordInfo.address ⟨role, status, .ok a⟩ = some a := rfl

def NodeRecordInfo.isActiveArchive (r : NodeRecordInfo) : Bool :=
  r.role = .archiveNode && r.status = .active

/-- The answers to the queries of one request. -/
structure ChainRpc where
  fileInfoV2 : Hash → Except Str (Option StorageFileInfoV2)
  activeNodesAtHeight : Nat → Except Str (List NodeRecordInfo)
  latestAssignmentEpoch : Hash → Except Str (Option Nat)

/-- `hex::decode`. -/
def hexDecode : Str → Option Bytes
  | [] => some []
  | [_] => none
  | a :: b :: rest => do
      let x ← hexValue a
      let y ← hexValue b
      let xs ← hexDecode rest
      return UInt8.ofNat (16 * x + y) :: xs

/-- `decode_root_hex`: with or without the prefix `0x`. -/
def decodeRootHex : Str → Option Hash
  | '0' :: 'x' :: rest => (hexDecode rest).bind Hash.ofBytes?
  | text => (hexDecode text).bind Hash.ofBytes?

/-- `fetch_snapshot` behind the query: active archives, sorted, each once. -/
def decodeSnapshot (raw : List NodeRecordInfo) : Option (List Addr) :=
  ((raw.filter NodeRecordInfo.isActiveArchive).mapM NodeRecordInfo.address).map presortedAddresses

/-- The first address of the snapshot that does not decode, as the error prints it. -/
def undecodedAddress (raw : List NodeRecordInfo) : Str :=
  ((raw.filter NodeRecordInfo.isActiveArchive).findSome? fun r =>
    match r.base58 with
    | .error text => some text
    | .ok _ => none).getD []

/-! ### The validator -/

structure V2Params where
  assignmentReplicationFactor : Nat
  maxChunkIndicesPerTx : Nat

structure ValidatedPush where
  leafHash : Hash
  visibility : VisibilityV2

inductive PushReject where
  | unknownRoot (e : Str)
  | notRegistered (root : Hash)
  | abandoned
  | outOfRange (chunkIndex chunkCount : Nat)
  | epochLookup (e : Str)
  | snapshotLookup (height : Nat) (e : Str)
  | notInSnapshot (height : Nat) (myAddr : Addr)
  | notAssigned (chunkIndex : Nat)
  | badLifecycle (lifecycle : LifecycleV2) (root : Hash)
  | badRootText (root : Hash) (text : Str)
  | epochBelowAssignment (latest assignmentHeight : Nat) (root : Hash)
  | badSnapshotAddress (height : Nat) (address : Str)
  | badProof

/-- Why the root of a row is not the root asked for. -/
def rootTextReason (root : Hash) (text : Str) : String :=
  let digits := match text with
    | '0' :: 'x' :: rest => rest
    | _ => text
  match hexDecode digits with
  | none => "merkle_root not hex-decodable"
  | some bytes =>
      if bytes.length ≠ 32 then "merkle_root expected 32 bytes, got " ++ toString bytes.length
      else
        "asked for root 0x" ++ String.ofList (hexEncode root.bytes) ++ " but chain returned root " ++
          String.ofList text

def PushReject.message : PushReject → String
  | unknownRoot e => "file_info lookup failed for root: " ++ String.ofList e
  | notRegistered root => "file not registered on chain: 0x" ++ String.ofList (hexEncode root.bytes)
  | abandoned => "file is Abandoned"
  | outOfRange chunkIndex chunkCount =>
      "chunk_index " ++ toString chunkIndex ++ " >= chunk_count " ++ toString chunkCount
  | epochLookup e => "assignment-epoch lookup failed: " ++ String.ofList e
  | snapshotLookup height e =>
      "snapshot lookup failed at height " ++ toString height ++ ": " ++ String.ofList e
  | notInSnapshot height myAddr =>
      "our archive (addr=" ++ Addr.hex myAddr ++ ") is not in the snapshot at height " ++
        toString height
  | notAssigned chunkIndex =>
      "chunk_index " ++ toString chunkIndex ++ " not assigned to this archive for this file"
  | badLifecycle lifecycle root =>
      "malformed chain response: unexpected lifecycle byte " ++ toString lifecycle.toNat ++
        " for root 0x" ++ String.ofList (hexEncode root.bytes)
  | badRootText root text => "malformed chain response: " ++ rootTextReason root text
  | epochBelowAssignment latest assignmentHeight root =>
      "malformed chain response: latest assignment epoch " ++ toString latest ++
        " below assignment_height " ++ toString assignmentHeight ++ " for root 0x" ++
        String.ofList (hexEncode root.bytes)
  | badSnapshotAddress height address =>
      "malformed chain response: snapshot at h=" ++ toString height ++
        " contained unparseable address " ++ String.ofList address
  | badProof => "Merkle proof failed verification"

/-- A refusal that a newer epoch may lift. -/
def PushReject.isAssignment : PushReject → Bool
  | notInSnapshot .. | notAssigned .. => true
  | _ => false

structure PushValidator where
  myAddr : Addr
  params : V2Params
  fileInfo : Lru Hash StorageFileInfoV2
  snapshot : Lru Nat (List Addr)
  epochs : Lru Hash (Nat × Nat)
  epochTtl : Nat
  epochRecheckMin : Nat

/-- `PushValidator::new`, times in milliseconds. -/
def PushValidator.new (myAddr : Addr) (params : V2Params) : PushValidator :=
  ⟨myAddr, params, .empty 256, .empty 64, .empty 256, 30000, 2000⟩

namespace PushValidator

/-- `with_capacities`: file rows and epochs share one. -/
def withCapacities (myAddr : Addr) (params : V2Params) (fileInfoCap snapshotCap : Nat) :
    PushValidator :=
  ⟨myAddr, params, .empty fileInfoCap, .empty snapshotCap, .empty fileInfoCap, 30000, 2000⟩

/-- `with_epoch_timing`. -/
def withEpochTiming (v : PushValidator) (ttl recheckMin : Nat) : PushValidator :=
  { v with epochTtl := ttl, epochRecheckMin := recheckMin }

def fetchFileInfo (rpc : ChainRpc) (v : PushValidator) (root : Hash) :
    PushValidator × Except PushReject StorageFileInfoV2 :=
  match v.fileInfo.peek root with
  | some info => ({ v with fileInfo := v.fileInfo.touch root }, .ok info)
  | none =>
      match rpc.fileInfoV2 root with
      | .error e => (v, .error (.unknownRoot e))
      | .ok none => (v, .error (.notRegistered root))
      | .ok (some info) =>
          if decodeRootHex info.merkleRoot ≠ some root then
            (v, .error (.badRootText root info.merkleRoot))
          else ({ v with fileInfo := v.fileInfo.put root info }, .ok info)

def fetchSnapshot (rpc : ChainRpc) (v : PushValidator) (height : Nat) :
    PushValidator × Except PushReject (List Addr) :=
  match v.snapshot.peek height with
  | some snap => ({ v with snapshot := v.snapshot.touch height }, .ok snap)
  | none =>
      match rpc.activeNodesAtHeight height with
      | .error e => (v, .error (.snapshotLookup height e))
      | .ok raw =>
          match decodeSnapshot raw with
          | none => (v, .error (.badSnapshotAddress height (undecodedAddress raw)))
          | some snap => ({ v with snapshot := v.snapshot.put height snap }, .ok snap)

/-- The epoch as the chain has it now; a file that was never reassigned has its first. -/
def readEpoch (rpc : ChainRpc) (storedAt : Nat) (v : PushValidator) (root : Hash)
    (info : StorageFileInfoV2) : PushValidator × Except PushReject (Nat × Bool) :=
  match rpc.latestAssignmentEpoch root with
  | .error e => (v, .error (.epochLookup e))
  | .ok latest =>
      let epoch := latest.getD info.assignmentHeight
      if epoch < info.assignmentHeight then
        (v, .error (.epochBelowAssignment epoch info.assignmentHeight root))
      else ({ v with epochs := v.epochs.put root (epoch, storedAt) }, .ok (epoch, true))

/-- The epoch, and whether it was read from the chain just now. -/
def assignmentEpoch (rpc : ChainRpc) (lookedUpAt storedAt : Nat) (v : PushValidator) (root : Hash)
    (info : StorageFileInfoV2) (maxAge : Nat) : PushValidator × Except PushReject (Nat × Bool) :=
  let touched := { v with epochs := v.epochs.touch root }
  match v.epochs.peek root with
  | some (epoch, readAt) =>
      if lookedUpAt - readAt < maxAge then (touched, .ok (epoch, false))
      else touched.readEpoch rpc storedAt root info
  | none => v.readEpoch rpc storedAt root info

def checkAssigned [AssignmentScore] (rpc : ChainRpc) (v : PushValidator) (root : Hash)
    (epoch chunkIndex : Nat) : PushValidator × Except PushReject Unit :=
  match v.fetchSnapshot rpc epoch with
  | (v, .error e) => (v, .error e)
  | (v, .ok snapshot) =>
      if v.myAddr ∉ snapshot then (v, .error (.notInSnapshot epoch v.myAddr))
      else if v.myAddr ∉
          assignedArchives root snapshot chunkIndex v.params.assignmentReplicationFactor then
        (v, .error (.notAssigned chunkIndex))
      else (v, .ok ())

/-- Assignment at the cached epoch, and at a newer one where the cached one refuses. -/
def checkAssignment [AssignmentScore] (rpc : ChainRpc) (clock : Nat → Nat) (v : PushValidator)
    (root : Hash) (info : StorageFileInfoV2) (chunkIndex : Nat) :
    PushValidator × Except PushReject Unit :=
  match v.assignmentEpoch rpc (clock 0) (clock 1) root info v.epochTtl with
  | (v, .error e) => (v, .error e)
  | (v, .ok (epoch, readNow)) =>
      match v.checkAssigned rpc root epoch chunkIndex with
      | (v, .ok ()) => (v, .ok ())
      | (v, .error refused) =>
          if refused.isAssignment && !readNow then
            match v.assignmentEpoch rpc (clock 2) (clock 3) root info v.epochRecheckMin with
            | (v, .error e) => (v, .error e)
            | (v, .ok (fresh, _)) =>
                if fresh = epoch then (v, .error refused)
                else v.checkAssigned rpc root fresh chunkIndex
          else (v, .error refused)

/-- `validate_push`; `clock` gives the instants it reads. -/
def validatePush [Blake3] [AssignmentScore] (rpc : ChainRpc) (clock : Nat → Nat)
    (v : PushValidator) (merkleRoot : Hash) (chunkIndex : Nat) (data : Bytes)
    (merklePath : List Hash) : PushValidator × Except PushReject ValidatedPush :=
  let leafHash := Blake3.hash data
  match v.fetchFileInfo rpc merkleRoot with
  | (v, .error e) => (v, .error e)
  | (v, .ok info) =>
      if info.lifecycle.isAbandoned then (v, .error .abandoned)
      else if !(info.lifecycle.isPending || info.lifecycle.isActive) then
        (v, .error (.badLifecycle info.lifecycle merkleRoot))
      else if info.chunkCount ≤ chunkIndex then
        (v, .error (.outOfRange chunkIndex info.chunkCount))
      else
        match v.checkAssignment rpc clock merkleRoot info chunkIndex with
        | (v, .error e) => (v, .error e)
        | (v, .ok ()) =>
            if !verifyMerkleProofBytesForTree leafHash chunkIndex merklePath merkleRoot
                info.chunkCount then (v, .error .badProof)
            else (v, .ok ⟨leafHash, info.visibility⟩)

end PushValidator

end Snip
