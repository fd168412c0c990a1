/-
Which archive a chunk is asked of (`sum-node/src/download_v2_routing.rs`), and the
part of the two download loops that they share: the bookkeeping per chunk, the
choice of the next requests and their dispatch.

Each chunk goes through its assigned archives one at a time, in the order of the
chain's ranking, except that an archive which nobody has identified may be passed
over after a grace period.  How many chunks are asked for at once is bounded.
-/
import Mathlib.Data.Finset.Sort
import Snip.Net.Events
import Snip.Node.PushValidator
import Snip.Store.Manifest

namespace Snip

/-! ### The assignment view -/

structure V2AssignmentView where
  snapshot : List Addr
  r : Nat
  distinctAssigned : Finset Addr
  perChunkAssigned : Map Nat (List Addr)

inductive V2AssignmentError where
  | snapshot (height : Nat) (e : Str)
  | snapshotAddrParse
  | snapshotEmpty (height : Nat)
  | chainParams (e : Str)
  | emptyAssignedSet (chunkIndex snapshotLen r : Nat)

def V2AssignmentError.message : V2AssignmentError → String
  | snapshot height e =>
      "storage_getActiveNodesAtHeight(" ++ toString height ++ "): " ++ String.ofList e
  | snapshotAddrParse => "snapshot l1 address parse"
  | snapshotEmpty height =>
      "snapshot at assignment_height=" ++ toString height ++
        " has no active archives — cannot route V2 requests"
  | chainParams e => "chain_getChainParams: " ++ String.ofList e
  | emptyAssignedSet chunkIndex snapshotLen r =>
      "chunk " ++ toString chunkIndex ++ " has no V2-assigned archives (snapshot has " ++
        toString snapshotLen ++ " entries, R=" ++ toString r ++
        ") — chain plan §5.3 invariant violation"

/-- The chunks of the view, one after the other. -/
def assignChunks [AssignmentScore] (merkleRoot : Hash) (snapshot : List Addr) (r : Nat) :
    List Nat → V2AssignmentView → Except V2AssignmentError V2AssignmentView
  | [], view => .ok view
  | chunkIndex :: rest, view =>
      match assignedArchives merkleRoot snapshot chunkIndex r with
      | [] => .error (.emptyAssignedSet chunkIndex snapshot.length r)
      | assigned =>
          assignChunks merkleRoot snapshot r rest
            { view with
              distinctAssigned := view.distinctAssigned ∪ assigned.toFinset
              perChunkAssigned := view.perChunkAssigned.insert chunkIndex assigned }

/-- `build_v2_assignment_view`, on the answers to its two queries. -/
def buildV2AssignmentView [AssignmentScore] (nodes : Except Str (List NodeRecordInfo))
    (replicationFactor : Except Str Nat) (assignmentHeight : Nat) (merkleRoot : Hash)
    (chunkIndices : List Nat) : Except V2AssignmentError V2AssignmentView :=
  match nodes with
  | .error e => .error (.snapshot assignmentHeight e)
  | .ok records =>
      match (records.filter NodeRecordInfo.isActiveArchive).mapM NodeRecordInfo.address with
      | none => .error .snapshotAddrParse
      | some addresses =>
          let snapshot := addresses.insertionSort (· ≤ ·)
          if snapshot = [] then .error (.snapshotEmpty assignmentHeight)
          else
            match replicationFactor with
            | .error e => .error (.chainParams e)
            | .ok r => assignChunks merkleRoot snapshot r chunkIndices ⟨snapshot, r, ∅, ∅⟩

/-! ### The next archive -/

/-- The loop of `next_assigned_archive` from position `pos` on. -/
def scanArchives (peers : Addr → Option PeerId) (skipUnresolved : Bool) :
    Nat → List Addr → Option (Nat × PeerId)
  | _, [] => none
  | pos, addr :: rest =>
      match peers addr with
      | some peerId => some (pos, peerId)
      | none => if skipUnresolved then scanArchives peers skipUnresolved (pos + 1) rest else none

/-- `next_assigned_archive`. -/
def nextAssignedArchive (order : List Addr) (next : Nat) (peers : Addr → Option PeerId)
    (skipUnresolved : Bool) : Option (Nat × PeerId) :=
  scanArchives peers skipUnresolved next (order.drop next)

/-- `mark_archive_asked`: the archive at `pos` moves to `next`, the ones between move up. -/
def markArchiveAsked (order : List Addr) (next pos : Nat) : List Addr × Nat :=
  (order.take next ++ order[pos]?.toList ++ (order.drop next).take (pos - next)
    ++ order.drop (pos + 1), next + 1)

/-! ### Manifests -/

inductive ManifestDecodeError where
  | cbor (e : Str)
  | rootMismatch (got want : Hash)
  | invalid (e : ManifestPushError)

def ManifestDecodeError.message : ManifestDecodeError → String
  | cbor e => "manifest CBOR deserialize failed: CBOR deserialization: " ++ String.ofList e
  | rootMismatch got want =>
      "manifest merkle_root mismatch: peer returned " ++ String.ofList (hexEncode got.bytes) ++
        " but caller expected " ++ String.ofList (hexEncode want.bytes)
  | invalid e => "manifest failed validation against the requested root: " ++ e.message

/-- `decode_v2_manifest_bytes`. -/
def decodeV2ManifestBytes [Blake3] [ManifestReader] (manifestBytes : Bytes) (expectedRoot : Hash) :
    Except ManifestDecodeError DataManifest :=
  match ManifestReader.fromCbor manifestBytes with
  | .error e => .error (.cbor e)
  | .ok manifest =>
      if manifest.merkleRoot ≠ expectedRoot then
        .error (.rootMismatch manifest.merkleRoot expectedRoot)
      else
        match validateManifestPush (hexEncode expectedRoot.bytes) manifestBytes with
        | .error e => .error (.invalid e)
        | .ok _ => .ok manifest

/-! ### The chunks of a download

`PublicChunkState` and `ChunkFetchState` differ in what a finished chunk leaves
behind: a flag (its bytes are on disk), or the bytes. -/

structure ChunkFetch (δ : Type) where
  /-- The assigned archives in the order they are asked. -/
  assigned : List Addr
  /-- How many of them were asked. -/
  nextAttemptIdx : Nat
  /-- The peer, and the archive it stands for, that was asked last and has not answered. -/
  inFlightTo : Option (PeerId × Addr)
  received : Option δ

/-- A request that is to be sent: `PublicDispatch`, `DispatchTarget`. -/
structure Dispatch where
  chunkIndex : Nat
  peerId : PeerId
  assignedPos : Nat
deriving DecidableEq

/-- A request that was sent, with the chunk it was sent for. -/
structure Pull where
  chunkIndex : Nat
  peerId : PeerId
  cid : Str
  maxBytes : Nat
deriving DecidableEq

/-- The chunk with an index; the loops look it up for indices they took from the manifest. -/
def chunkAt (chunks : List ChunkDescriptor) (chunkIndex : Nat) : Option ChunkDescriptor :=
  chunks.find? fun cd => cd.chunkIndex = chunkIndex

abbrev ChunkStates (δ : Type) := Map Nat (ChunkFetch δ)

namespace ChunkStates

variable {δ : Type}

/-- How many chunks are in flight. -/
def inFlight (state : ChunkStates δ) : Nat :=
  state.entries.countP fun e => e.2.inFlightTo.isSome

/-- The loop of the selection over the chunks of the manifest. -/
def selectFrom (state : ChunkStates δ) (peers : Addr → Option PeerId) (cap : Nat)
    (skipUnresolved : Bool) : Nat → List ChunkDescriptor → List Dispatch
  | _, [] => []
  | inFlight, cd :: rest =>
      if inFlight ≥ cap then []
      else
        match state.lookup cd.chunkIndex with
        | none => selectFrom state peers cap skipUnresolved inFlight rest
        | some s =>
            if s.received.isSome || s.inFlightTo.isSome then
              selectFrom state peers cap skipUnresolved inFlight rest
            else
              match nextAssignedArchive s.assigned s.nextAttemptIdx peers skipUnresolved with
              | none => selectFrom state peers cap skipUnresolved inFlight rest
              | some (assignedPos, peerId) =>
                  ⟨cd.chunkIndex, peerId, assignedPos⟩ ::
                    selectFrom state peers cap skipUnresolved (inFlight + 1) rest

/-- `select_public_chunk_dispatches`, `select_chunks_to_dispatch`. -/
def selectDispatches (state : ChunkStates δ) (chunks : List ChunkDescriptor)
    (peers : Addr → Option PeerId) (maxConcurrent : Nat) (skipUnresolved : Bool) :
    List Dispatch :=
  selectFrom state peers (max maxConcurrent 1) skipUnresolved state.inFlight chunks

/-- The bookkeeping of one request, once it is sent. -/
def mark (state : ChunkStates δ) (d : Dispatch) : ChunkStates δ :=
  match state.lookup d.chunkIndex with
  | none => state
  | some s =>
      let (order, next) := markArchiveAsked s.assigned s.nextAttemptIdx d.assignedPos
      state.insert d.chunkIndex
        { s with
          assigned := order
          nextAttemptIdx := next
          inFlightTo := s.assigned[d.assignedPos]?.map fun addr => (d.peerId, addr) }

/-- The request of a dispatch: a single pull of the whole chunk. -/
def pullOf (chunks : List ChunkDescriptor) (d : Dispatch) : Option Pull :=
  (chunkAt chunks d.chunkIndex).map fun cd => ⟨d.chunkIndex, d.peerId, cd.cid, cd.size⟩

/--
`try_dispatch`, `try_dispatch_pending`: all requests that are due, each marked once
it is sent.  A stopped swarm task takes no request, and the first that it does not
take ends the fetch.
-/
def tryDispatch (state : ChunkStates δ) (chunks : List ChunkDescriptor)
    (peers : Addr → Option PeerId) (maxConcurrent : Nat) (skipUnresolved swarmRuns : Bool) :
    Except Nat (ChunkStates δ × List Pull) :=
  let dispatches := state.selectDispatches chunks peers maxConcurrent skipUnresolved
  match dispatches with
  | [] => .ok (state, [])
  | d :: _ =>
      if swarmRuns then .ok (dispatches.foldl mark state, dispatches.filterMap (pullOf chunks))
      else .error d.chunkIndex

end ChunkStates

/-- `cid_to_idx`: of several chunks with one identifier, the last. -/
def cidToIdx (chunks : List ChunkDescriptor) (cid : Str) : Option Nat :=
  (chunks.filter fun cd => cd.cid = cid).getLast?.map ChunkDescriptor.chunkIndex

/-- The chunk that a pull is in flight for at the peer, as the loops find it by its identifier. -/
def ChunkStates.awaiting {δ : Type} (state : ChunkStates δ) (chunks : List ChunkDescriptor)
    (cid : Str) (peerId : PeerId) : Option (Nat × ChunkFetch δ) :=
  match cidToIdx chunks cid with
  | none => none
  | some idx =>
      match state.lookup idx with
      | none => none
      | some s => if s.inFlightTo.map Prod.fst = some peerId then some (idx, s) else none

/-- The first chunk that is not done. -/
def ChunkStates.nextMissing {δ : Type} (state : ChunkStates δ) (chunks : List ChunkDescriptor) :
    Nat :=
  ((chunks.map ChunkDescriptor.chunkIndex).find? fun i =>
    ((state.lookup i).map fun s => s.received.isNone).getD false).getD 0

/-- A response that carries the whole chunk, and the right one. -/
def servesChunk [Blake3] (cd : ChunkDescriptor) (body : ShardResponse) : Bool :=
  body.error.isNone && (body.offset = 0) && (body.totalBytes = cd.size) &&
    (body.data.length = cd.size) && (Blake3.hash body.data = cd.blake3Hash)

end Snip
