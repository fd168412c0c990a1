/-
The fetches of chunks over the first protocol (`sum-store/src/fetch.rs`): each chunk
comes in pieces, one request after the other, and is stored when it is whole.

The manager has one record for each identifier that is being fetched.  It learns of
answers only: nobody tells it that a request failed.
-/
import Snip.Net.Events

namespace Snip

/-- `MAX_CHUNK_BYTES`. -/
def maxChunkBytes : Nat := chunkSize

/-- A request for a piece of a chunk, as it was handed to the swarm. -/
structure ShardRequest where
  peerId : PeerId
  cid : Str
  offset : Nat
  maxBytes : Nat
deriving DecidableEq

structure FetchState where
  peerId : PeerId
  totalBytes : Option Nat
  nextOffset : Nat
  buffer : Bytes
  expectedSize : Option Nat

structure FetchManager where
  /-- Maximum bytes per request. -/
  chunkSize : Nat
  active : Map Str FetchState

inductive FetchOutcome where
  | inProgress
  | complete (cid : Str) (size : Nat)
  | failed (cid : Str) (error : String)

/-- `validate_response_metadata`. -/
def validateResponseMetadata (response : ShardResponse) (nextOffset : Nat)
    (declaredTotal expectedSize : Option Nat) (maxBytes : Nat) : Except String Unit :=
  let total := response.totalBytes
  let dataLen := response.data.length
  if total = 0 then .error "ShardResponse.total_bytes is zero"
  else if total > maxBytes then
    .error ("ShardResponse.total_bytes = " ++ toString total ++ " exceeds safety bound " ++
      toString maxBytes)
  else if (expectedSize.any fun expected => total ≠ expected) then
    .error ("ShardResponse.total_bytes = " ++ toString total ++ " does not match expected size " ++
      toString (expectedSize.getD 0))
  else if (declaredTotal.any fun prevTotal => total ≠ prevTotal) then
    .error ("ShardResponse.total_bytes = " ++ toString total ++
      " differs from previously declared " ++ toString (declaredTotal.getD 0))
  else if dataLen > total then
    .error ("ShardResponse.data.len() = " ++ toString dataLen ++ " exceeds total_bytes = " ++
      toString total)
  else if response.offset ≠ nextOffset then
    .error ("ShardResponse.offset = " ++ toString response.offset ++
      " does not match expected next offset " ++ toString nextOffset)
  else if nextOffset + dataLen ≥ 2 ^ 64 then .error "ShardResponse.offset + data.len() overflows u64"
  else if nextOffset + dataLen > total then
    .error ("cumulative bytes " ++ toString (nextOffset + dataLen) ++
      " would exceed total_bytes = " ++ toString total)
  else .ok ()

namespace FetchManager

/-- `is_active`. -/
def isActive (f : FetchManager) (cid : Str) : Bool := (f.active.lookup cid).isSome

/-- `start_fetch_with_expected_size`; `sent` says whether the swarm takes the request. -/
def startFetchWithExpectedSize (f : FetchManager) (sent : Bool) (peerId : PeerId) (cid : Str)
    (expectedSize : Option Nat) : Except String (FetchManager × ShardRequest) :=
  if f.isActive cid then .error ("fetch already in progress: " ++ String.ofList cid)
  else if !sent then .error "swarm task has stopped — cannot request chunk"
  else
    .ok ({ f with active := f.active.insert cid ⟨peerId, none, 0, [], expectedSize⟩ },
      ⟨peerId, cid, 0, f.chunkSize⟩)

/-- The end of a fetch: the buffer is checked and written. -/
def finish [Blake3] (files : ChunkStore) (io : Io) (cid : Str) (buffer : Bytes) :
    ChunkStore × FetchOutcome :=
  if cidFromData buffer ≠ cid then
    (files, .failed cid ("integrity check failed: " ++
      (StoreError.integrityMismatch cid (cidFromData buffer)).message))
  else
    match files.put io cid buffer with
    | (files, .error e) => (files, .failed cid ("failed to write chunk: " ++ e.message))
    | (files, .ok ()) => (files, .complete cid buffer.length)

/-- What a piece leads to: the manager, the files, the request for the next piece, the outcome. -/
structure Received where
  manager : FetchManager
  files : ChunkStore
  request : Option ShardRequest
  outcome : FetchOutcome

/-- `on_chunk_received`. -/
def onChunkReceived [Blake3] (f : FetchManager) (sent : Bool) (io : Io) (files : ChunkStore)
    (response : ShardResponse) : Received :=
  let dropped : FetchManager := { f with active := f.active.erase response.cid }
  match response.error with
  | some err => ⟨dropped, files, none, .failed response.cid (String.ofList err)⟩
  | none =>
      match f.active.lookup response.cid with
      | none => ⟨f, files, none, .failed response.cid "no active fetch for this CID"⟩
      | some state =>
          let maxTotal := (state.expectedSize.map fun s => min s maxChunkBytes).getD maxChunkBytes
          match validateResponseMetadata response state.nextOffset state.totalBytes
              state.expectedSize maxTotal with
          | .error msg => ⟨dropped, files, none, .failed response.cid msg⟩
          | .ok () =>
              let total := state.totalBytes.getD response.totalBytes
              let buffer := state.buffer ++ response.data
              let nextOffset := response.offset + response.data.length
              if nextOffset < total then
                let continued : FetchState :=
                  ⟨state.peerId, some total, nextOffset, buffer, state.expectedSize⟩
                if sent then
                  ⟨{ f with active := f.active.insert response.cid continued }, files,
                    some ⟨state.peerId, response.cid, nextOffset, f.chunkSize⟩, .inProgress⟩
                else
                  ⟨dropped, files, none, .failed response.cid
                    "failed to request next piece: swarm task has stopped — cannot request chunk"⟩
              else
                let (files, outcome) := finish files io response.cid buffer
                ⟨dropped, files, none, outcome⟩

end FetchManager

end Snip
