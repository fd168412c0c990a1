/-
How a chunk request of the first protocol is answered (`sum-store/src/serve.rs`): the
part of the chunk that the request's window selects.
-/
import Snip.Net.Codec
import Snip.Store.Fetch
import Snip.Store.Chunker

namespace Snip

/-- The request that goes out for a piece (`request_shard_chunk`). -/
def ShardRequest.wire (request : ShardRequest) : WireShardRequest :=
  ⟨request.cid, some request.offset, some request.maxBytes, none⟩

/-- `saturating_add` of 64-bit numbers. -/
def saturatingAdd64 (a b : Nat) : Nat := min (a + b) (2 ^ 64 - 1)

/-- `resolve_chunk_window`: an offset past the end selects nothing, no length means the rest. -/
def resolveChunkWindow (total : Nat) (offset maxBytes : Option Nat) : Nat × Nat :=
  let start := min (offset.getD 0) total
  let len := maxBytes.getD total
  (start, min (saturatingAdd64 start len) total)

/-- A response with an error and nothing else. -/
def ShardResponse.refusal (cid : Str) (error : String) : ShardResponse :=
  ⟨cid, 0, 0, [], some error.toList⟩

/-- `handle_chunk_request`; `mapFails` is the error of the mapping, if it fails. -/
def handleChunkRequest (store : ChunkStore) (mapFails : Option String)
    (request : WireShardRequest) : ShardResponse :=
  match store.lookup request.cid with
  | none => .refusal request.cid ("chunk not found: " ++ String.ofList request.cid)
  | some mapped =>
      match mapFails with
      | some e => .refusal request.cid ("mmap error: " ++ e)
      | none =>
          let (start, stop) := resolveChunkWindow mapped.length request.offset request.maxBytes
          ⟨request.cid, start, mapped.length, slice mapped start stop, none⟩

end Snip
