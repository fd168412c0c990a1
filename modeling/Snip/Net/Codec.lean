/-
The messages of the two shard protocols and how they go over a stream
(`sum-net/src/codec.rs`): four bytes of length, then the message.

A stream that is written to takes bytes until it breaks; one that is read from has
the bytes that have arrived.  The serialisation of a message is a library's
(`bincode`) and a parameter.
-/
import Snip.Net.Events

namespace Snip

/-! ### Messages -/

/-- `ShardRequest` of the first protocol; with `pushData` it is a push. -/
structure WireShardRequest where
  cid : Str
  offset : Option Nat
  maxBytes : Option Nat
  pushData : Option Bytes
deriving DecidableEq

inductive ShardRequestV2 where
  | pull (cid : Str) (offset maxBytes : Nat)
  | push (data : Bytes) (merkleRoot : Hash) (chunkIndex : Nat) (merklePath : List Hash)
  | manifestPush (merkleRoot : Hash) (manifestBytes : Bytes)
  | manifestPull (merkleRoot : Hash)
deriving DecidableEq

inductive ShardRequestVersioned where
  | v1 (request : WireShardRequest)
  | v2 (request : ShardRequestV2)

/-- The numbers of a request are 64-bit numbers. -/
def ShardRequestVersioned.Fits64 : ShardRequestVersioned → Prop
  | .v1 request => request.offset.getD 0 < 2 ^ 64 ∧ request.maxBytes.getD 0 < 2 ^ 64
  | .v2 (.pull _ offset maxBytes) => offset < 2 ^ 64 ∧ maxBytes < 2 ^ 64
  | .v2 _ => True

inductive ShardResponseVersioned where
  | v1 (response : ShardResponse)
  | v2 (response : ShardResponseV2)

/-- `SHARD_XFER_PROTOCOL_V1` -/
def shardXferProtocolV1 : Str := "/sum/storage/v1".toList

/-- `SHARD_XFER_PROTOCOL_V2` -/
def shardXferProtocolV2 : Str := "/sum/storage/v2".toList

/-- The protocol whose messages the value belongs to. -/
def ShardRequestVersioned.protocol : ShardRequestVersioned → Str
  | v1 _ => shardXferProtocolV1
  | v2 _ => shardXferProtocolV2

def ShardResponseVersioned.protocol : ShardResponseVersioned → Str
  | v1 _ => shardXferProtocolV1
  | v2 _ => shardXferProtocolV2

/-- `MAX_MSG_BYTES`, 256 MiB. -/
def maxMsgBytes : Nat := 256 * 1024 * 1024

/-- `bincode` with its standard configuration on one type; what was read, and how much of it. -/
class Bincode (α : Type) where
  encodeToVec : α → Except String Bytes
  decodeFromSlice : Bytes → Except String (α × Nat)

/-! ### Streams -/

/-- `io::Error`, by its kind and text. -/
inductive IoError where
  | invalidData (text : String)
  | invalidInput (text : String)
  | unsupported (text : String)
  | unexpectedEof
  | broken

/-- A stream to write to: what is on the wire, what it still takes, whether it can be flushed. -/
structure AsyncWrite where
  wire : Bytes
  room : Nat
  flushes : Bool

/-- `write_all`: what there is room for goes out either way. -/
def AsyncWrite.writeAll (io : AsyncWrite) (data : Bytes) : AsyncWrite × Except IoError Unit :=
  ({ io with wire := io.wire ++ data.take io.room, room := io.room - data.length },
    if data.length ≤ io.room then .ok () else .error .broken)

def AsyncWrite.flush (io : AsyncWrite) : AsyncWrite × Except IoError Unit :=
  (io, if io.flushes then .ok () else .error .broken)

/-- `read_exact` on what has arrived; what is left after it. -/
def readExact (io : Bytes) (len : Nat) : Except IoError (Bytes × Bytes) :=
  if io.length < len then .error .unexpectedEof else .ok (io.take len, io.drop len)

/-- `read_length_prefixed`. -/
def readLengthPrefixed (io : Bytes) (maxBytes : Nat) : Except IoError (Bytes × Bytes) := do
  let (lenBuf, io) ← readExact io 4
  let len := beValue lenBuf
  if len > maxBytes then
    .error (.invalidData ("message too large: " ++ toString len ++ " bytes (max " ++
      toString maxBytes ++ ")"))
  else readExact io len

/-- `write_length_prefixed`. -/
def writeLengthPrefixed (io : AsyncWrite) (data : Bytes) : AsyncWrite × Except IoError Unit :=
  if data.length ≥ 2 ^ 32 then
    (io, .error (.invalidData ("payload exceeds u32::MAX: " ++ toString data.length ++ " bytes")))
  else
    match io.writeAll (beBytes 4 data.length) with
    | (io, .error e) => (io, .error e)
    | (io, .ok ()) =>
        match io.writeAll data with
        | (io, .error e) => (io, .error e)
        | (io, .ok ()) => io.flush

/-! ### Codecs -/

/-- A frame with one message in it, as both codecs write it. -/
def writeFrame {α : Type} [Bincode α] (io : AsyncWrite) (message : α) :
    AsyncWrite × Except IoError Unit :=
  match Bincode.encodeToVec message with
  | .error e => (io, .error (.invalidData e))
  | .ok buf => writeLengthPrefixed io buf

/-- `decode_from_slice` on a whole frame. -/
def decodeFrame {α : Type} [Bincode α] (buf : Bytes) : Except IoError α :=
  match Bincode.decodeFromSlice buf with
  | .error e => .error (.invalidData e)
  | .ok (message, _) => .ok message

variable [Bincode WireShardRequest] [Bincode ShardResponse] [Bincode ShardRequestV2]
  [Bincode ShardResponseV2]

/-- The codec of the first protocol alone. -/
structure ShardCodec where
  maxMsgBytes : Nat

/-- `Default` -/
def ShardCodec.default : ShardCodec := ⟨Snip.maxMsgBytes⟩

namespace ShardCodec

def readRequest (codec : ShardCodec) (io : Bytes) : Except IoError (WireShardRequest × Bytes) := do
  let (buf, io) ← readLengthPrefixed io codec.maxMsgBytes
  let request ← decodeFrame buf
  return (request, io)

def readResponse (codec : ShardCodec) (io : Bytes) : Except IoError (ShardResponse × Bytes) := do
  let (buf, io) ← readLengthPrefixed io codec.maxMsgBytes
  let response ← decodeFrame buf
  return (response, io)

def writeRequest (_ : ShardCodec) (io : AsyncWrite) (request : WireShardRequest) :
    AsyncWrite × Except IoError Unit :=
  writeFrame io request

def writeResponse (_ : ShardCodec) (io : AsyncWrite) (response : ShardResponse) :
    AsyncWrite × Except IoError Unit :=
  writeFrame io response

end ShardCodec

/-- The codec of both protocols: the name of the negotiated one says which messages to expect. -/
structure VersionedShardCodec where
  maxMsgBytes : Nat

/-- `Default` -/
def VersionedShardCodec.default : VersionedShardCodec := ⟨Snip.maxMsgBytes⟩

namespace VersionedShardCodec

def readRequest (codec : VersionedShardCodec) (protocol : Str) (io : Bytes) :
    Except IoError (ShardRequestVersioned × Bytes) := do
  let (buf, io) ← readLengthPrefixed io codec.maxMsgBytes
  if protocol = shardXferProtocolV1 then
    let request ← decodeFrame buf
    return (.v1 request, io)
  else if protocol = shardXferProtocolV2 then
    let request ← decodeFrame buf
    return (.v2 request, io)
  else .error (.unsupported ("unknown shard-xfer protocol: " ++ String.ofList protocol))

def readResponse (codec : VersionedShardCodec) (protocol : Str) (io : Bytes) :
    Except IoError (ShardResponseVersioned × Bytes) := do
  let (buf, io) ← readLengthPrefixed io codec.maxMsgBytes
  if protocol = shardXferProtocolV1 then
    let response ← decodeFrame buf
    return (.v1 response, io)
  else if protocol = shardXferProtocolV2 then
    let response ← decodeFrame buf
    return (.v2 response, io)
  else .error (.unsupported ("unknown shard-xfer protocol: " ++ String.ofList protocol))

def writeRequest (_ : VersionedShardCodec) (protocol : Str) (io : AsyncWrite) :
    ShardRequestVersioned → AsyncWrite × Except IoError Unit
  | .v1 request =>
      if protocol = shardXferProtocolV1 then writeFrame io request
      else
        (io, .error (.invalidInput ("V1 request written to non-V1 stream (protocol=" ++
          String.ofList protocol ++ ")")))
  | .v2 request =>
      if protocol = shardXferProtocolV2 then writeFrame io request
      else
        (io, .error (.invalidInput ("V2 request written to non-V2 stream (protocol=" ++
          String.ofList protocol ++ ")")))

def writeResponse (_ : VersionedShardCodec) (protocol : Str) (io : AsyncWrite) :
    ShardResponseVersioned → AsyncWrite × Except IoError Unit
  | .v1 response =>
      if protocol = shardXferProtocolV1 then writeFrame io response
      else
        (io, .error (.invalidInput ("V1 response written to non-V1 stream (protocol=" ++
          String.ofList protocol ++ ")")))
  | .v2 response =>
      if protocol = shardXferProtocolV2 then writeFrame io response
      else
        (io, .error (.invalidInput ("V2 response written to non-V2 stream (protocol=" ++
          String.ofList protocol ++ ")")))

end VersionedShardCodec

end Snip
