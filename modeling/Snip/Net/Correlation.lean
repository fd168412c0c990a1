/-
Which request an answer belongs to (`sum-net/src/correlation.rs`).

Every request is filed when it is sent, under the behaviour that sent it and the number
the behaviour gave it.  An answer is held against the filed request, a failure is
reported with it, and either spends the record.  A number given out twice is of no use
to anyone until it is swept out.

Times are nanoseconds from a fixed instant; what the clock shows at a filing is an
argument.
-/
import Snip.Lib.Maps
import Snip.Net.Codec

namespace Snip

/-- `MANIFEST_CID_PREFIX` -/
def manifestCidPrefix : Str := "manifest:".toList

/-- `OUTBOUND_RECORD_TTL`, five minutes -/
def outboundRecordTtl : Nat := 300 * 10 ^ 9

/-- `POISON_TTL`, ten minutes -/
def poisonTtl : Nat := 600 * 10 ^ 9

/-- `RequestDomain`: the behaviour a request was sent by. -/
inductive RequestDomain where
  | shardXferV1
  | shardXferV2
deriving DecidableEq

def RequestDomain.protocol : RequestDomain → Str
  | shardXferV1 => shardXferProtocolV1
  | shardXferV2 => shardXferProtocolV2

def RequestDomain.label : RequestDomain → String
  | shardXferV1 => "shard-xfer-v1"
  | shardXferV2 => "shard-xfer-v2"

/-- `OutboundKey` -/
structure OutboundKey where
  domain : RequestDomain
  id : Nat
deriving DecidableEq

/-! ### What was asked for -/

namespace OutboundRequestKind

/-- `from_v1` -/
def fromV1 (req : WireShardRequest) : OutboundRequestKind :=
  if req.pushData.isSome then .v1Push req.cid
  else
    match manifestCidPrefix.isPrefixOf? req.cid with
    | some rootHex => .v1Manifest rootHex req.cid
    | none => .v1Chunk req.cid

/-- `from_v2` -/
def fromV2 : ShardRequestV2 → OutboundRequestKind
  | .pull cid _ _ => .v2Pull cid
  | .push _ merkleRoot chunkIndex _ => .v2Push merkleRoot chunkIndex
  | .manifestPush merkleRoot _ => .v2ManifestPush merkleRoot
  | .manifestPull merkleRoot => .v2ManifestPull merkleRoot

def protocol : OutboundRequestKind → Str
  | v1Chunk _ | v1Manifest _ _ | v1Push _ => shardXferProtocolV1
  | v2Pull _ | v2Push _ _ | v2ManifestPush _ | v2ManifestPull _ => shardXferProtocolV2

def label : OutboundRequestKind → String
  | v1Chunk _ => "v1-chunk-pull"
  | v1Manifest _ _ => "v1-manifest-pull"
  | v1Push _ => "v1-chunk-push"
  | v2Pull _ => "v2-chunk-pull"
  | v2Push _ _ => "v2-chunk-push"
  | v2ManifestPush _ => "v2-manifest-push"
  | v2ManifestPull _ => "v2-manifest-pull"

end OutboundRequestKind

/-- The request as the requester filed it. -/
def ShardRequestVersioned.kind : ShardRequestVersioned → OutboundRequestKind
  | .v1 request => .fromV1 request
  | .v2 request => .fromV2 request

/-- `response_label` -/
def responseLabel : ShardResponseVersioned → String
  | .v1 _ => "v1-response"
  | .v2 (.data _) => "v2-data"
  | .v2 (.pushAck _ _ _) => "v2-push-ack"
  | .v2 (.manifestPushAck _ _) => "v2-manifest-push-ack"
  | .v2 (.manifestData _ _ _) => "v2-manifest-data"

/-- `CorrelationError` -/
inductive CorrelationError where
  | unknownRequestId
  | poisonedRequestId (first second : String)
  | peerMismatch (expected got : PeerId)
  | responseKindMismatch (expected got : String)
  | cidMismatch (expected got : Str)
  | rootMismatch (expected got : Hash)
  | chunkIndexMismatch (expected got : Nat)

def CorrelationError.message : CorrelationError → String
  | unknownRequestId => "no outbound request record for this response"
  | poisonedRequestId first second =>
      "request id was claimed by both " ++ first ++ " and " ++ second ++
        " — no identity can be trusted for it"
  | peerMismatch expected got =>
      "response peer mismatch: asked " ++ toString expected ++ ", answered by " ++ toString got
  | responseKindMismatch expected got =>
      "response kind mismatch: asked " ++ expected ++ ", got " ++ got
  | cidMismatch expected got =>
      "response CID mismatch: asked " ++ String.ofList expected ++ ", got " ++ String.ofList got
  | rootMismatch expected got =>
      "response Merkle root mismatch: asked " ++ String.ofList (hexEncode expected.bytes) ++
        ", got " ++ String.ofList (hexEncode got.bytes)
  | chunkIndexMismatch expected got =>
      "response chunk index mismatch: asked " ++ toString expected ++ ", got " ++ toString got

/-- `cid_eq` -/
def cidEq (expected got : Str) : Except CorrelationError Unit :=
  if expected = got then .ok () else .error (.cidMismatch expected got)

/-- `root_eq` -/
def rootEq (expected got : Hash) : Except CorrelationError Unit :=
  if expected = got then .ok () else .error (.rootMismatch expected got)

/-- `check`: the variant first, then the subject. -/
def OutboundRequestKind.check (kind : OutboundRequestKind) (response : ShardResponseVersioned) :
    Except CorrelationError Unit :=
  match kind, response with
  | .v1Chunk cid, .v1 resp => cidEq cid resp.cid
  | .v1Manifest _ cid, .v1 resp => cidEq cid resp.cid
  | .v1Push cid, .v1 resp => cidEq cid resp.cid
  | .v2Pull cid, .v2 (.data body) => cidEq cid body.cid
  | .v2Push merkleRoot chunkIndex, .v2 (.pushAck gotRoot gotIndex _) => do
      rootEq merkleRoot gotRoot
      if chunkIndex ≠ gotIndex then .error (.chunkIndexMismatch chunkIndex gotIndex) else .ok ()
  | .v2ManifestPush merkleRoot, .v2 (.manifestPushAck got _) => rootEq merkleRoot got
  | .v2ManifestPull merkleRoot, .v2 (.manifestData got _ _) => rootEq merkleRoot got
  | expected, got => .error (.responseKindMismatch expected.label (responseLabel got))

/-! ### The tracker -/

/-- `RecordError` -/
inductive RecordError where
  | collision (key : OutboundKey) (first second : String)
  | domainProtocolMismatch (domain : String) (domainProtocol : Str) (kind : String)
      (kindProtocol : Str)

def RecordError.message : RecordError → String
  | collision key first second =>
      "request id " ++ toString key.id ++ " was claimed by both " ++ first ++ " and " ++ second ++
        " — key poisoned, both abandoned"
  | domainProtocolMismatch domain domainProtocol kind kindProtocol =>
      "outbound routing bug: a " ++ kind ++ " request (written for " ++
        String.ofList kindProtocol ++ ") was filed under " ++ domain ++ ", which speaks " ++
        String.ofList domainProtocol ++ " — not recorded"

/-- `Slot`: one request filed, or two that claimed the key. -/
inductive Slot where
  | pending (peer : PeerId) (kind : OutboundRequestKind) (issuedAt : Nat)
  | poisoned (since : Nat) (first second : String)

/-- The request named first in the text about a collision. -/
def Slot.firstLabel : Slot → String
  | pending _ kind _ => kind.label
  | poisoned _ first _ => first

/-- Whether a sweep at this time leaves the slot; an earlier time counts as no time passed. -/
def Slot.retained (now ttl : Nat) : Slot → Bool
  | pending _ _ issuedAt => now - issuedAt < ttl
  | poisoned since _ _ => now - since < poisonTtl

/-- `FailureOutcome` -/
inductive FailureOutcome where
  | retained (peer : PeerId) (kind : OutboundRequestKind)
  | unknown
  | poisoned

structure OutboundTracker where
  slots : Map OutboundKey Slot

namespace OutboundTracker

/-- `record`; `now` is what the clock shows. -/
def record (t : OutboundTracker) (key : OutboundKey) (peer : PeerId) (kind : OutboundRequestKind)
    (now : Nat) : OutboundTracker × Except RecordError Unit :=
  if kind.protocol ≠ key.domain.protocol then
    (t, .error (.domainProtocolMismatch key.domain.label key.domain.protocol kind.label
      kind.protocol))
  else
    match t.slots.lookup key with
    | none => (⟨t.slots.insert key (.pending peer kind now)⟩, .ok ())
    | some slot =>
        (⟨t.slots.insert key (.poisoned now slot.firstLabel kind.label)⟩,
          .error (.collision key slot.firstLabel kind.label))

/-- `correlate_response`: the record is spent whether the answer fits or not. -/
def correlateResponse (t : OutboundTracker) (key : OutboundKey) (peer : PeerId)
    (response : ShardResponseVersioned) :
    OutboundTracker × Except CorrelationError OutboundOrigin :=
  match t.slots.lookup key with
  | none => (t, .error .unknownRequestId)
  | some (.poisoned _ first second) => (t, .error (.poisonedRequestId first second))
  | some (.pending asked kind _) =>
      (⟨t.slots.erase key⟩,
        if asked ≠ peer then .error (.peerMismatch asked peer)
        else
          match kind.check response with
          | .error e => .error e
          | .ok () => .ok ⟨asked, kind⟩)

/-- `on_failure` -/
def onFailure (t : OutboundTracker) (key : OutboundKey) : OutboundTracker × FailureOutcome :=
  match t.slots.lookup key with
  | none => (t, .unknown)
  | some (.poisoned _ _ _) => (t, .poisoned)
  | some (.pending peer kind _) => (⟨t.slots.erase key⟩, .retained peer kind)

/-- `reap`, and how many went. -/
def reap (t : OutboundTracker) (now ttl : Nat) : OutboundTracker × Nat :=
  let slots := Maps.filterValues (Slot.retained now ttl) t.slots
  (⟨slots⟩, t.slots.entries.length - slots.entries.length)

end OutboundTracker

/-! ### Its calls, in any order -/

inductive TrackerCall where
  | record (key : OutboundKey) (peer : PeerId) (kind : OutboundRequestKind) (now : Nat)
  | correlateResponse (key : OutboundKey) (peer : PeerId) (response : ShardResponseVersioned)
  | onFailure (key : OutboundKey)
  | reap (now ttl : Nat)

inductive TrackerAnswer where
  | recorded (result : Except RecordError Unit)
  | correlated (result : Except CorrelationError OutboundOrigin)
  | failed (outcome : FailureOutcome)
  | reaped (count : Nat)

def OutboundTracker.step (t : OutboundTracker) : TrackerCall → OutboundTracker × TrackerAnswer
  | .record key peer kind now => (t.record key peer kind now).map id .recorded
  | .correlateResponse key peer response =>
      (t.correlateResponse key peer response).map id .correlated
  | .onFailure key => (t.onFailure key).map id .failed
  | .reap now ttl => (t.reap now ttl).map id .reaped

end Snip
