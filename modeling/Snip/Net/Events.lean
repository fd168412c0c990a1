/-
What the network layer tells the loops above it.

Answers arrive with the request they answer: the swarm keeps a record of every
request it sends and drops an answer whose peer, kind, chunk or root is not the
recorded one (`sum-net/src/correlation.rs`), so an event's `origin` is the node's
own word and not the peer's.
-/
import Snip.Store.Assignment
import Snip.Store.SumStore

namespace Snip

/-- `ShardResponse`; the answer to a V2 pull has the same fields. -/
structure ShardResponse where
  cid : Str
  offset : Nat
  totalBytes : Nat
  data : Bytes
  error : Option Str

inductive ShardResponseV2 where
  | data (body : ShardResponse)
  | pushAck (merkleRoot : Hash) (chunkIndex : Nat) (error : Option Str)
  | manifestPushAck (merkleRoot : Hash) (error : Option Str)
  | manifestData (merkleRoot : Hash) (manifestBytes : Bytes) (error : Option Str)

/-- `OutboundRequestKind`: what a request asked for. -/
inductive OutboundRequestKind where
  | v1Chunk (cid : Str)
  | v1Manifest (rootHex cid : Str)
  | v1Push (cid : Str)
  | v2Pull (cid : Str)
  | v2Push (merkleRoot : Hash) (chunkIndex : Nat)
  | v2ManifestPush (merkleRoot : Hash)
  | v2ManifestPull (merkleRoot : Hash)
deriving DecidableEq

/-- `OutboundOrigin`: a request of this node, as it was recorded when it was sent. -/
structure OutboundOrigin where
  peer : PeerId
  kind : OutboundRequestKind
deriving DecidableEq

/-- `requested_manifest_root`. -/
def OutboundOrigin.requestedManifestRoot (o : OutboundOrigin) : Option Hash :=
  match o.kind with
  | .v2ManifestPull merkleRoot => some merkleRoot
  | _ => none

/-- `requested_cid`. -/
def OutboundOrigin.requestedCid (o : OutboundOrigin) : Option Str :=
  match o.kind with
  | .v1Chunk cid | .v1Manifest _ cid | .v1Push cid | .v2Pull cid => some cid
  | _ => none

/-- `SumNetEvent`, without what no loop of a client looks at. -/
inductive SumNetEvent where
  | peerDiscovered (peerId : PeerId)
  | peerIdentified (peerId : PeerId) (l1Address : Addr)
  | peerDisconnected (peerId : PeerId)
  | shardReceived (peerId : PeerId) (response : ShardResponse) (origin : OutboundOrigin)
  | shardReceivedV2 (peerId : PeerId) (response : ShardResponseV2) (origin : OutboundOrigin)
  | shardRequestFailed (peerId : PeerId) (error : Str) (origin : OutboundOrigin)
  | other

/-! ### Identified peers -/

/-- `apply_peer_event`. -/
def applyPeerEvent (map : Map PeerId Addr) : SumNetEvent → Map PeerId Addr
  | .peerIdentified peerId l1Address => map.insert peerId l1Address
  | .peerDisconnected peerId => map.erase peerId
  | _ => map

/-- The order in which a hash map of peers is gone through: each peer once, else any. -/
class PeerOrder where
  order : Map PeerId Addr → List PeerId
  perm : ∀ map, List.Perm (order map) map.keys

/-- The order in which the peers were inserted. -/
@[reducible] def PeerOrder.keys : PeerOrder := ⟨AList.keys, fun _ => .refl _⟩

/-- The inverted map: of several peers with one address, the last in that order. -/
def addrToPeer [PeerOrder] (map : Map PeerId Addr) (addr : Addr) : Option PeerId :=
  ((PeerOrder.order map).filter fun peerId => map.lookup peerId = some addr).getLast?

end Snip
