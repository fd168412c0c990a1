/-
The shard traffic of the swarm task (`sum-net/src/swarm.rs`), and a mesh of such tasks.

A request to this node is filed with the channel its answer goes out on; the loops above
answer by the number it was filed under.  A request of this node is filed with the tracker,
and what comes back is told to the loops above only against that record.

The library under it (`libp2p`) has one behaviour for each protocol.  It numbers the requests
of a behaviour, and it takes an answer only on a channel of its own.  On the wire messages
are lost, delayed, repeated and reordered at will, and a peer that is not honest sends
whatever it likes, but never under another's name.

Of gossip, discovery and reachability there is what shares the queue of events with this
traffic: the loops above are told of them as well, whenever it pleases.
-/
import Mathlib.Data.List.AList
import Mathlib.Logic.Function.Basic
import Snip.Lib.Chan
import Snip.Lib.Steps
import Snip.Net.Correlation

namespace Snip

/-- `PENDING_CHANNEL_TIMEOUT`, two minutes -/
def pendingChannelTimeout : Nat := 120 * 10 ^ 9

/-- `CHANNEL_CAPACITY`, of the queue of events -/
def eventCapacity : Nat := 256

/-- `SwarmCommand`, as far as it is about shards. -/
inductive SwarmCommand where
  | requestShard (peerId : PeerId) (request : WireShardRequest)
  | requestShardV2 (peerId : PeerId) (request : ShardRequestV2)
  | sendShardResponse (channelId : Nat) (response : ShardResponse)
  | sendShardResponseV2 (channelId : Nat) (response : ShardResponseV2)

/-- `SumNetEvent`; what a client looks at is its own type. -/
inductive ShardEvent where
  | shardRequested (peerId : PeerId) (request : WireShardRequest) (channelId : Nat)
  | shardRequestedV2 (peerId : PeerId) (request : ShardRequestV2) (channelId : Nat)
  | told (event : SumNetEvent)

/-- What the other behaviours have the task tell. -/
inductive PeerEvent where
  | discovered (peerId : PeerId)
  | identified (peerId : PeerId) (l1Address : Addr)
  | disconnected (peerId : PeerId)
  | other

def ShardEvent.peer : PeerEvent → ShardEvent
  | .discovered peerId => .told (.peerDiscovered peerId)
  | .identified peerId l1Address => .told (.peerIdentified peerId l1Address)
  | .disconnected peerId => .told (.peerDisconnected peerId)
  | .other => .told .other

def ShardEvent.requested (peer : PeerId) (channelId : Nat) : ShardRequestVersioned → ShardEvent
  | .v1 req => .shardRequested peer req channelId
  | .v2 req => .shardRequestedV2 peer req channelId

def ShardEvent.received (peer : PeerId) (origin : OutboundOrigin) :
    ShardResponseVersioned → ShardEvent
  | .v1 resp => .told (.shardReceived peer resp origin)
  | .v2 resp => .told (.shardReceivedV2 peer resp origin)

def ShardEvent.failed (error : Str) (origin : OutboundOrigin) : ShardEvent :=
  .told (.shardRequestFailed origin.peer error origin)

/-! ### Channels -/

/-- `PendingChannel` -/
structure PendingChannel (γ : Type) where
  domain : RequestDomain
  channel : γ

/-- `ChannelTake` -/
inductive ChannelTake (γ : Type) where
  | taken (channel : γ)
  | wrongDomain (domain : RequestDomain)
  | missing

/-- `take_channel`: a channel of the other domain is left in place. -/
def takeChannel {γ : Type} (map : Map Nat (PendingChannel γ × Nat)) (channelId : Nat)
    (want : RequestDomain) : Map Nat (PendingChannel γ × Nat) × ChannelTake γ :=
  match map.lookup channelId with
  | none => (map, .missing)
  | some (pending, _) =>
      if pending.domain ≠ want then (map, .wrongDomain pending.domain)
      else (map.erase channelId, .taken pending.channel)

/-- `reap_stale_entries`, and how many went; an earlier time counts as no time passed. -/
def reapStaleEntries {β : Type} (map : Map Nat (β × Nat)) (timeout now : Nat) :
    Map Nat (β × Nat) × Nat :=
  let kept := Maps.filterValues (fun entry => decide (now - entry.2 ≤ timeout)) map
  (kept, map.entries.length - kept.entries.length)

/-! ### The task -/

/-- `SwarmRefusals` -/
structure SwarmRefusals where
  v1ResponseOnV2Channel : Nat
  v2ResponseOnV1Channel : Nat
  responseWithoutChannel : Nat
  outboundDomainProtocolMismatch : Nat
  outboundIdCollision : Nat
  inboundVersionDomainMismatch : Nat
deriving DecidableEq

/-- `Default` -/
def SwarmRefusals.default : SwarmRefusals := ⟨0, 0, 0, 0, 0, 0⟩

/-- An answer offered by one domain on a channel of the other. -/
def SwarmRefusals.countWrongDomain (r : SwarmRefusals) : RequestDomain → SwarmRefusals
  | .shardXferV1 => { r with v1ResponseOnV2Channel := r.v1ResponseOnV2Channel + 1 }
  | .shardXferV2 => { r with v2ResponseOnV1Channel := r.v2ResponseOnV1Channel + 1 }

/-- The numbers a behaviour gives its requests, by how many it has sent: never one twice. -/
structure RequestIds where
  mint : RequestDomain → Nat → Nat
  unique : ∀ domain, Function.Injective (mint domain)

/--
`SumSwarm`; of the behaviours, how many requests each has sent.  A channel number is a
64-bit number in the source, and a run here makes as many of them as it likes.
-/
structure SumSwarm (γ : Type) where
  sentRequests : RequestDomain → Nat
  pendingShardChannels : Map Nat (PendingChannel γ × Nat)
  nextChannelId : Nat
  outbound : OutboundTracker
  refusals : SwarmRefusals
  events : Chan ShardEvent eventCapacity

/-- What the task does to the world: it hands a message to a behaviour, or tells the loops
above, unless their queue is full.  Last, what such a loop takes from the queue. -/
inductive SwarmEffect (γ : Type) where
  | sendRequest (domain : RequestDomain) (id : Nat) (peer : PeerId)
      (request : ShardRequestVersioned)
  | sendResponse (domain : RequestDomain) (channel : γ) (response : ShardResponseVersioned)
  | emitted (event : ShardEvent)
  | dropped (event : ShardEvent)
  | taken (event : ShardEvent)

/-- What one turn of the loop takes, with what the clock shows; and a loop above that takes
the next event. -/
inductive SwarmInput (γ : Type) where
  | command (cmd : SwarmCommand) (now : Nat)
  | inboundRequest (domain : RequestDomain) (peer : PeerId) (request : ShardRequestVersioned)
      (channel : γ) (now : Nat)
  | inboundResponse (domain : RequestDomain) (peer : PeerId) (requestId : Nat)
      (response : ShardResponseVersioned)
  | outboundFailure (domain : RequestDomain) (peer : PeerId) (requestId : Nat) (error : Str)
  | peerEvent (event : PeerEvent)
  | reaperTick (now now' : Nat)
  | nextEvent

namespace SumSwarm

variable {γ : Type}

/-- `build` -/
def build : SumSwarm γ := ⟨fun _ => 0, ∅, 0, ⟨∅⟩, .default, .empty⟩

/-- `event_tx.try_send` -/
def trySend (s : SumSwarm γ) (event : ShardEvent) : SumSwarm γ × List (SwarmEffect γ) :=
  match s.events.send? event with
  | some events => ({ s with events }, [.emitted event])
  | none => (s, [.dropped event])

/-- `record_outbound` -/
def recordOutbound (s : SumSwarm γ) (domain : RequestDomain) (id : Nat) (peer : PeerId)
    (kind : OutboundRequestKind) (now : Nat) : SumSwarm γ :=
  match s.outbound.record ⟨domain, id⟩ peer kind now with
  | (outbound, .ok ()) => { s with outbound }
  | (outbound, .error (.domainProtocolMismatch _ _ _ _)) =>
      { s with
        outbound
        refusals.outboundDomainProtocolMismatch := s.refusals.outboundDomainProtocolMismatch + 1 }
  | (outbound, .error (.collision _ _ _)) =>
      { s with
        outbound
        refusals.outboundIdCollision := s.refusals.outboundIdCollision + 1 }

/-- A request on the behaviour of a domain: sent, and then filed. -/
def request (ids : RequestIds) (s : SumSwarm γ) (domain : RequestDomain) (peer : PeerId)
    (request : ShardRequestVersioned) (now : Nat) : SumSwarm γ × List (SwarmEffect γ) :=
  let id := ids.mint domain (s.sentRequests domain)
  let sent := Function.update s.sentRequests domain (s.sentRequests domain + 1)
  (({ s with sentRequests := sent }).recordOutbound domain id peer request.kind now,
    [.sendRequest domain id peer request])

/-- An answer on the behaviour of a domain, if the channel is there and its own. -/
def respond (s : SumSwarm γ) (domain : RequestDomain) (channelId : Nat)
    (response : ShardResponseVersioned) : SumSwarm γ × List (SwarmEffect γ) :=
  match takeChannel s.pendingShardChannels channelId domain with
  | (pending, .taken channel) =>
      ({ s with pendingShardChannels := pending }, [.sendResponse domain channel response])
  | (_, .wrongDomain _) => ({ s with refusals := s.refusals.countWrongDomain domain }, [])
  | (_, .missing) =>
      ({ s with
        refusals.responseWithoutChannel := s.refusals.responseWithoutChannel + 1 }, [])

/-- The arms of `run` for commands. -/
def onCommand (ids : RequestIds) (s : SumSwarm γ) (now : Nat) :
    SwarmCommand → SumSwarm γ × List (SwarmEffect γ)
  | .requestShard peerId req => s.request ids .shardXferV1 peerId (.v1 req) now
  | .requestShardV2 peerId req => s.request ids .shardXferV2 peerId (.v2 req) now
  | .sendShardResponse channelId response => s.respond .shardXferV1 channelId (.v1 response)
  | .sendShardResponseV2 channelId response => s.respond .shardXferV2 channelId (.v2 response)

/-- `reap_orphaned_channels`; the clock is read for either table. -/
def reapOrphanedChannels (s : SumSwarm γ) (now now' : Nat) : SumSwarm γ :=
  { s with
    pendingShardChannels := (reapStaleEntries s.pendingShardChannels pendingChannelTimeout now).1
    outbound := (s.outbound.reap now' outboundRecordTtl).1 }

/-- The test of `on_inbound_request` on the payload. -/
def versionsAgree : RequestDomain → ShardRequestVersioned → Bool
  | .shardXferV1, .v1 _ => true
  | .shardXferV2, .v2 _ => true
  | _, _ => false

/-- `on_inbound_request`: what the loops above cannot be told of is not kept waiting. -/
def onInboundRequest (s : SumSwarm γ) (domain : RequestDomain) (peer : PeerId)
    (request : ShardRequestVersioned) (channel : γ) (now : Nat) :
    SumSwarm γ × List (SwarmEffect γ) :=
  if !versionsAgree domain request then
    ({ s with
      refusals.inboundVersionDomainMismatch := s.refusals.inboundVersionDomainMismatch + 1 }, [])
  else
    let channelId := s.nextChannelId
    let filed := s.pendingShardChannels.insert channelId (⟨domain, channel⟩, now)
    let event := ShardEvent.requested peer channelId request
    match s.events.send? event with
    | some events =>
        ({ s with nextChannelId := channelId + 1, pendingShardChannels := filed, events },
          [.emitted event])
    | none =>
        ({ s with
          nextChannelId := channelId + 1
          pendingShardChannels := filed.erase channelId }, [.dropped event])

/-- `on_inbound_response` -/
def onInboundResponse (s : SumSwarm γ) (domain : RequestDomain) (peer : PeerId) (requestId : Nat)
    (response : ShardResponseVersioned) : SumSwarm γ × List (SwarmEffect γ) :=
  match s.outbound.correlateResponse ⟨domain, requestId⟩ peer response with
  | (outbound, .error _) => ({ s with outbound }, [])
  | (outbound, .ok origin) =>
      ({ s with outbound }).trySend (.received peer origin response)

/-- `on_outbound_failure` -/
def onOutboundFailure (s : SumSwarm γ) (domain : RequestDomain) (peer : PeerId) (requestId : Nat)
    (error : Str) : SumSwarm γ × List (SwarmEffect γ) :=
  match s.outbound.onFailure ⟨domain, requestId⟩ with
  | (outbound, .retained askedPeer kind) =>
      if askedPeer ≠ peer then ({ s with outbound }, [])
      else ({ s with outbound }).trySend (.failed error ⟨askedPeer, kind⟩)
  | (outbound, .unknown) => ({ s with outbound }, [])
  | (outbound, .poisoned) => ({ s with outbound }, [])

/-- One turn of `run`, or of a loop above that takes an event. -/
def step (ids : RequestIds) (s : SumSwarm γ) : SwarmInput γ → SumSwarm γ × List (SwarmEffect γ)
  | .command cmd now => s.onCommand ids now cmd
  | .inboundRequest domain peer request channel now =>
      s.onInboundRequest domain peer request channel now
  | .inboundResponse domain peer requestId response =>
      s.onInboundResponse domain peer requestId response
  | .outboundFailure domain peer requestId error => s.onOutboundFailure domain peer requestId error
  | .peerEvent event => s.trySend (.peer event)
  | .reaperTick now now' => (s.reapOrphanedChannels now now', [])
  | .nextEvent =>
      match s.events.recv? with
      | some (event, events) => ({ s with events }, [.taken event])
      | none => (s, [])

end SumSwarm

/-! ### The mesh -/

/-- A response channel: the behaviour it is of, and the request it answers. -/
structure Route where
  domain : RequestDomain
  requester : PeerId
  id : Nat
deriving DecidableEq

inductive Message where
  | request (domain : RequestDomain) (sender receiver : PeerId) (id : Nat)
      (request : ShardRequestVersioned)
  | response (domain : RequestDomain) (sender receiver : PeerId) (id : Nat)
      (response : ShardResponseVersioned)

/-- The honest nodes, and everything they have ever put on the wire. -/
structure Mesh where
  node : PeerId → SumSwarm Route
  wire : List Message

def Mesh.init : Mesh := ⟨fun _ => .build, []⟩

/-- One turn of one node. -/
structure MeshEntry where
  node : PeerId
  input : SwarmInput Route
  effects : List (SwarmEffect Route)

/-- What a behaviour puts on the wire: an answer only on a channel of its own. -/
def SwarmEffect.message? (n : PeerId) : SwarmEffect Route → Option Message
  | .sendRequest domain id peer request => some (.request domain n peer id request)
  | .sendResponse domain channel response =>
      if channel.domain = domain then
        some (.response domain n channel.requester channel.id response)
      else none
  | .emitted _ => none
  | .dropped _ => none
  | .taken _ => none

def MeshEntry.messages (e : MeshEntry) : List Message :=
  e.effects.filterMap (SwarmEffect.message? e.node)

/-- What can arrive at a node: of an honest peer, what it has sent there.  The codec of a
behaviour reads requests of its own protocol only. -/
def Arrives (honest : PeerId → Prop) (wire : List Message) (n : PeerId) : SwarmInput Route → Prop
  | .inboundRequest domain peer request channel _ =>
      channel.domain = domain ∧ channel.requester = peer ∧ request.protocol = domain.protocol ∧
      (honest peer → .request domain peer n channel.id request ∈ wire)
  | .inboundResponse domain peer requestId response =>
      honest peer → .response domain peer n requestId response ∈ wire
  | _ => True

/-- One honest node takes one turn. -/
structure MeshStep (ids : PeerId → RequestIds) (honest : PeerId → Prop) (m : Mesh) (e : MeshEntry)
    (m' : Mesh) : Prop where
  acts : honest e.node
  arrives : Arrives honest m.wire e.node e.input
  effects : e.effects = ((m.node e.node).step (ids e.node) e.input).2
  node : m'.node
    = Function.update m.node e.node ((m.node e.node).step (ids e.node) e.input).1
  wire : m'.wire = m.wire ++ e.messages

end Snip
