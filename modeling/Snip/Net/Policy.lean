/-
Which addresses a node on a controlled network may connect to (`sum-net/src/policy.rs`).

An address is a list of components.  An allow-list entry is a block of IP addresses or
the first components of an address: a host, perhaps a port, perhaps a peer.  The texts
of both have been read; the model starts from what they say.
-/
import Mathlib.Data.List.DropRight
import Snip.Basic

namespace Snip

/-- A component of an address; what the policy never looks into is a tag and a text. -/
inductive Protocol where
  | ip4 (addr : BitVec 32)
  | ip6 (addr : BitVec 128)
  | dns (name : Str)
  | dns4 (name : Str)
  | dns6 (name : Str)
  | dnsaddr (name : Str)
  | tcp (port : UInt16)
  | udp (port : UInt16)
  | quicV1
  | p2p (peer : PeerId)
  | p2pCircuit
  | other (tag text : Str)
deriving DecidableEq

abbrev Multiaddr := List Protocol

/-- `is_host` -/
def isHost : Protocol → Bool
  | .ip4 _ | .ip6 _ | .dns _ | .dns4 _ | .dns6 _ | .dnsaddr _ => true
  | _ => false

def Protocol.tag : Protocol → String
  | ip4 _ => "ip4"
  | ip6 _ => "ip6"
  | dns _ => "dns"
  | dns4 _ => "dns4"
  | dns6 _ => "dns6"
  | dnsaddr _ => "dnsaddr"
  | tcp _ => "tcp"
  | udp _ => "udp"
  | quicV1 => "quic-v1"
  | p2p _ => "p2p"
  | p2pCircuit => "p2p-circuit"
  | other tag _ => String.ofList tag

def Protocol.isP2p : Protocol → Bool
  | .p2p _ => true
  | _ => false

/-- A trailing `/p2p`, and what comes before it (`split_last`). -/
def splitPeer (comps : Multiaddr) : Multiaddr × Option PeerId :=
  match comps.getLast? with
  | some (.p2p peer) => (comps.dropLast, some peer)
  | _ => (comps, none)

/-! ### IP addresses -/

inductive IpAddr where
  | v4 (addr : BitVec 32)
  | v6 (addr : BitVec 128)
deriving DecidableEq

/-- The number of bits. -/
def IpAddr.width : IpAddr → Nat
  | v4 _ => 32
  | v6 _ => 128

/-- `to_ipv4_mapped`: the address behind `::ffff:a.b.c.d`. -/
def toIpv4Mapped (v6 : BitVec 128) : Option (BitVec 32) :=
  if v6 >>> 32 = 0xffff then some (v6.setWidth 32) else none

/-- The bits a prefix length keeps; a shift by all bits is avoided. -/
def netMask (w prefixLen : Nat) : BitVec w :=
  if prefixLen = 0 then 0 else BitVec.allOnes w <<< (w - prefixLen)

/-- `mask` -/
def mask (addr : IpAddr) (prefixLen : Nat) : IpAddr :=
  match addr with
  | .v4 v4 => .v4 (v4 &&& netMask 32 prefixLen)
  | .v6 v6 => .v6 (v6 &&& netMask 128 prefixLen)

/-- `network_contains` -/
def networkContains (net : IpAddr) (prefixLen : Nat) (ip : IpAddr) : Bool :=
  match net, ip with
  | .v4 _, .v4 _ => mask ip prefixLen = net
  | .v6 _, .v6 _ => mask ip prefixLen = net
  | .v4 _, .v6 v6 =>
      match toIpv4Mapped v6 with
      | some v4 => mask (.v4 v4) prefixLen = net
      | none => false
  | .v6 _, .v4 _ => false

/-! ### Entries -/

/-- `dns_eq`: without final dots, and whatever the case of ASCII letters. -/
def dnsEq (a b : Str) : Bool :=
  (a.rdropWhile (· = '.')).map Char.toLower = (b.rdropWhile (· = '.')).map Char.toLower

/-- `same_component` -/
def sameComponent (entry addr : Protocol) : Bool :=
  match entry, addr with
  | .dns a, .dns b => dnsEq a b
  | .dns4 a, .dns4 b => dnsEq a b
  | .dns6 a, .dns6 b => dnsEq a b
  | .dnsaddr a, .dnsaddr b => dnsEq a b
  | _, _ => entry = addr

/-- `AllowEntry` -/
inductive AllowEntry where
  | network (addr : IpAddr) (prefixLen : Nat)
  | components (components : Multiaddr) (peer : Option PeerId)
deriving DecidableEq

/-- `parse_network`, on the address and the prefix length its text gives. -/
def parseNetwork (addr : IpAddr) (prefixPart : Option Nat) : Except String AllowEntry :=
  let max := addr.width
  match prefixPart with
  | none => .ok (.network (mask addr max) max)
  | some n =>
      if n > max then
        .error ("prefix length " ++ toString n ++ " exceeds " ++ toString max)
      else .ok (.network (mask addr n) n)

/-- `parse_prefix`, on the components of the text. -/
def parseComponents (all : Multiaddr) : Except String AllowEntry :=
  if .p2pCircuit ∈ all then
    .error ("relayed (/p2p-circuit) addresses cannot be listed; list the relay's own address " ++
      "instead — a relayed address is allowed when its relay part is")
  else
    let (body, peer) := splitPeer all
    match body with
    | [] =>
        .error ("a peer ID alone does not restrict addresses (an allowed peer can advertise any " ++
          "address); name the host too, e.g. /ip4/127.0.0.1/tcp/4001/p2p/<peer-id>")
    | host :: rest =>
        if isHost host = false then
          .error ("must start with /ip4, /ip6, /dns, /dns4, /dns6 or /dnsaddr, not /" ++ host.tag)
        else
          match rest with
          | [] => .ok (.components body peer)
          | [.tcp port] | [.udp port] | [.udp port, .quicV1] =>
              if port = 0 then
                .error ("port 0 is not a wildcard; leave the port out to allow every port on " ++
                  "the host")
              else .ok (.components body peer)
          | _ =>
              .error ("unsupported form after the host: an entry may continue with " ++
                "/tcp/<port>, /udp/<port> or /udp/<port>/quic-v1, then an optional final " ++
                "/p2p/<peer-id>")

/-- An entry as it is written: an IP address and perhaps a prefix length, or components. -/
inductive EntryText where
  | network (addr : IpAddr) (prefixPart : Option Nat)
  | components (all : Multiaddr)

/-- `AllowEntry::from_str`, on what the text says. -/
def EntryText.parse : EntryText → Except String AllowEntry
  | network addr prefixPart => parseNetwork addr prefixPart
  | components all => parseComponents all

/-- `PeerPin`: what a pinned peer means where the remote peer is not known yet. -/
inductive PeerPin where
  | enforce
  | defer
deriving DecidableEq

/-- The part of `matches` about the pinned peer. -/
def peerOk (wanted peer : Option PeerId) (pin : PeerPin) : Bool :=
  match wanted, peer with
  | none, _ => true
  | some w, some p => w = p
  | some _, none => pin = .defer

/-- `matches` -/
def AllowEntry.matches (entry : AllowEntry) (transport : Multiaddr) (peer : Option PeerId)
    (pin : PeerPin) : Bool :=
  match entry with
  | .network addr prefixLen =>
      match transport with
      | .ip4 ip :: _ => networkContains addr prefixLen (.v4 ip)
      | .ip6 ip :: _ => networkContains addr prefixLen (.v6 ip)
      | _ => false
  | .components comps wanted =>
      comps.length ≤ transport.length &&
        (comps.zip transport).all (fun (e, a) => sameComponent e a) &&
        peerOk wanted peer pin

/-! ### The allow-list -/

/-- `AddrPolicy`: the list is not empty. -/
structure AddrPolicy where
  entries : List AllowEntry
  nonempty : entries ≠ []

/-- `AddrPolicy::parse`, on the items that are not blank: without entries there is no policy. -/
def AddrPolicy.parse (items : List EntryText) : Except String (Option AddrPolicy) := do
  let entries ← items.mapM EntryText.parse
  return if h : entries ≠ [] then some ⟨entries, h⟩ else none

namespace AddrPolicy

/-- What the address is judged by: the part before a relay circuit, and the peer it leads to. -/
def judged (addr : Multiaddr) (peerHint : Option PeerId) : Multiaddr × Option PeerId :=
  let segment := addr.takeWhile (· ≠ .p2pCircuit)
  let relayed := .p2pCircuit ∈ addr
  match splitPeer segment with
  | (transport, some peer) => (transport, some peer)
  | (transport, none) => (transport, if relayed then none else peerHint)

/-- `decide` -/
def decide (policy : AddrPolicy) (addr : Multiaddr) (peerHint : Option PeerId) (pin : PeerPin) :
    Bool :=
  let (transport, peer) := judged addr peerHint
  match transport with
  | [] => false
  | host :: _ =>
      if isHost host = false ∨ transport.any Protocol.isP2p then false
      else policy.entries.any fun e => e.matches transport peer pin

/-- `allows` -/
def allows (policy : AddrPolicy) (addr : Multiaddr) (peerHint : Option PeerId) : Bool :=
  policy.decide addr peerHint .enforce

end AddrPolicy

/-! ### The checks of a node -/

/-- `PolicySource`: where a refused address came from. -/
inductive PolicySource where
  | bootstrap
  | mdns
  | identify
  | kad
  | autodial
  | inbound
  | other
deriving DecidableEq

/-- `NetPolicy`, with the label of the dial under way and the counts of refusals. -/
structure NetPolicy where
  allow : Option AddrPolicy
  current : PolicySource
  refusals : PolicySource → Nat

namespace NetPolicy

/-- `record`: one refusal more. -/
def record (net : NetPolicy) (source : PolicySource) : NetPolicy :=
  { net with refusals := fun s => if s = source then net.refusals s + 1 else net.refusals s }

/-- `judge`, as it is called for an address that is admitted or offered as a dial target. -/
def judge (net : NetPolicy) (source : PolicySource) (addr : Multiaddr) (peer : Option PeerId) :
    NetPolicy × Bool :=
  match net.allow with
  | none => (net, true)
  | some p => if p.allows addr peer then (net, true) else (net.record source, false)

/-- `begin_dial`, on the label that the dial was given. -/
def beginDial (net : NetPolicy) (label : PolicySource) : NetPolicy :=
  if net.allow.isNone then net else { net with current := label }

/-- `check_transport_dial`; a dial in the listener's role is a hole punch. -/
def checkTransportDial (net : NetPolicy) (addr : Multiaddr) (listenerRole : Bool) :
    NetPolicy × Except PolicySource Unit :=
  match net.allow with
  | none => (net, .ok ())
  | some p =>
      if p.allows addr none then (net, .ok ())
      else
        let source := if net.current = .other ∧ listenerRole then .autodial else net.current
        (net.record source, .error source)

/-- `inbound_allowed`: a relayed connection is judged by the circuit it came in on. -/
def inboundAllowed (net : NetPolicy) (localAddr remoteAddr : Multiaddr) (peer : Option PeerId) :
    NetPolicy × Bool :=
  match net.allow with
  | none => (net, true)
  | some p =>
      let ok :=
        if .p2pCircuit ∈ localAddr then p.decide localAddr none .enforce
        else p.decide remoteAddr peer (if peer.isSome then .enforce else .defer)
      (if ok then net else net.record .inbound, ok)

/-- `outbound_established_allowed` -/
def outboundEstablishedAllowed (net : NetPolicy) (addr : Multiaddr) (peer : PeerId) :
    NetPolicy × Bool :=
  net.judge .other addr (some peer)

end NetPolicy

/-- A question of the node to its policy. -/
inductive PolicyCheck where
  /-- `admit` or `admit_dial`. -/
  | admitAddr (source : PolicySource) (addr : Multiaddr) (peer : Option PeerId)
  /-- The transport dials; `label` is the one the dial began with. -/
  | transportDial (label : PolicySource) (addr : Multiaddr) (listenerRole : Bool)
  | inbound (localAddr remoteAddr : Multiaddr) (peer : Option PeerId)
  | outboundEstablished (addr : Multiaddr) (peer : PeerId)

namespace NetPolicy

/-- One question, and whether the answer lets the address pass. -/
def check (net : NetPolicy) : PolicyCheck → NetPolicy × Bool
  | .admitAddr source addr peer => net.judge source addr peer
  | .transportDial label addr listenerRole =>
      let (net, result) := (net.beginDial label).checkTransportDial addr listenerRole
      (net, result.isOk)
  | .inbound localAddr remoteAddr peer => net.inboundAllowed localAddr remoteAddr peer
  | .outboundEstablished addr peer => net.outboundEstablishedAllowed addr peer

/-- One question after another. -/
def checks (net : NetPolicy) : List PolicyCheck → NetPolicy × List Bool
  | [] => (net, [])
  | c :: cs =>
      let (net, ok) := net.check c
      let (net, oks) := net.checks cs
      (net, ok :: oks)

end NetPolicy

end Snip
