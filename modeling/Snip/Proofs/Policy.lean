/-
What an allow-list lets through.

A block matches the addresses it contains, to the bit: this is arithmetic on the mask.
An address is judged by the components it begins with, so its first host is matched by
an entry whenever it is allowed.  No later component is looked at, and a second host
behind an allowed one goes through.
-/
import Mathlib.Tactic.NormNum
import Snip.Lib.Lists
import Snip.Net.Policy

namespace Snip

/-! ### The mask -/

/-- The mask clears the lowest bits. -/
theorem and_netMask {w prefixLen : Nat} (x : BitVec w) :
    x &&& netMask w prefixLen = (x >>> (w - prefixLen)) <<< (w - prefixLen) := by
  unfold netMask
  by_cases hzero : prefixLen = 0
  · rw [if_pos hzero, hzero, Nat.sub_zero]
    simp
  · rw [if_neg hzero]
    ext i hi
    simp only [BitVec.getElem_and, BitVec.getElem_shiftLeft, BitVec.getElem_ushiftRight]
    by_cases hlow : i < w - prefixLen
    · simp [hlow]
    · simp [hlow, Nat.add_sub_cancel' (Nat.le_of_not_lt hlow), BitVec.getLsbD_eq_getElem hi]

theorem toNat_and_netMask {w prefixLen : Nat} (x : BitVec w) :
    (x &&& netMask w prefixLen).toNat = x.toNat / 2 ^ (w - prefixLen) * 2 ^ (w - prefixLen) := by
  have hle : x.toNat / 2 ^ (w - prefixLen) * 2 ^ (w - prefixLen) ≤ x.toNat :=
    Nat.div_mul_le_self _ _
  rw [and_netMask, BitVec.toNat_shiftLeft, BitVec.toNat_ushiftRight, Nat.shiftRight_eq_div_pow,
    Nat.shiftLeft_eq, Nat.mod_eq_of_lt (Nat.lt_of_le_of_lt hle x.isLt)]

/-- Two addresses agree under the mask exactly if their leading bits do. -/
theorem and_netMask_eq_iff {w prefixLen : Nat} (x y : BitVec w) :
    x &&& netMask w prefixLen = y &&& netMask w prefixLen ↔
      x.toNat / 2 ^ (w - prefixLen) = y.toNat / 2 ^ (w - prefixLen) := by
  rw [← BitVec.toNat_inj, toNat_and_netMask, toNat_and_netMask]
  exact Nat.mul_left_inj (Nat.ne_of_gt (Nat.pow_pos (by norm_num)))

/-! ### Blocks -/

/-- A block as it is written: an address and how many of its bits count. -/
structure IpBlock where
  addr : IpAddr
  prefixLen : Nat
  le_width : prefixLen ≤ addr.width

/-- The entry a block is kept as. -/
def IpBlock.entry (block : IpBlock) : AllowEntry :=
  .network (mask block.addr block.prefixLen) block.prefixLen

/-- An address read as IPv4, where it is one or maps one. -/
def IpAddr.asV4 : IpAddr → Option (BitVec 32)
  | v4 addr => some addr
  | v6 addr => toIpv4Mapped addr

/--
The address lies in the block: its leading bits are those of the block.  A block of IPv4
addresses reads the address as IPv4, a block of IPv6 addresses takes it as it is written.
-/
def IpBlock.Contains (block : IpBlock) (ip : IpAddr) : Prop :=
  match block.addr with
  | .v4 net => ∃ x, ip.asV4 = some x ∧
      x.toNat / 2 ^ (32 - block.prefixLen) = net.toNat / 2 ^ (32 - block.prefixLen)
  | .v6 net => ∃ x, ip = .v6 x ∧
      x.toNat / 2 ^ (128 - block.prefixLen) = net.toNat / 2 ^ (128 - block.prefixLen)

/-- The host component of an IP address. -/
def IpAddr.component : IpAddr → Protocol
  | v4 addr => .ip4 addr
  | v6 addr => .ip6 addr

theorem networkContains_iff (block : IpBlock) (ip : IpAddr) :
    networkContains (mask block.addr block.prefixLen) block.prefixLen ip = true ↔
      block.Contains ip := by
  obtain ⟨addr, prefixLen, -⟩ := block
  cases addr with
  | v4 net =>
      have hmask : ∀ x : BitVec 32, mask (.v4 x) prefixLen = mask (.v4 net) prefixLen ↔
          x.toNat / 2 ^ (32 - prefixLen) = net.toNat / 2 ^ (32 - prefixLen) := by
        intro x
        simp only [mask, IpAddr.v4.injEq]
        exact and_netMask_eq_iff x net
      cases ip with
      | v4 x =>
          simp only [networkContains, mask, IpBlock.Contains, IpAddr.asV4, Option.some.injEq,
            exists_eq_left']
          exact decide_eq_true_iff.trans (hmask x)
      | v6 x =>
          simp only [networkContains, mask, IpBlock.Contains, IpAddr.asV4]
          cases toIpv4Mapped x with
          | none => simp
          | some v4 =>
              simp only [Option.some.injEq, exists_eq_left']
              exact decide_eq_true_iff.trans (hmask v4)
  | v6 net =>
      cases ip with
      | v4 x => simp [networkContains, mask, IpBlock.Contains]
      | v6 x =>
          simp only [networkContains, mask, IpBlock.Contains, IpAddr.v6.injEq, exists_eq_left',
            decide_eq_true_eq]
          exact and_netMask_eq_iff x net

/-- **A block matches the addresses it contains**, on any port and for any peer. -/
theorem block_matches_iff (block : IpBlock) (ip : IpAddr) (rest : Multiaddr)
    (peer : Option PeerId) (pin : PeerPin) :
    block.entry.matches (ip.component :: rest) peer pin = true ↔ block.Contains ip := by
  rw [← networkContains_iff]
  cases ip with
  | v4 x => rfl
  | v6 x => rfl

/-! ### Hosts -/

namespace AddrPolicy

variable {policy : AddrPolicy} {addr : Multiaddr} {peerHint : Option PeerId}

/-- Some entry matches the address from component `i` on. -/
def MatchesAt (policy : AddrPolicy) (addr : Multiaddr) (peerHint : Option PeerId) (i : Nat) :
    Prop :=
  ∃ e ∈ policy.entries,
    e.matches ((judged addr peerHint).1.drop i) (judged addr peerHint).2 .enforce = true

/-- The component at `i`, before a relay circuit, is a host. -/
def HostAt (addr : Multiaddr) (peerHint : Option PeerId) (i : Nat) : Prop :=
  ∃ c, (judged addr peerHint).1[i]? = some c ∧ isHost c = true

/-- Behind an allowed beginning there is a host that no entry matches. -/
def HidesHost (policy : AddrPolicy) (addr : Multiaddr) (peerHint : Option PeerId) : Prop :=
  HostAt addr peerHint 0 ∧ policy.MatchesAt addr peerHint 0 ∧
    (∀ c ∈ (judged addr peerHint).1, c.isP2p = false) ∧
    ∃ i, 0 < i ∧ HostAt addr peerHint i ∧ ¬ policy.MatchesAt addr peerHint i

/-- **An address is judged by what it begins with.** -/
theorem allows_iff : policy.allows addr peerHint = true ↔
    HostAt addr peerHint 0 ∧ policy.MatchesAt addr peerHint 0 ∧
      ∀ c ∈ (judged addr peerHint).1, c.isP2p = false := by
  unfold allows decide HostAt MatchesAt
  obtain ⟨transport, peer⟩ := judged addr peerHint
  cases transport with
  | nil => simp
  | cons host rest =>
      simp only [List.drop_zero, List.getElem?_cons_zero, Option.some.injEq, exists_eq_left']
      by_cases hrefused : isHost host = false ∨ (host :: rest).any Protocol.isP2p = true
      · rw [if_pos hrefused]
        constructor
        · intro h
          cases h
        · rintro ⟨hhost, -, hpeers⟩
          rcases hrefused with hno | hp2p
          · rw [hhost] at hno
            cases hno
          · obtain ⟨c, hc, hpeer⟩ := List.any_eq_true.mp hp2p
            rw [hpeers c hc] at hpeer
            cases hpeer
      · rw [if_neg hrefused, List.any_eq_true]
        rw [not_or, Bool.not_eq_false, Bool.not_eq_true, List.any_eq_false] at hrefused
        constructor
        · intro hmatch
          exact ⟨hrefused.1, hmatch, fun c hc => Bool.not_eq_true _ ▸ hrefused.2 c hc⟩
        · rintro ⟨-, hmatch, -⟩
          exact hmatch

/-- Every host before a relay circuit, with what follows it, is matched by some entry. -/
def HostsMatched (policy : AddrPolicy) (addr : Multiaddr) (peerHint : Option PeerId) : Prop :=
  ∀ i, HostAt addr peerHint i → policy.MatchesAt addr peerHint i

theorem hostsMatched_of_allows_iff (policy : AddrPolicy) (addr : Multiaddr)
    (peerHint : Option PeerId) :
    (policy.allows addr peerHint = true → policy.HostsMatched addr peerHint) ↔
      ¬ policy.HidesHost addr peerHint := by
  rw [allows_iff]
  constructor
  · rintro h ⟨hhost, hmatch, hpeers, i, -, hlater, hunmatched⟩
    exact hunmatched (h ⟨hhost, hmatch, hpeers⟩ i hlater)
  · rintro hhides ⟨hhost, hmatch, hpeers⟩ i hlater
    rcases Nat.eq_zero_or_pos i with rfl | hi
    · exact hmatch
    · by_contra hunmatched
      exact hhides ⟨hhost, hmatch, hpeers, i, hi, hlater, hunmatched⟩

end AddrPolicy

/--
**An allow-list restricts the hosts of an address exactly if no further host hides behind
an allowed one**, and its blocks match exactly the addresses they contain.
-/
theorem policy_restricts_hosts_iff (policy : AddrPolicy) (addr : Multiaddr)
    (peerHint : Option PeerId) :
    ((policy.allows addr peerHint = true → policy.HostsMatched addr peerHint) ↔
      ¬ policy.HidesHost addr peerHint) ∧
    ∀ (block : IpBlock) (ip : IpAddr) (rest : Multiaddr) (peer : Option PeerId) (pin : PeerPin),
      block.entry.matches (ip.component :: rest) peer pin = true ↔ block.Contains ip :=
  ⟨policy.hostsMatched_of_allows_iff addr peerHint, block_matches_iff⟩

/-- The block `10.0.0.0/8`. -/
def tenBlock : IpBlock := ⟨.v4 0x0a000000, 8, by decide⟩

/-- `10.0.0.1`, and behind it `8.8.8.8`. -/
def twoHosts : Multiaddr := [.ip4 0x0a000001, .tcp 1, .ip4 0x08080808, .tcp 2]

/-- The transport lets an address through whose second host is on no list. -/
theorem second_host_let_through :
    let policy : AddrPolicy := ⟨[tenBlock.entry], by decide⟩
    ((NetPolicy.mk (some policy) .kad fun _ => 0).checkTransportDial twoHosts false).2 = .ok () ∧
    policy.allows twoHosts none = true ∧ ¬ policy.HostsMatched twoHosts none := by
  refine ⟨by decide, by decide, ?_⟩
  intro hmatched
  obtain ⟨e, he, hmatch⟩ := hmatched 2 ⟨.ip4 0x08080808, by decide, rfl⟩
  obtain rfl := List.mem_singleton.mp he
  revert hmatch
  decide

/-! ### Runs of checks -/

/-- The source that a refusal of the check is counted under. -/
def PolicyCheck.source : PolicyCheck → PolicySource
  | admitAddr source _ _ => source
  | transportDial label _ listenerRole => if label = .other ∧ listenerRole then .autodial else label
  | inbound _ _ _ => .inbound
  | outboundEstablished _ _ => .other

/-- The address that the check is about, with what is known of the peer. -/
def PolicyCheck.subject : PolicyCheck → Multiaddr × Option PeerId × PeerPin
  | admitAddr _ addr peer => (addr, peer, .enforce)
  | transportDial _ addr _ => (addr, none, .enforce)
  | inbound localAddr remoteAddr peer =>
      if .p2pCircuit ∈ localAddr then (localAddr, none, .enforce)
      else (remoteAddr, peer, if peer.isSome then .enforce else .defer)
  | outboundEstablished addr peer => (addr, some peer, .enforce)

/-- Whether the list lets the subject of the check pass. -/
def AddrPolicy.passes (policy : AddrPolicy) (c : PolicyCheck) : Bool :=
  policy.decide c.subject.1 c.subject.2.1 c.subject.2.2

namespace NetPolicy

variable {net : NetPolicy}

/-- The policy once the label of the dial is set, if the check is a dial. -/
def begun (net : NetPolicy) : PolicyCheck → NetPolicy
  | .transportDial label _ _ => net.beginDial label
  | _ => net

end NetPolicy

/-! ### What an entry covers -/

end Snip
