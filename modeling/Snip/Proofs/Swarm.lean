/-
What one turn of the swarm task does.

A task whose tables hold only what it has numbered itself never files two requests under
one key, so no record is poisoned and each turn is one of a few: a request goes out and is
filed, an answer goes out and its channel is gone, a request is announced under a number
of its own, an answer or a failure takes its record and may be told.
-/
import Snip.Net.Swarm
import Snip.Proofs.Codec
import Snip.Proofs.Correlation

namespace Snip

/-! ### Commands by their domain -/

/-- The request a command asks for, with the behaviour it is for. -/
def SwarmCommand.asked : SwarmCommand → Option (RequestDomain × PeerId × ShardRequestVersioned)
  | .requestShard peerId request => some (.shardXferV1, peerId, .v1 request)
  | .requestShardV2 peerId request => some (.shardXferV2, peerId, .v2 request)
  | _ => none

/-- The answer a command offers, with the behaviour it is for. -/
def SwarmCommand.offered : SwarmCommand → Option (RequestDomain × Nat × ShardResponseVersioned)
  | .sendShardResponse channelId response => some (.shardXferV1, channelId, .v1 response)
  | .sendShardResponseV2 channelId response => some (.shardXferV2, channelId, .v2 response)
  | _ => none

theorem ShardRequestVersioned.kind_protocol (request : ShardRequestVersioned) :
    request.kind.protocol = request.protocol := by
  cases request with
  | v1 request =>
      unfold kind OutboundRequestKind.fromV1
      dsimp only
      split
      · rfl
      · split
        · rfl
        · rfl
  | v2 request =>
      cases request with
      | _ => rfl

theorem SwarmCommand.asked_protocol {cmd : SwarmCommand} {domain : RequestDomain} {peer : PeerId}
    {request : ShardRequestVersioned} (h : cmd.asked = some (domain, peer, request)) :
    request.kind.protocol = domain.protocol := by
  rw [request.kind_protocol]
  cases cmd with
  | requestShard peerId request => cases h; rfl
  | requestShardV2 peerId request => cases h; rfl
  | sendShardResponse channelId response => cases h
  | sendShardResponseV2 channelId response => cases h

theorem versionsAgree_of_protocol {domain : RequestDomain} {request : ShardRequestVersioned}
    (h : request.protocol = domain.protocol) : SumSwarm.versionsAgree domain request = true := by
  cases domain with
  | shardXferV1 =>
      cases request with
      | v1 request => rfl
      | v2 request => exact absurd h protocolV2_ne_V1
  | shardXferV2 =>
      cases request with
      | v1 request => exact absurd h protocolV2_ne_V1.symm
      | v2 request => rfl

/-- The refusals that a bug of the task, or of the library under it, would be counted as. -/
def SwarmRefusals.faults (r : SwarmRefusals) : Nat :=
  r.outboundDomainProtocolMismatch + r.outboundIdCollision + r.inboundVersionDomainMismatch

theorem SwarmRefusals.faults_countWrongDomain (r : SwarmRefusals) (domain : RequestDomain) :
    (r.countWrongDomain domain).faults = r.faults := by
  cases domain with
  | shardXferV1 => rfl
  | shardXferV2 => rfl

/-! ### One turn -/

namespace SumSwarm

variable {γ : Type}

/-- The tables hold only what the task has numbered, and no number twice. -/
structure Sound (ids : RequestIds) (s : SumSwarm γ) : Prop where
  channels : ∀ channelId entry, s.pendingShardChannels.lookup channelId = some entry →
    channelId < s.nextChannelId
  requests : ∀ key slot, s.outbound.slots.lookup key = some slot →
    (∃ k, k < s.sentRequests key.domain ∧ key.id = ids.mint key.domain k) ∧
    ∃ peer kind issuedAt, slot = .pending peer kind issuedAt

theorem sound_build (ids : RequestIds) : (build : SumSwarm γ).Sound ids := by
  refine ⟨?_, ?_⟩
  · intro channelId entry h
    cases h
  · intro key slot h
    cases h

/-- The record under a key is gone, and every other record is as it was. -/
def Cleared (t t' : OutboundTracker) (key : OutboundKey) : Prop :=
  ∀ key', t'.slots.lookup key' = if key' = key then none else t.slots.lookup key'

/-- The loops above are told of an event, if their queue has room. -/
def Tells (event : ShardEvent) (effects : List (SwarmEffect γ)) : Prop :=
  effects = [.emitted event] ∨ effects = [.dropped event]

/-- The queue after it. -/
inductive Told (queue : Chan ShardEvent eventCapacity) (event : ShardEvent) :
    Chan ShardEvent eventCapacity → List (SwarmEffect γ) → Prop
  | emitted {queue' : Chan ShardEvent eventCapacity} : queue.items.length < eventCapacity →
      queue'.items = queue.items ++ [event] → Told queue event queue' [.emitted event]
  | dropped : queue.items.length = eventCapacity → Told queue event queue [.dropped event]

/-- What a turn can do. -/
inductive Turn (ids : RequestIds) (s : SumSwarm γ) :
    SwarmInput γ → SumSwarm γ → List (SwarmEffect γ) → Prop
  | asked {cmd : SwarmCommand} {now : Nat} {domain : RequestDomain} {peer : PeerId}
      {request : ShardRequestVersioned} {id : Nat} : cmd.asked = some (domain, peer, request) →
      id = ids.mint domain (s.sentRequests domain) →
      Turn ids s (.command cmd now)
        { s with
          sentRequests :=
            Function.update s.sentRequests domain (s.sentRequests domain + 1)
          outbound := ⟨s.outbound.slots.insert ⟨domain, id⟩ (.pending peer request.kind now)⟩ }
        [.sendRequest domain id peer request]
  | replied {cmd : SwarmCommand} {now : Nat} {domain : RequestDomain} {channelId : Nat}
      {response : ShardResponseVersioned} {channel : γ} {since : Nat} :
      cmd.offered = some (domain, channelId, response) →
      s.pendingShardChannels.lookup channelId = some (⟨domain, channel⟩, since) →
      Turn ids s (.command cmd now)
        { s with pendingShardChannels := s.pendingShardChannels.erase channelId }
        [.sendResponse domain channel response]
  | refused {cmd : SwarmCommand} {now : Nat} {domain : RequestDomain} {channelId : Nat}
      {response : ShardResponseVersioned} {refusals : SwarmRefusals} :
      cmd.offered = some (domain, channelId, response) →
      (∀ channel since,
        s.pendingShardChannels.lookup channelId ≠ some (⟨domain, channel⟩, since)) →
      refusals.faults = s.refusals.faults →
      Turn ids s (.command cmd now) { s with refusals } []
  | announced {domain : RequestDomain} {peer : PeerId} {request : ShardRequestVersioned}
      {channel : γ} {now : Nat} {events : Chan ShardEvent eventCapacity} :
      versionsAgree domain request = true →
      s.events.items.length < eventCapacity →
      events.items = s.events.items ++ [.requested peer s.nextChannelId request] →
      Turn ids s (.inboundRequest domain peer request channel now)
        { s with
          nextChannelId := s.nextChannelId + 1
          pendingShardChannels :=
            s.pendingShardChannels.insert s.nextChannelId (⟨domain, channel⟩, now)
          events }
        [.emitted (.requested peer s.nextChannelId request)]
  | turnedAway {domain : RequestDomain} {peer : PeerId} {request : ShardRequestVersioned}
      {channel : γ} {now : Nat} : versionsAgree domain request = true →
      s.events.items.length = eventCapacity →
      Turn ids s (.inboundRequest domain peer request channel now)
        { s with
          nextChannelId := s.nextChannelId + 1
          pendingShardChannels :=
            (s.pendingShardChannels.insert s.nextChannelId (⟨domain, channel⟩, now)).erase
              s.nextChannelId }
        [.dropped (.requested peer s.nextChannelId request)]
  | mismatched {domain : RequestDomain} {peer : PeerId} {request : ShardRequestVersioned}
      {channel : γ} {now : Nat} {refusals : SwarmRefusals} : versionsAgree domain request = false →
      Turn ids s (.inboundRequest domain peer request channel now) { s with refusals } []
  | received {domain : RequestDomain} {id : Nat} {response : ShardResponseVersioned}
      {origin : OutboundOrigin} {issuedAt : Nat} {outbound : OutboundTracker}
      {events : Chan ShardEvent eventCapacity} {effects : List (SwarmEffect γ)} :
      s.outbound.slots.lookup ⟨domain, id⟩ = some (.pending origin.peer origin.kind issuedAt) →
      Answers origin.kind response → Cleared s.outbound outbound ⟨domain, id⟩ →
      Told s.events (.received origin.peer origin response) events effects →
      Turn ids s (.inboundResponse domain origin.peer id response) { s with outbound, events }
        effects
  | unreceived {domain : RequestDomain} {peer : PeerId} {id : Nat}
      {response : ShardResponseVersioned} {outbound : OutboundTracker} :
      (∀ kind issuedAt, s.outbound.slots.lookup ⟨domain, id⟩ = some (.pending peer kind issuedAt) →
        ¬ Answers kind response) →
      Cleared s.outbound outbound ⟨domain, id⟩ →
      Turn ids s (.inboundResponse domain peer id response) { s with outbound } []
  | failed {domain : RequestDomain} {id : Nat} {error : Str} {origin : OutboundOrigin}
      {issuedAt : Nat} {outbound : OutboundTracker} {events : Chan ShardEvent eventCapacity}
      {effects : List (SwarmEffect γ)} :
      s.outbound.slots.lookup ⟨domain, id⟩ = some (.pending origin.peer origin.kind issuedAt) →
      Cleared s.outbound outbound ⟨domain, id⟩ →
      Told s.events (.failed error origin) events effects →
      Turn ids s (.outboundFailure domain origin.peer id error) { s with outbound, events } effects
  | unfailed {domain : RequestDomain} {peer : PeerId} {id : Nat} {error : Str}
      {outbound : OutboundTracker} :
      (∀ kind issuedAt,
        s.outbound.slots.lookup ⟨domain, id⟩ ≠ some (.pending peer kind issuedAt)) →
      Cleared s.outbound outbound ⟨domain, id⟩ →
      Turn ids s (.outboundFailure domain peer id error) { s with outbound } []
  | network {event : PeerEvent} {events : Chan ShardEvent eventCapacity}
      {effects : List (SwarmEffect γ)} : Told s.events (.peer event) events effects →
      Turn ids s (.peerEvent event) { s with events } effects
  | reaped {now now' : Nat} :
      Turn ids s (.reaperTick now now') (s.reapOrphanedChannels now now') []
  | taken {event : ShardEvent} {events : Chan ShardEvent eventCapacity} :
      s.events.items = event :: events.items →
      Turn ids s .nextEvent { s with events } [.taken event]
  | idle : s.events.items = [] → Turn ids s .nextEvent s []

variable {ids : RequestIds} {s : SumSwarm γ}

/-- A sound task has no record under the number its behaviour gives next. -/
theorem Sound.vacant (h : s.Sound ids) (domain : RequestDomain) :
    s.outbound.slots.lookup ⟨domain, ids.mint domain (s.sentRequests domain)⟩ = none := by
  cases hslot : s.outbound.slots.lookup ⟨domain, ids.mint domain (s.sentRequests domain)⟩ with
  | none => rfl
  | some slot =>
      obtain ⟨⟨k, hk, hid⟩, -⟩ := h.requests _ slot hslot
      have hsame : s.sentRequests domain = k := ids.unique domain hid
      dsimp only at hk
      omega

theorem Sound.vacantChannel (h : s.Sound ids) :
    s.pendingShardChannels.lookup s.nextChannelId = none := by
  cases hentry : s.pendingShardChannels.lookup s.nextChannelId with
  | none => rfl
  | some entry => exact absurd (h.channels _ entry hentry) (Nat.lt_irrefl _)

theorem trySend_cases (s : SumSwarm γ) (event : ShardEvent) :
    ∃ events, (s.trySend event).1 = { s with events } ∧
      Told s.events event events (s.trySend event).2 := by
  unfold trySend
  split
  · rename_i events hsend
    obtain ⟨hroom, hitems⟩ := Chan.send?_eq_some hsend
    exact ⟨events, rfl, .emitted hroom hitems⟩
  · rename_i hsend
    exact ⟨s.events, rfl, .dropped (Chan.send?_eq_none hsend)⟩

theorem Told.mem {queue queue' : Chan ShardEvent eventCapacity} {event : ShardEvent}
    {effect : SwarmEffect γ} {effects : List (SwarmEffect γ)}
    (h : Told queue event queue' effects) (hmem : effect ∈ effects) :
    effect = .emitted event ∨ effect = .dropped event := by
  cases h with
  | emitted hroom hitems => exact Or.inl (List.mem_singleton.mp hmem)
  | dropped hfull => exact Or.inr (List.mem_singleton.mp hmem)

theorem Told.tells {queue queue' : Chan ShardEvent eventCapacity} {event : ShardEvent}
    {effects : List (SwarmEffect γ)} (h : Told queue event queue' effects) :
    Tells event effects := by
  cases h with
  | emitted hroom hitems => exact Or.inl rfl
  | dropped hfull => exact Or.inr rfl

theorem request_turn (h : s.Sound ids) {cmd : SwarmCommand} {domain : RequestDomain}
    {peer : PeerId} {req : ShardRequestVersioned} (hasked : cmd.asked = some (domain, peer, req))
    (now : Nat) : Turn ids s (.command cmd now) (s.request ids domain peer req now).1
      (s.request ids domain peer req now).2 := by
  have hrecord : s.outbound.record ⟨domain, ids.mint domain (s.sentRequests domain)⟩ peer req.kind
      now = (⟨s.outbound.slots.insert ⟨domain, ids.mint domain (s.sentRequests domain)⟩
        (.pending peer req.kind now)⟩, .ok ()) := by
    unfold OutboundTracker.record
    rw [if_neg (not_not.mpr (SwarmCommand.asked_protocol hasked)), h.vacant domain]
  have hturn : Turn ids s (.command cmd now) _ _ := Turn.asked hasked rfl
  unfold request recordOutbound
  dsimp only
  rw [hrecord]
  exact hturn

theorem respond_turn {cmd : SwarmCommand} {domain : RequestDomain} {channelId : Nat}
    {response : ShardResponseVersioned}
    (hoffered : cmd.offered = some (domain, channelId, response)) (now : Nat) :
    Turn ids s (.command cmd now) (s.respond domain channelId response).1
      (s.respond domain channelId response).2 := by
  unfold respond takeChannel
  cases hentry : s.pendingShardChannels.lookup channelId with
  | none =>
      refine .refused hoffered ?_ rfl
      intro channel since
      rw [hentry]
      intro heq
      cases heq
  | some entry =>
      obtain ⟨⟨owner, channel⟩, since⟩ := entry
      dsimp only
      by_cases hdomain : owner = domain
      · subst hdomain
        rw [if_neg (not_not.mpr rfl)]
        exact .replied hoffered hentry
      · rw [if_pos hdomain]
        refine .refused hoffered ?_ (s.refusals.faults_countWrongDomain domain)
        intro channel' since'
        rw [hentry]
        intro heq
        cases heq
        exact hdomain rfl

theorem inboundRequest_turn (domain : RequestDomain) (peer : PeerId)
    (request : ShardRequestVersioned) (channel : γ) (now : Nat) :
    Turn ids s (.inboundRequest domain peer request channel now)
      (s.onInboundRequest domain peer request channel now).1
      (s.onInboundRequest domain peer request channel now).2 := by
  unfold onInboundRequest
  cases hagree : versionsAgree domain request with
  | false => exact .mismatched hagree
  | true =>
      rw [if_neg (by simp)]
      dsimp only
      split
      · rename_i events hsend
        obtain ⟨hroom, hitems⟩ := Chan.send?_eq_some hsend
        exact .announced hagree hroom hitems
      · rename_i hsend
        exact .turnedAway hagree (Chan.send?_eq_none hsend)

/-- No record under the key, so nothing to clear. -/
theorem cleared_of_none {t : OutboundTracker} {key : OutboundKey}
    (h : t.slots.lookup key = none) : Cleared t t key := by
  intro key'
  split
  · rename_i heq
    rw [heq, h]
  · rfl

theorem cleared_erase (t : OutboundTracker) (key : OutboundKey) :
    Cleared t ⟨t.slots.erase key⟩ key := fun key' => Maps.lookup_erase t.slots key key'

theorem inboundResponse_turn (h : s.Sound ids) (domain : RequestDomain) (peer : PeerId) (id : Nat)
    (response : ShardResponseVersioned) :
    Turn ids s (.inboundResponse domain peer id response)
      (s.onInboundResponse domain peer id response).1
      (s.onInboundResponse domain peer id response).2 := by
  unfold onInboundResponse OutboundTracker.correlateResponse
  cases hslot : s.outbound.slots.lookup ⟨domain, id⟩ with
  | none =>
      refine .unreceived ?_ (cleared_of_none hslot)
      intro kind issuedAt hpending
      rw [hslot] at hpending
      cases hpending
  | some slot =>
      obtain ⟨-, asked, kind, issuedAt, rfl⟩ := h.requests _ slot hslot
      dsimp only
      by_cases hpeer : asked = peer
      · subst hpeer
        rw [if_neg (not_not.mpr rfl)]
        cases hcheck : kind.check response with
        | error e =>
            refine .unreceived ?_ (cleared_erase _ _)
            intro kind' issuedAt' hpending
            rw [hslot] at hpending
            cases hpending
            rw [← check_ok_iff, hcheck]
            intro hok
            cases hok
        | ok u =>
            have hanswers : Answers kind response := check_ok_iff.mp hcheck
            obtain ⟨events, hstate, htells⟩ := trySend_cases
              ({ s with outbound := ⟨s.outbound.slots.erase ⟨domain, id⟩⟩ } : SumSwarm γ)
              (.received asked ⟨asked, kind⟩ response)
            dsimp only
            rw [hstate]
            exact @Turn.received _ ids s domain id response ⟨asked, kind⟩ issuedAt _ _ _ hslot
              hanswers (cleared_erase _ _) htells
      · rw [if_pos hpeer]
        refine .unreceived ?_ (cleared_erase _ _)
        intro kind' issuedAt' hpending
        rw [hslot] at hpending
        cases hpending
        exact absurd rfl hpeer

theorem outboundFailure_turn (h : s.Sound ids) (domain : RequestDomain) (peer : PeerId) (id : Nat)
    (error : Str) :
    Turn ids s (.outboundFailure domain peer id error) (s.onOutboundFailure domain peer id error).1
      (s.onOutboundFailure domain peer id error).2 := by
  unfold onOutboundFailure OutboundTracker.onFailure
  cases hslot : s.outbound.slots.lookup ⟨domain, id⟩ with
  | none =>
      refine .unfailed ?_ (cleared_of_none hslot)
      intro kind issuedAt hpending
      rw [hslot] at hpending
      cases hpending
  | some slot =>
      obtain ⟨-, asked, kind, issuedAt, rfl⟩ := h.requests _ slot hslot
      dsimp only
      by_cases hpeer : asked = peer
      · subst hpeer
        rw [if_neg (not_not.mpr rfl)]
        obtain ⟨events, hstate, htells⟩ := trySend_cases
          ({ s with outbound := ⟨s.outbound.slots.erase ⟨domain, id⟩⟩ } : SumSwarm γ)
          (.failed error ⟨asked, kind⟩)
        rw [hstate]
        exact @Turn.failed _ ids s domain id error ⟨asked, kind⟩ issuedAt _ _ _ hslot
          (cleared_erase _ _) htells
      · rw [if_pos hpeer]
        refine .unfailed ?_ (cleared_erase _ _)
        intro kind' issuedAt' hpending
        rw [hslot] at hpending
        cases hpending
        exact absurd rfl hpeer

/-- **A turn of a sound task** is one of these. -/
theorem step_turn (h : s.Sound ids) (input : SwarmInput γ) :
    Turn ids s input (s.step ids input).1 (s.step ids input).2 := by
  cases input with
  | command cmd now =>
      cases cmd with
      | requestShard peerId req =>
          have hasked : (SwarmCommand.requestShard peerId req).asked = some (_, peerId, _) := rfl
          exact request_turn h hasked now
      | requestShardV2 peerId req =>
          have hasked : (SwarmCommand.requestShardV2 peerId req).asked = some (_, peerId, _) := rfl
          exact request_turn h hasked now
      | sendShardResponse channelId response =>
          have hoffered : (SwarmCommand.sendShardResponse channelId response).offered =
              some (_, channelId, _) := rfl
          exact respond_turn hoffered now
      | sendShardResponseV2 channelId response =>
          have hoffered : (SwarmCommand.sendShardResponseV2 channelId response).offered =
              some (_, channelId, _) := rfl
          exact respond_turn hoffered now
  | inboundRequest domain peer request channel now =>
      exact inboundRequest_turn domain peer request channel now
  | inboundResponse domain peer requestId response =>
      exact inboundResponse_turn h domain peer requestId response
  | outboundFailure domain peer requestId error =>
      exact outboundFailure_turn h domain peer requestId error
  | peerEvent event =>
      obtain ⟨events, hstate, htells⟩ := s.trySend_cases (.peer event)
      unfold step
      dsimp only
      rw [hstate]
      exact .network htells
  | reaperTick now now' => exact .reaped
  | nextEvent =>
      unfold step
      dsimp only
      split
      · rename_i event events hrecv
        exact .taken (Chan.recv?_eq_some hrecv)
      · rename_i hrecv
        exact .idle (Chan.recv?_eq_none hrecv)

/-! ### What a turn does to the tables -/

/-- A request to this node is announced under a number. -/
def Announces (input : SwarmInput γ) (effects : List (SwarmEffect γ)) (channelId : Nat)
    (entry : PendingChannel γ × Nat) : Prop :=
  ∃ peer request, input = .inboundRequest entry.1.domain peer request entry.1.channel entry.2 ∧
    effects = [.emitted (.requested peer channelId request)]

/-- What takes a channel off the table: an answer of its domain, or the reaper. -/
def Closes (channelId : Nat) (entry : PendingChannel γ × Nat) : SwarmInput γ → Prop
  | .command cmd _ => ∃ response, cmd.offered = some (entry.1.domain, channelId, response)
  | .reaperTick now _ => pendingChannelTimeout < now - entry.2
  | _ => False

/-- A request of this node goes out under a key. -/
def Files (input : SwarmInput γ) (effects : List (SwarmEffect γ)) (key : OutboundKey)
    (record : OutboundOrigin × Nat) : Prop :=
  ∃ cmd request, input = .command cmd record.2 ∧ request.kind = record.1.kind ∧
    effects = [.sendRequest key.domain key.id record.1.peer request]

/-- What takes a record off the table: an answer, a failure, or the reaper. -/
def Settles (key : OutboundKey) (record : OutboundOrigin × Nat) : SwarmInput γ → Prop
  | .inboundResponse domain _ id _ => key = ⟨domain, id⟩
  | .outboundFailure domain _ id _ => key = ⟨domain, id⟩
  | .reaperTick _ now' => outboundRecordTtl ≤ now' - record.2
  | _ => False

/-- The record under a key. -/
def record? (s : SumSwarm γ) (key : OutboundKey) : Option (OutboundOrigin × Nat) :=
  match s.outbound.slots.lookup key with
  | some (.pending peer kind issuedAt) => some (⟨peer, kind⟩, issuedAt)
  | _ => none

theorem record?_eq_some {key : OutboundKey} {origin : OutboundOrigin} {issuedAt : Nat} :
    s.record? key = some (origin, issuedAt) ↔
      s.outbound.slots.lookup key = some (.pending origin.peer origin.kind issuedAt) := by
  unfold record?
  constructor
  · intro h
    split at h
    · rename_i peer kind issuedAt' hslot
      cases h
      exact hslot
    · cases h
  · intro h
    rw [h]

variable {input : SwarmInput γ} {s' : SumSwarm γ} {effects : List (SwarmEffect γ)}

/-- A turn that leaves the table of channels alone. -/
theorem channel_iff_of_same {channelId : Nat} {entry : PendingChannel γ × Nat}
    (hsame : s'.pendingShardChannels = s.pendingShardChannels)
    (hquiet : ¬ Announces input effects channelId entry)
    (hopen : s.pendingShardChannels.lookup channelId = some entry →
      ¬ Closes channelId entry input) :
    s'.pendingShardChannels.lookup channelId = some entry ↔
      Announces input effects channelId entry ∨
        (s.pendingShardChannels.lookup channelId = some entry ∧
          ¬ Closes channelId entry input) := by
  rw [hsame]
  constructor
  · intro h
    exact Or.inr ⟨h, hopen h⟩
  · rintro (h | ⟨h, -⟩)
    · exact absurd h hquiet
    · exact h

theorem not_announces_of_effects {channelId : Nat} {entry : PendingChannel γ × Nat}
    (h : ∀ event, effects ≠ [.emitted event]) : ¬ Announces input effects channelId entry := by
  rintro ⟨peer, request, -, heffects⟩
  exact h _ heffects

theorem not_announces_of_input {channelId : Nat} {entry : PendingChannel γ × Nat}
    (h : ∀ domain peer request channel now,
      input ≠ .inboundRequest domain peer request channel now) :
    ¬ Announces input effects channelId entry := by
  rintro ⟨peer, request, hinput, -⟩
  exact h _ _ _ _ _ hinput

/-- **The channels after a turn.** -/
theorem Turn.channel_iff (h : s.Sound ids) (turn : Turn ids s input s' effects) (channelId : Nat)
    (entry : PendingChannel γ × Nat) :
    s'.pendingShardChannels.lookup channelId = some entry ↔
      Announces input effects channelId entry ∨
        (s.pendingShardChannels.lookup channelId = some entry ∧
          ¬ Closes channelId entry input) := by
  cases turn with
  | @asked cmd now domain peer request id hasked hid =>
      refine channel_iff_of_same rfl (not_announces_of_effects fun _ heq => ?_) fun _ hcloses => ?_
      · cases heq
      · obtain ⟨response, hoffered⟩ := hcloses
        cases cmd with
        | requestShard peerId req => cases hoffered
        | requestShardV2 peerId req => cases hoffered
        | sendShardResponse id' resp => cases hasked
        | sendShardResponseV2 id' resp => cases hasked
  | @replied cmd now domain id response channel since hoffered hentry =>
      dsimp only
      rw [Maps.lookup_erase_some]
      constructor
      · rintro ⟨hne, hlookup⟩
        refine Or.inr ⟨hlookup, ?_⟩
        rintro ⟨response', hoffered'⟩
        rw [hoffered] at hoffered'
        cases hoffered'
        exact hne rfl
      · rintro (⟨peer, request, -, heffects⟩ | ⟨hlookup, hopen⟩)
        · cases heffects
        · refine ⟨?_, hlookup⟩
          rintro rfl
          rw [hentry] at hlookup
          cases hlookup
          exact hopen ⟨response, hoffered⟩
  | @refused cmd now domain id response refusals hoffered hnone hfaults =>
      refine channel_iff_of_same rfl (not_announces_of_effects fun _ heq => ?_) ?_
      · cases heq
      · rintro hlookup ⟨response', hoffered'⟩
        rw [hoffered] at hoffered'
        obtain ⟨⟨owner, channel⟩, since⟩ := entry
        cases hoffered'
        exact hnone channel since hlookup
  | @announced domain peer request channel now events hagree hroom hitems =>
      dsimp only
      rw [Maps.lookup_insert_some]
      constructor
      · rintro (⟨rfl, rfl⟩ | ⟨hne, hlookup⟩)
        · exact Or.inl ⟨peer, request, rfl, rfl⟩
        · exact Or.inr ⟨hlookup, id⟩
      · rintro (⟨peer', request', hinput, heffects⟩ | ⟨hlookup, -⟩)
        · obtain ⟨⟨owner, channel'⟩, since⟩ := entry
          cases hinput
          have hevent := SwarmEffect.emitted.inj (List.singleton_inj.mp heffects)
          refine Or.inl ⟨?_, rfl⟩
          cases request with
          | v1 req =>
              cases hevent
              rfl
          | v2 req =>
              cases hevent
              rfl
        · refine Or.inr ⟨?_, hlookup⟩
          rintro rfl
          rw [h.vacantChannel] at hlookup
          cases hlookup
  | @turnedAway domain peer request channel now hagree hfull =>
      dsimp only
      rw [Maps.lookup_erase_some, Maps.lookup_insert_some]
      constructor
      · rintro ⟨hne, ⟨heq, -⟩ | ⟨-, hlookup⟩⟩
        · exact absurd heq hne
        · exact Or.inr ⟨hlookup, id⟩
      · rintro (⟨peer', request', -, heffects⟩ | ⟨hlookup, -⟩)
        · cases heffects
        · have hne : channelId ≠ s.nextChannelId := by
            rintro rfl
            rw [h.vacantChannel] at hlookup
            cases hlookup
          exact ⟨hne, Or.inr ⟨hne, hlookup⟩⟩
  | mismatched hagree =>
      refine channel_iff_of_same rfl (not_announces_of_effects fun _ heq => ?_) fun _ => id
      cases heq
  | received hslot hanswers hcleared htells =>
      exact channel_iff_of_same rfl (not_announces_of_input fun _ _ _ _ _ heq => by cases heq)
        fun _ => id
  | unreceived hnone hcleared =>
      exact channel_iff_of_same rfl (not_announces_of_input fun _ _ _ _ _ heq => by cases heq)
        fun _ => id
  | failed hslot hcleared htells =>
      exact channel_iff_of_same rfl (not_announces_of_input fun _ _ _ _ _ heq => by cases heq)
        fun _ => id
  | unfailed hnone hcleared =>
      exact channel_iff_of_same rfl (not_announces_of_input fun _ _ _ _ _ heq => by cases heq)
        fun _ => id
  | network htold =>
      exact channel_iff_of_same rfl (not_announces_of_input fun _ _ _ _ _ heq => by cases heq)
        fun _ => id
  | @reaped now now' =>
      dsimp only [reapOrphanedChannels, reapStaleEntries]
      rw [Maps.lookup_filterValues_some, decide_eq_true_eq]
      constructor
      · rintro ⟨hlookup, hyoung⟩
        exact Or.inr ⟨hlookup, Nat.not_lt.mpr hyoung⟩
      · rintro (hannounces | ⟨hlookup, hopen⟩)
        · exact absurd hannounces (not_announces_of_input fun _ _ _ _ _ heq => by cases heq)
        · exact ⟨hlookup, Nat.not_lt.mp hopen⟩
  | taken hitems =>
      exact channel_iff_of_same rfl (not_announces_of_input fun _ _ _ _ _ heq => by cases heq)
        fun _ => id
  | idle hnone =>
      exact channel_iff_of_same rfl (not_announces_of_input fun _ _ _ _ _ heq => by cases heq)
        fun _ => id

/-- A turn that leaves the records alone. -/
theorem record_iff_of_same {key : OutboundKey} {record : OutboundOrigin × Nat}
    (hsame : s'.outbound = s.outbound) (hquiet : ¬ Files input effects key record)
    (hopen : ¬ Settles key record input) :
    s'.record? key = some record ↔
      Files input effects key record ∨
        (s.record? key = some record ∧ ¬ Settles key record input) := by
  have hrecord : s'.record? key = s.record? key := by
    unfold record?
    rw [hsame]
  rw [hrecord]
  constructor
  · intro h
    exact Or.inr ⟨h, hopen⟩
  · rintro (h | ⟨h, -⟩)
    · exact absurd h hquiet
    · exact h

/-- A turn that takes one record. -/
theorem record_iff_of_cleared {key key' : OutboundKey} {record : OutboundOrigin × Nat}
    (hcleared : Cleared s.outbound s'.outbound key') (hquiet : ¬ Files input effects key record)
    (hsettles : Settles key record input ↔ key = key') :
    s'.record? key = some record ↔
      Files input effects key record ∨
        (s.record? key = some record ∧ ¬ Settles key record input) := by
  obtain ⟨origin, issuedAt⟩ := record
  rw [hsettles, record?_eq_some, record?_eq_some, hcleared key]
  by_cases hkey : key = key'
  · rw [if_pos hkey]
    constructor
    · intro h
      cases h
    · rintro (h | ⟨-, hne⟩)
      · exact absurd h hquiet
      · exact absurd hkey hne
  · rw [if_neg hkey]
    constructor
    · intro h
      exact Or.inr ⟨h, hkey⟩
    · rintro (h | ⟨h, -⟩)
      · exact absurd h hquiet
      · exact h

theorem not_files_of_input {key : OutboundKey} {record : OutboundOrigin × Nat}
    (h : ∀ cmd now, input ≠ .command cmd now) : ¬ Files input effects key record := by
  rintro ⟨cmd, request, hinput, -⟩
  exact h _ _ hinput

theorem not_files_of_effects {key : OutboundKey} {record : OutboundOrigin × Nat}
    (h : ∀ domain id peer request, effects ≠ [.sendRequest domain id peer request]) :
    ¬ Files input effects key record := by
  rintro ⟨cmd, request, -, -, heffects⟩
  exact h _ _ _ _ heffects

/-- **The records after a turn.** -/
theorem Turn.record_iff (h : s.Sound ids) (turn : Turn ids s input s' effects) (key : OutboundKey)
    (record : OutboundOrigin × Nat) :
    s'.record? key = some record ↔
      Files input effects key record ∨
        (s.record? key = some record ∧ ¬ Settles key record input) := by
  cases turn with
  | @asked cmd now domain peer request requestId hasked hid =>
      subst hid
      obtain ⟨⟨asked, kind⟩, issuedAt⟩ := record
      obtain ⟨owner, keyId⟩ := key
      rw [record?_eq_some, record?_eq_some, Maps.lookup_insert_some]
      constructor
      · rintro (⟨hkey, hrecord⟩ | ⟨hne, hlookup⟩)
        · cases hkey
          cases hrecord
          exact Or.inl ⟨cmd, request, rfl, rfl, rfl⟩
        · exact Or.inr ⟨hlookup, id⟩
      · rintro (⟨cmd', request', hinput, hkind, heffects⟩ | ⟨hlookup, -⟩)
        · cases hinput
          obtain ⟨rfl, hid, rfl, rfl⟩ :=
            SwarmEffect.sendRequest.inj (List.singleton_inj.mp heffects)
          refine Or.inl ⟨congrArg (OutboundKey.mk domain) hid.symm, ?_⟩
          exact congrArg (Slot.pending peer · issuedAt) hkind
        · refine Or.inr ⟨?_, hlookup⟩
          rintro hkey
          rw [hkey, h.vacant domain] at hlookup
          cases hlookup
  | replied hoffered hentry =>
      refine record_iff_of_same rfl (not_files_of_effects fun _ _ _ _ heq => ?_) id
      cases heq
  | refused hoffered hnone hfaults =>
      refine record_iff_of_same rfl (not_files_of_effects fun _ _ _ _ heq => ?_) id
      cases heq
  | announced hagree hroom hitems =>
      refine record_iff_of_same rfl (not_files_of_effects fun _ _ _ _ heq => ?_) id
      cases heq
  | turnedAway hagree hfull =>
      refine record_iff_of_same rfl (not_files_of_effects fun _ _ _ _ heq => ?_) id
      cases heq
  | mismatched hagree =>
      refine record_iff_of_same rfl (not_files_of_effects fun _ _ _ _ heq => ?_) id
      cases heq
  | received hslot hanswers hcleared htells =>
      exact record_iff_of_cleared hcleared (not_files_of_input fun _ _ heq => by cases heq) Iff.rfl
  | unreceived hnone hcleared =>
      exact record_iff_of_cleared hcleared (not_files_of_input fun _ _ heq => by cases heq) Iff.rfl
  | failed hslot hcleared htells =>
      exact record_iff_of_cleared hcleared (not_files_of_input fun _ _ heq => by cases heq) Iff.rfl
  | unfailed hnone hcleared =>
      exact record_iff_of_cleared hcleared (not_files_of_input fun _ _ heq => by cases heq) Iff.rfl
  | network htold =>
      exact record_iff_of_same rfl (not_files_of_input fun _ _ heq => by cases heq) id
  | @reaped now now' =>
      obtain ⟨origin, issuedAt⟩ := record
      rw [record?_eq_some, record?_eq_some]
      dsimp only [reapOrphanedChannels, OutboundTracker.reap]
      rw [Maps.lookup_filterValues_some]
      constructor
      · rintro ⟨hlookup, hyoung⟩
        exact Or.inr ⟨hlookup, Nat.not_le.mpr (of_decide_eq_true hyoung)⟩
      · rintro (hfiles | ⟨hlookup, hopen⟩)
        · exact absurd hfiles (not_files_of_input fun _ _ heq => by cases heq)
        · exact ⟨hlookup, decide_eq_true (Nat.not_le.mp hopen)⟩
  | taken hitems =>
      refine record_iff_of_same rfl (not_files_of_effects fun _ _ _ _ heq => ?_) id
      cases heq
  | idle hnone =>
      refine record_iff_of_same rfl (not_files_of_effects fun _ _ _ _ heq => ?_) id
      cases heq

/-! ### Soundness is kept -/

/-- The requests sent after a turn. -/
theorem Turn.sent (turn : Turn ids s input s' effects) (domain : RequestDomain) :
    s.sentRequests domain ≤ s'.sentRequests domain := by
  cases turn with
  | @asked cmd now domain' peer request id hasked hid =>
      dsimp only
      by_cases heq : domain = domain'
      · subst heq
        rw [Function.update_self]
        exact Nat.le_succ _
      · rw [Function.update_of_ne heq]
  | _ => exact Nat.le_refl _

theorem Turn.numbered (turn : Turn ids s input s' effects) :
    s.nextChannelId ≤ s'.nextChannelId := by
  cases turn with
  | announced hagree hroom hitems => exact Nat.le_succ _
  | turnedAway hagree hfull => exact Nat.le_succ _
  | _ => exact Nat.le_refl _

/-- An announced number is the next one. -/
theorem Turn.announces (turn : Turn ids s input s' effects) {channelId : Nat}
    {entry : PendingChannel γ × Nat} (h : Announces input effects channelId entry) :
    channelId = s.nextChannelId ∧ s'.nextChannelId = s.nextChannelId + 1 := by
  obtain ⟨peer, request, rfl, heffects⟩ := h
  cases turn with
  | announced hagree hroom hitems =>
      have hevent := SwarmEffect.emitted.inj (List.singleton_inj.mp heffects)
      refine ⟨?_, rfl⟩
      cases request with
      | v1 req =>
          cases hevent
          rfl
      | v2 req =>
          cases hevent
          rfl
  | turnedAway hagree hfull => cases heffects
  | mismatched hagree => cases heffects

/-- The number of a request is the next one of its behaviour. -/
theorem Turn.asks (turn : Turn ids s input s' effects) {domain : RequestDomain} {id : Nat}
    {peer : PeerId} {request : ShardRequestVersioned}
    (h : .sendRequest domain id peer request ∈ effects) :
    id = ids.mint domain (s.sentRequests domain) ∧
      s'.sentRequests domain = s.sentRequests domain + 1 ∧
      effects = [.sendRequest domain id peer request] ∧
      ∃ cmd now, input = .command cmd now ∧ cmd.asked = some (domain, peer, request) := by
  cases turn with
  | @asked cmd now domain' peer' request' requestId hasked hid =>
      obtain ⟨rfl, rfl, rfl, rfl⟩ := SwarmEffect.sendRequest.inj (List.mem_singleton.mp h)
      refine ⟨hid, ?_, rfl, cmd, now, rfl, hasked⟩
      dsimp only
      rw [Function.update_self]
  | replied hoffered hentry => cases List.mem_singleton.mp h
  | refused hoffered hnone hfaults => cases h
  | announced hagree hroom hitems => cases List.mem_singleton.mp h
  | turnedAway hagree hfull => cases List.mem_singleton.mp h
  | mismatched hagree => cases h
  | received hslot hanswers hcleared htold => rcases htold.mem h with heq | heq <;> cases heq
  | unreceived hnone hcleared => cases h
  | failed hslot hcleared htold => rcases htold.mem h with heq | heq <;> cases heq
  | unfailed hnone hcleared => cases h
  | network htold => rcases htold.mem h with heq | heq <;> cases heq
  | reaped => cases h
  | taken hitems => cases List.mem_singleton.mp h
  | idle hnone => cases h

/-- An answer on the wire was offered for an open channel of its domain. -/
theorem Turn.replies (turn : Turn ids s input s' effects) {domain : RequestDomain} {channel : γ}
    {response : ShardResponseVersioned} (h : .sendResponse domain channel response ∈ effects) :
    ∃ cmd now channelId since, input = .command cmd now ∧
      cmd.offered = some (domain, channelId, response) ∧
      s.pendingShardChannels.lookup channelId = some (⟨domain, channel⟩, since) := by
  cases turn with
  | asked hasked hid => cases List.mem_singleton.mp h
  | @replied cmd now domain' channelId response' channel' since hoffered hentry =>
      obtain ⟨rfl, rfl, rfl⟩ := SwarmEffect.sendResponse.inj (List.mem_singleton.mp h)
      exact ⟨cmd, now, channelId, since, rfl, hoffered, hentry⟩
  | refused hoffered hnone hfaults => cases h
  | announced hagree hroom hitems => cases List.mem_singleton.mp h
  | turnedAway hagree hfull => cases List.mem_singleton.mp h
  | mismatched hagree => cases h
  | received hslot hanswers hcleared htold => rcases htold.mem h with heq | heq <;> cases heq
  | unreceived hnone hcleared => cases h
  | failed hslot hcleared htold => rcases htold.mem h with heq | heq <;> cases heq
  | unfailed hnone hcleared => cases h
  | network htold => rcases htold.mem h with heq | heq <;> cases heq
  | reaped => cases h
  | taken hitems => cases List.mem_singleton.mp h
  | idle hnone => cases h

/-- No turn poisons a record. -/
theorem Turn.pending (h : s.Sound ids) (turn : Turn ids s input s' effects) {key : OutboundKey}
    {slot : Slot} (hslot : s'.outbound.slots.lookup key = some slot) :
    ∃ peer kind issuedAt, slot = .pending peer kind issuedAt := by
  have hcleared : ∀ {key' : OutboundKey}, Cleared s.outbound s'.outbound key' →
      ∃ peer kind issuedAt, slot = .pending peer kind issuedAt := by
    intro key' hclear
    rw [hclear key] at hslot
    split at hslot
    · cases hslot
    · exact (h.requests key slot hslot).2
  cases turn with
  | @asked cmd now domain peer request requestId hasked hid =>
      dsimp only at hslot
      rw [Maps.lookup_insert_some] at hslot
      rcases hslot with ⟨-, rfl⟩ | ⟨-, hold⟩
      · exact ⟨peer, request.kind, now, rfl⟩
      · exact (h.requests key slot hold).2
  | received hlookup hanswers hclear htells => exact hcleared hclear
  | unreceived hnone hclear => exact hcleared hclear
  | failed hlookup hclear htells => exact hcleared hclear
  | unfailed hnone hclear => exact hcleared hclear
  | reaped =>
      dsimp only [reapOrphanedChannels, OutboundTracker.reap] at hslot
      rw [Maps.lookup_filterValues_some] at hslot
      exact (h.requests key slot hslot.1).2
  | _ => exact (h.requests key slot hslot).2

/-- **Every turn keeps a task sound.** -/
theorem Sound.step (h : s.Sound ids) (input : SwarmInput γ) : (s.step ids input).1.Sound ids := by
  have turn := step_turn h input
  refine ⟨?_, ?_⟩
  · intro channelId entry hentry
    rcases (turn.channel_iff h channelId entry).mp hentry with hannounces | ⟨hold, -⟩
    · obtain ⟨rfl, hnext⟩ := turn.announces hannounces
      omega
    · exact Nat.lt_of_lt_of_le (h.channels _ _ hold) turn.numbered
  · intro key slot hslot
    obtain ⟨peer, kind, issuedAt, rfl⟩ := turn.pending h hslot
    refine ⟨?_, peer, kind, issuedAt, rfl⟩
    have hrecord : (s.step ids input).1.record? key = some (⟨peer, kind⟩, issuedAt) :=
      record?_eq_some.mpr hslot
    rcases (turn.record_iff h key _).mp hrecord with ⟨cmd, request, -, -, heffects⟩ | ⟨hold, -⟩
    · have hmem :
          SwarmEffect.sendRequest key.domain key.id peer request ∈ (s.step ids input).2 := by
        rw [heffects]
        exact List.mem_singleton_self _
      obtain ⟨hid, hsent, -⟩ := turn.asks hmem
      refine ⟨s.sentRequests key.domain, ?_, hid⟩
      omega
    · obtain ⟨⟨k, hk, hid⟩, -⟩ := h.requests _ _ (record?_eq_some.mp hold)
      exact ⟨k, Nat.lt_of_lt_of_le hk (turn.sent _), hid⟩

/-- A fault is counted only for a request that is not of the protocol it came by. -/
theorem Turn.faults (turn : Turn ids s input s' effects)
    (h : ∀ domain peer request channel now,
      input = .inboundRequest domain peer request channel now →
        versionsAgree domain request = true) :
    s'.refusals.faults = s.refusals.faults := by
  cases turn with
  | refused hoffered hnone hfaults => exact hfaults
  | mismatched hagree =>
      have hagree' := h _ _ _ _ _ rfl
      rw [hagree] at hagree'
      cases hagree'
  | _ => rfl

/-! ### What the loops above are told -/

theorem Tells.unique {event event' : ShardEvent} (h : Tells event effects)
    (h' : Tells event' effects) : event = event' := by
  rcases h with rfl | rfl
  · rcases h' with heq | heq
    · exact SwarmEffect.emitted.inj (List.singleton_inj.mp heq)
    · cases heq
  · rcases h' with heq | heq
    · cases heq
    · exact SwarmEffect.dropped.inj (List.singleton_inj.mp heq)

theorem not_tells_nil {event : ShardEvent} : ¬ Tells event ([] : List (SwarmEffect γ)) := by
  rintro (h | h)
  · cases h
  · cases h

theorem received_inj {peer peer' : PeerId} {origin origin' : OutboundOrigin}
    {response response' : ShardResponseVersioned}
    (h : ShardEvent.received peer origin response = .received peer' origin' response') :
    origin = origin' := by
  cases response with
  | v1 resp =>
      cases response' with
      | v1 resp' =>
          cases h
          rfl
      | v2 resp' => cases h
  | v2 resp =>
      cases response' with
      | v1 resp' => cases h
      | v2 resp' =>
          cases h
          rfl

/-- The loops are told of an answer exactly when it answers the record under its key. -/
theorem Turn.receives_iff {domain : RequestDomain} {id : Nat} {response : ShardResponseVersioned}
    {origin : OutboundOrigin}
    (turn : Turn ids s (.inboundResponse domain origin.peer id response) s' effects) :
    Tells (.received origin.peer origin response) effects ↔
      Answers origin.kind response ∧
        ∃ issuedAt, s.record? ⟨domain, id⟩ = some (origin, issuedAt) := by
  generalize hinput : SwarmInput.inboundResponse domain origin.peer id response = input at turn
  cases turn with
  | @received domain' id' response' origin' issuedAt outbound events effects hlookup hanswers
      hcleared htells =>
      injection hinput with hdomain hpeer hid hresponse
      subst hdomain hid hresponse
      constructor
      · intro h
        obtain rfl := received_inj (h.unique htells.tells)
        exact ⟨hanswers, issuedAt, record?_eq_some.mpr hlookup⟩
      · rintro ⟨-, issuedAt', hrecord⟩
        rw [record?_eq_some, hlookup] at hrecord
        obtain ⟨asked, kind⟩ := origin
        obtain ⟨asked', kind'⟩ := origin'
        cases hrecord
        exact htells.tells
  | unreceived hnone hcleared =>
      injection hinput with hdomain hpeer hid hresponse
      subst hdomain hpeer hid hresponse
      refine iff_of_false not_tells_nil ?_
      rintro ⟨hanswers, issuedAt, hrecord⟩
      exact hnone _ _ (record?_eq_some.mp hrecord) hanswers
  | _ => cases hinput

/-- The loops are told of a failure exactly when there is a record under its key. -/
theorem Turn.fails_iff {domain : RequestDomain} {id : Nat} {error : Str} {origin : OutboundOrigin}
    (turn : Turn ids s (.outboundFailure domain origin.peer id error) s' effects) :
    Tells (.failed error origin) effects ↔
      ∃ issuedAt, s.record? ⟨domain, id⟩ = some (origin, issuedAt) := by
  generalize hinput : SwarmInput.outboundFailure domain origin.peer id error = input at turn
  cases turn with
  | @failed domain' id' error' origin' issuedAt outbound events effects hlookup hcleared htells =>
      injection hinput with hdomain hpeer hid herror
      subst hdomain hid herror
      constructor
      · intro h
        have hevent := h.unique htells.tells
        obtain ⟨asked, kind⟩ := origin
        obtain ⟨asked', kind'⟩ := origin'
        cases hevent
        exact ⟨issuedAt, record?_eq_some.mpr hlookup⟩
      · rintro ⟨issuedAt', hrecord⟩
        rw [record?_eq_some, hlookup] at hrecord
        obtain ⟨asked, kind⟩ := origin
        obtain ⟨asked', kind'⟩ := origin'
        cases hrecord
        exact htells.tells
  | unfailed hnone hcleared =>
      injection hinput with hdomain hpeer hid herror
      subst hdomain hpeer hid herror
      refine iff_of_false not_tells_nil ?_
      rintro ⟨issuedAt, hrecord⟩
      exact hnone _ _ (record?_eq_some.mp hrecord)
  | _ => cases hinput

/-- An answer goes out exactly when its channel is there and of its domain. -/
theorem Turn.replies_iff {cmd : SwarmCommand} {now : Nat} {domain : RequestDomain}
    {channelId : Nat} {response : ShardResponseVersioned} {channel : γ}
    (hoffered : cmd.offered = some (domain, channelId, response))
    (turn : Turn ids s (.command cmd now) s' effects) :
    effects = [.sendResponse domain channel response] ↔
      ∃ since, s.pendingShardChannels.lookup channelId = some (⟨domain, channel⟩, since) := by
  constructor
  · rintro rfl
    obtain ⟨cmd', now', channelId', since, hinput, hoffered', hlookup⟩ :=
      turn.replies (List.mem_singleton_self _)
    cases hinput
    rw [hoffered] at hoffered'
    cases hoffered'
    exact ⟨since, hlookup⟩
  · rintro ⟨since, hlookup⟩
    generalize hinput : SwarmInput.command cmd now = input at turn
    cases turn with
    | @asked cmd' now' domain' peer request requestId hasked hid =>
        cases hinput
        cases cmd with
        | requestShard peerId req => cases hoffered
        | requestShardV2 peerId req => cases hoffered
        | sendShardResponse id' resp => cases hasked
        | sendShardResponseV2 id' resp => cases hasked
    | replied hoffered' hlookup' =>
        cases hinput
        rw [hoffered] at hoffered'
        cases hoffered'
        rw [hlookup] at hlookup'
        cases hlookup'
        rfl
    | refused hoffered' hnone hfaults =>
        cases hinput
        rw [hoffered] at hoffered'
        cases hoffered'
        exact absurd hlookup (hnone channel since)
    | _ => cases hinput

/-- What takes every record under a key leaves none. -/
theorem Turn.settled (h : s.Sound ids) (turn : Turn ids s input s' effects) {key : OutboundKey}
    (hinput : ∀ cmd now, input ≠ .command cmd now) (hsettles : ∀ record, Settles key record input) :
    s'.record? key = none := by
  rw [Option.eq_none_iff_forall_ne_some]
  intro record hrecord
  rcases (turn.record_iff h key record).mp hrecord with hfiles | ⟨-, hopen⟩
  · exact not_files_of_input hinput hfiles
  · exact hopen (hsettles record)

/-- Whatever the loops are told is a request, an answer or a failure. -/
theorem Turn.tells (turn : Turn ids s input s' effects) {event : ShardEvent}
    (h : .emitted event ∈ effects) :
    (∃ domain peer request channel now channelId,
      input = .inboundRequest domain peer request channel now ∧
        effects = [.emitted (.requested peer channelId request)]) ∨
    (∃ domain id response origin, input = .inboundResponse domain origin.peer id response ∧
      Tells (.received origin.peer origin response) effects) ∨
    (∃ domain id error origin, input = .outboundFailure domain origin.peer id error ∧
      Tells (.failed error origin) effects) ∨
    ∃ event', input = .peerEvent event' ∧ event = .peer event' := by
  cases turn with
  | asked hasked hid => cases List.mem_singleton.mp h
  | replied hoffered hentry => cases List.mem_singleton.mp h
  | refused hoffered hnone hfaults => cases h
  | @announced domain peer request channel now events hagree hroom hitems =>
      exact Or.inl ⟨domain, peer, request, channel, now, s.nextChannelId, rfl, rfl⟩
  | turnedAway hagree hfull => cases List.mem_singleton.mp h
  | mismatched hagree => cases h
  | @received domain id response origin issuedAt outbound events effects hlookup hanswers hcleared
      htells => exact Or.inr (Or.inl ⟨domain, id, response, origin, rfl, htells.tells⟩)
  | unreceived hnone hcleared => cases h
  | @failed domain id error origin issuedAt outbound events effects hlookup hcleared htells =>
      exact Or.inr (Or.inr (Or.inl ⟨domain, id, error, origin, rfl, htells.tells⟩))
  | unfailed hnone hcleared => cases h
  | @network event' events effects htold =>
      rcases htold.mem h with heq | heq
      · exact Or.inr (Or.inr (Or.inr ⟨event', rfl, SwarmEffect.emitted.inj heq⟩))
      · cases heq
  | reaped => cases h
  | taken hitems => cases List.mem_singleton.mp h
  | idle hnone => cases h

/-! ### The queue -/

end SumSwarm

def SwarmEffect.emitted? {γ : Type} : SwarmEffect γ → Option ShardEvent
  | .emitted event => some event
  | _ => none

def SwarmEffect.taken? {γ : Type} : SwarmEffect γ → Option ShardEvent
  | .taken event => some event
  | _ => none

namespace SumSwarm

variable {γ : Type} {ids : RequestIds} {s s' : SumSwarm γ} {input : SwarmInput γ}
  {effects : List (SwarmEffect γ)}

theorem Told.queue {queue queue' : Chan ShardEvent eventCapacity} {event : ShardEvent}
    (h : Told queue event queue' effects) :
    queue.items ++ effects.filterMap SwarmEffect.emitted?
      = effects.filterMap SwarmEffect.taken? ++ queue'.items := by
  cases h with
  | emitted hroom hitems =>
      rw [hitems]
      rfl
  | dropped hfull => exact List.append_nil _

/-- What is told goes in at the end, what is taken comes from the front. -/
theorem Turn.queue (turn : Turn ids s input s' effects) :
    s.events.items ++ effects.filterMap SwarmEffect.emitted?
      = effects.filterMap SwarmEffect.taken? ++ s'.events.items := by
  cases turn with
  | announced hagree hroom hitems =>
      dsimp only
      rw [hitems]
      rfl
  | received hlookup hanswers hcleared htold => exact htold.queue
  | failed hlookup hcleared htold => exact htold.queue
  | network htold => exact htold.queue
  | taken hitems =>
      rw [hitems]
      exact List.append_nil _
  | _ => exact List.append_nil _

/-- What is told gets through exactly when there is room. -/
theorem Turn.emits_iff (turn : Turn ids s input s' effects) {event : ShardEvent}
    (h : Tells event effects) :
    effects = [.emitted event] ↔ s.events.items.length < eventCapacity := by
  have htold : ∀ {event' queue'}, Told s.events event' queue' effects →
      (effects = [.emitted event] ↔ s.events.items.length < eventCapacity) := by
    intro event' queue' htold
    obtain rfl := h.unique htold.tells
    cases htold with
    | emitted hroom hitems => exact iff_of_true rfl hroom
    | dropped hfull =>
        refine iff_of_false ?_ (Nat.not_lt.mpr (Nat.le_of_eq hfull.symm))
        intro heq
        cases heq
  cases turn with
  | announced hagree hroom hitems => exact htold (.emitted hroom hitems)
  | turnedAway hagree hfull => exact htold (.dropped hfull)
  | received hlookup hanswers hcleared htold' => exact htold htold'
  | failed hlookup hcleared htold' => exact htold htold'
  | network htold' => exact htold htold'
  | asked hasked hid => rcases h with heq | heq <;> cases heq
  | replied hoffered hentry => rcases h with heq | heq <;> cases heq
  | taken hitems => rcases h with heq | heq <;> cases heq
  | _ => exact absurd h not_tells_nil

/-- A loop above takes what is waiting first. -/
theorem Turn.takes_iff (turn : Turn ids s .nextEvent s' effects) {event : ShardEvent} :
    effects = [.taken event] ↔ s.events.items.head? = some event := by
  generalize hinput : SwarmInput.nextEvent = input at turn
  cases turn with
  | @taken event' events hitems =>
      rw [hitems, List.head?_cons]
      constructor
      · intro heq
        cases heq
        rfl
      · intro heq
        cases heq
        rfl
  | idle hnone =>
      rw [hnone]
      refine iff_of_false ?_ ?_
      · intro heq
        cases heq
      · intro heq
        cases heq
  | _ => cases hinput

/-- Every request that arrives is announced, if there is room. -/
theorem Turn.announces_arrival {domain : RequestDomain} {peer : PeerId}
    {request : ShardRequestVersioned} {channel : γ} {now : Nat}
    (turn : Turn ids s (.inboundRequest domain peer request channel now) s' effects)
    (hagree : versionsAgree domain request = true) :
    Tells (.requested peer s.nextChannelId request) effects := by
  generalize hinput : SwarmInput.inboundRequest domain peer request channel now = input at turn
  cases turn with
  | announced hagree' hroom hitems =>
      cases hinput
      exact Or.inl rfl
  | turnedAway hagree' hfull =>
      cases hinput
      exact Or.inr rfl
  | mismatched hagree' =>
      cases hinput
      rw [hagree] at hagree'
      cases hagree'
  | _ => cases hinput

/-- A command for a request sends it. -/
theorem Turn.sends {cmd : SwarmCommand} {now : Nat} {domain : RequestDomain} {peer : PeerId}
    {request : ShardRequestVersioned} (turn : Turn ids s (.command cmd now) s' effects)
    (hasked : cmd.asked = some (domain, peer, request)) :
    effects = [.sendRequest domain (ids.mint domain (s.sentRequests domain)) peer request] := by
  have hoffered : cmd.offered = none := by
    cases cmd with
    | requestShard peerId req => rfl
    | requestShardV2 peerId req => rfl
    | sendShardResponse channelId response => cases hasked
    | sendShardResponseV2 channelId response => cases hasked
  generalize hinput : SwarmInput.command cmd now = input at turn
  cases turn with
  | asked hasked' hid =>
      cases hinput
      rw [hasked] at hasked'
      cases hasked'
      rw [hid]
  | replied hoffered' hentry =>
      cases hinput
      rw [hoffered] at hoffered'
      cases hoffered'
  | refused hoffered' hnone hfaults =>
      cases hinput
      rw [hoffered] at hoffered'
      cases hoffered'
  | _ => cases hinput

end SumSwarm

end Snip
