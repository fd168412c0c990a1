/-
A mesh of swarm tasks exchanges requests and answers.

Each table of each task is read off the log of the whole mesh: a channel is open from its
announcement to the first answer of its domain or the reaper, a record from the sending of
its request to the first answer or failure under its key or the reaper.  What honest nodes
have on the wire is in the log as well, so a report at one node is traced back to the
answer at another, from there to the announcement, and from there to the request.
-/
import Snip.Lib.Tables
import Snip.Proofs.Swarm

namespace Snip

open SumSwarm (Tells)

/-! ### Entries -/

namespace MeshEntry

/-- A request arrives and is announced to the loops of a node. -/
def Hears (n : PeerId) (channelId : Nat) (route : Route) (request : ShardRequestVersioned)
    (since : Nat) (e : MeshEntry) : Prop :=
  e.node = n ∧ e.input = .inboundRequest route.domain route.requester request route since ∧
    e.effects = [.emitted (.requested route.requester channelId request)]

/-- A node sends an answer on a channel. -/
def Replies (n : PeerId) (channelId : Nat) (route : Route) (response : ShardResponseVersioned)
    (e : MeshEntry) : Prop :=
  e.node = n ∧ e.effects = [.sendResponse route.domain route response] ∧
    ∃ cmd now, e.input = .command cmd now ∧ cmd.offered = some (route.domain, channelId, response)

/-- A node sends a request. -/
def Asks (n : PeerId) (key : OutboundKey) (peer : PeerId) (request : ShardRequestVersioned)
    (e : MeshEntry) : Prop :=
  e.node = n ∧ e.effects = [.sendRequest key.domain key.id peer request]

/-- An answer arrives and the loops of a node are told. -/
def Receives (n : PeerId) (key : OutboundKey) (origin : OutboundOrigin)
    (response : ShardResponseVersioned) (e : MeshEntry) : Prop :=
  e.node = n ∧ e.input = .inboundResponse key.domain origin.peer key.id response ∧
    Tells (.received origin.peer origin response) e.effects

/-- A failure is reported and the loops of a node are told. -/
def Fails (n : PeerId) (key : OutboundKey) (origin : OutboundOrigin) (error : Str)
    (e : MeshEntry) : Prop :=
  e.node = n ∧ e.input = .outboundFailure key.domain origin.peer key.id error ∧
    Tells (.failed error origin) e.effects

/-- The one or the other. -/
def Reports (n : PeerId) (key : OutboundKey) (origin : OutboundOrigin) (e : MeshEntry) : Prop :=
  (∃ response, e.Receives n key origin response) ∨ ∃ error, e.Fails n key origin error

theorem Reports.input {e : MeshEntry} {n : PeerId} {key : OutboundKey} {origin : OutboundOrigin}
    (h : e.Reports n key origin) :
    e.node = n ∧ (∀ cmd now, e.input ≠ .command cmd now) ∧
      ∀ record, SumSwarm.Settles key record e.input := by
  rcases h with ⟨response, hn, hinput, -⟩ | ⟨error, hn, hinput, -⟩
  · rw [hinput]
    refine ⟨hn, ?_, fun _ => rfl⟩
    intro cmd now heq
    cases heq
  · rw [hinput]
    refine ⟨hn, ?_, fun _ => rfl⟩
    intro cmd now heq
    cases heq

/-! ### Tables -/

/-- The entry opens a channel at a node. -/
def OpensChannel (e : MeshEntry) (slot : PeerId × Nat)
    (entry : PendingChannel Route × Nat) : Prop :=
  e.node = slot.1 ∧ SumSwarm.Announces e.input e.effects slot.2 entry

def KeepsChannel (e : MeshEntry) (slot : PeerId × Nat)
    (entry : PendingChannel Route × Nat) : Prop :=
  e.node = slot.1 → ¬ SumSwarm.Closes slot.2 entry e.input

/-- The entry opens a record at a node. -/
def OpensRecord (e : MeshEntry) (slot : PeerId × OutboundKey)
    (record : OutboundOrigin × Nat) : Prop :=
  e.node = slot.1 ∧ SumSwarm.Files e.input e.effects slot.2 record

def KeepsRecord (e : MeshEntry) (slot : PeerId × OutboundKey)
    (record : OutboundOrigin × Nat) : Prop :=
  e.node = slot.1 → ¬ SumSwarm.Settles slot.2 record e.input

end MeshEntry

open MeshEntry

/-- A channel that is open by the log. -/
def OpenChannel (log : List MeshEntry) (n : PeerId) (channelId : Nat)
    (entry : PendingChannel Route × Nat) : Prop :=
  Run.Open OpensChannel KeepsChannel log (n, channelId) entry

/-- A record that is open by the log. -/
def OpenRecord (log : List MeshEntry) (n : PeerId) (key : OutboundKey)
    (record : OutboundOrigin × Nat) : Prop :=
  Run.Open OpensRecord KeepsRecord log (n, key) record

section

variable {ids : PeerId → RequestIds} {honest : PeerId → Prop} {m m' : Mesh} {e : MeshEntry}
  {log before after : List MeshEntry} {n : PeerId}

/-! ### What every step preserves -/

/-- What holds of a mesh at any time. -/
structure Mesh.Sound (ids : PeerId → RequestIds) (m : Mesh) : Prop where
  node : ∀ n, (m.node n).Sound (ids n)
  faults : ∀ n, (m.node n).refusals.faults = 0

theorem Mesh.sound_init : Mesh.init.Sound ids :=
  ⟨fun n => SumSwarm.sound_build (ids n), fun _ => rfl⟩

theorem MeshStep.turn (hstep : MeshStep ids honest m e m') (h : m.Sound ids) :
    SumSwarm.Turn (ids e.node) (m.node e.node) e.input (m'.node e.node) e.effects := by
  rw [hstep.effects, hstep.node, Function.update_self]
  exact SumSwarm.step_turn (h.node e.node) e.input

theorem MeshStep.node_of_ne (hstep : MeshStep ids honest m e m') (hne : e.node ≠ n) :
    m'.node n = m.node n := by
  rw [hstep.node, Function.update_of_ne (Ne.symm hne)]

/-- Requests arrive by their own protocol. -/
theorem MeshStep.agrees (hstep : MeshStep ids honest m e m') :
    ∀ domain peer request channel now, e.input = .inboundRequest domain peer request channel now →
      SumSwarm.versionsAgree domain request = true := by
  intro domain peer request channel now hinput
  have harrives := hstep.arrives
  rw [hinput] at harrives
  exact versionsAgree_of_protocol harrives.2.2.1

theorem Mesh.Sound.step (h : m.Sound ids) (hstep : MeshStep ids honest m e m') : m'.Sound ids := by
  refine ⟨?_, ?_⟩
  · intro n
    by_cases hn : e.node = n
    · subst hn
      rw [hstep.node, Function.update_self]
      exact (h.node e.node).step e.input
    · rw [hstep.node_of_ne hn]
      exact h.node n
  · intro n
    by_cases hn : e.node = n
    · subst hn
      rw [(hstep.turn h).faults hstep.agrees]
      exact h.faults e.node
    · rw [hstep.node_of_ne hn]
      exact h.faults n

/-- The runs of a mesh. -/
abbrev MeshRun (ids : PeerId → RequestIds) (honest : PeerId → Prop) :
    List MeshEntry → Mesh → Prop :=
  Run (MeshStep ids honest) Mesh.init

theorem MeshRun.sound (h : MeshRun ids honest log m) : m.Sound ids :=
  Run.preserves h (fun _ _ _ hs hstep => hs.step hstep) Mesh.sound_init

/-! ### The log answers for the tables -/

theorem channel_rule : Run.KeepsTable (MeshStep ids honest) (Mesh.Sound ids)
    (fun m slot => (m.node slot.1).pendingShardChannels.lookup slot.2)
    OpensChannel KeepsChannel := by
  refine ⟨fun _ _ _ hs hstep => hs.step hstep, ?_⟩
  rintro m e m' ⟨n, channelId⟩ entry hm hstep
  by_cases hn : e.node = n
  · subst hn
    have hiff := (hstep.turn hm).channel_iff (hm.node e.node) channelId entry
    simpa [OpensChannel, KeepsChannel] using hiff
  · dsimp only
    rw [hstep.node_of_ne hn]
    simp [OpensChannel, KeepsChannel, hn]

theorem record_rule : Run.KeepsTable (MeshStep ids honest) (Mesh.Sound ids)
    (fun m slot => (m.node slot.1).record? slot.2) OpensRecord KeepsRecord := by
  refine ⟨fun _ _ _ hs hstep => hs.step hstep, ?_⟩
  rintro m e m' ⟨n, key⟩ record hm hstep
  by_cases hn : e.node = n
  · subst hn
    have hiff := (hstep.turn hm).record_iff (hm.node e.node) key record
    simpa [OpensRecord, KeepsRecord] using hiff
  · dsimp only
    rw [hstep.node_of_ne hn]
    simp [OpensRecord, KeepsRecord, hn]

/-- The channels of a node are those open by the log. -/
theorem MeshRun.channel_iff (h : MeshRun ids honest log m) (n : PeerId) (channelId : Nat)
    (entry : PendingChannel Route × Nat) :
    (m.node n).pendingShardChannels.lookup channelId = some entry ↔
      OpenChannel log n channelId entry :=
  Run.table_iff h channel_rule Mesh.sound_init (fun _ => rfl) (n, channelId) entry

/-- The records of a node are those open by the log. -/
theorem MeshRun.record_iff (h : MeshRun ids honest log m) (n : PeerId) (key : OutboundKey)
    (record : OutboundOrigin × Nat) :
    (m.node n).record? key = some record ↔ OpenRecord log n key record :=
  Run.table_iff h record_rule Mesh.sound_init (fun _ => rfl) (n, key) record

/-- The wire holds what the log has sent. -/
theorem MeshRun.wire (h : MeshRun ids honest log m) : m.wire = log.flatMap MeshEntry.messages := by
  refine h.invariant (P := fun past m => m.wire = past.flatMap MeshEntry.messages) ?_ [] rfl
  intro past m e m' hpast hstep
  rw [hstep.wire, hpast]
  simp

/-! ### Numbers and keys are used once -/

/-- What the log has numbered is behind the counters, and what it has closed stays closed. -/
structure Spent (ids : PeerId → RequestIds) (past : List MeshEntry) (m : Mesh) : Prop where
  asked : ∀ e n key peer request, e ∈ past → e.Asks n key peer request →
    ∃ k, k < (m.node n).sentRequests key.domain ∧ key.id = (ids n).mint key.domain k
  heard : ∀ e n channelId route request since, e ∈ past → e.Hears n channelId route request since →
    channelId < (m.node n).nextChannelId
  replied : ∀ e n channelId route response, e ∈ past → e.Replies n channelId route response →
    channelId < (m.node n).nextChannelId ∧
      (m.node n).pendingShardChannels.lookup channelId = none
  reported : ∀ e n key origin, e ∈ past → e.Reports n key origin →
    (∃ k, k < (m.node n).sentRequests key.domain ∧ key.id = (ids n).mint key.domain k) ∧
      (m.node n).record? key = none

/-- The counters only grow. -/
theorem MeshStep.sent (hstep : MeshStep ids honest m e m') (h : m.Sound ids) (n : PeerId)
    (domain : RequestDomain) :
    (m.node n).sentRequests domain ≤ (m'.node n).sentRequests domain := by
  by_cases hn : e.node = n
  · subst hn
    exact (hstep.turn h).sent domain
  · rw [hstep.node_of_ne hn]

theorem MeshStep.numbered (hstep : MeshStep ids honest m e m') (h : m.Sound ids) (n : PeerId) :
    (m.node n).nextChannelId ≤ (m'.node n).nextChannelId := by
  by_cases hn : e.node = n
  · subst hn
    exact (hstep.turn h).numbered
  · rw [hstep.node_of_ne hn]

/-- A channel behind the counter is not opened again. -/
theorem MeshStep.stays_closed (hstep : MeshStep ids honest m e m') (h : m.Sound ids)
    {channelId : Nat} (hlt : channelId < (m.node n).nextChannelId)
    (hnone : (m.node n).pendingShardChannels.lookup channelId = none) :
    (m'.node n).pendingShardChannels.lookup channelId = none := by
  by_cases hn : e.node = n
  · subst hn
    rw [Option.eq_none_iff_forall_ne_some]
    intro entry hentry
    rcases ((hstep.turn h).channel_iff (h.node e.node) channelId entry).mp hentry with
      hannounces | ⟨hold, -⟩
    · obtain ⟨heq, -⟩ := (hstep.turn h).announces hannounces
      omega
    · rw [hnone] at hold
      cases hold
  · rw [hstep.node_of_ne hn]
    exact hnone

/-- A key behind the counter is not filed again. -/
theorem MeshStep.stays_settled (hstep : MeshStep ids honest m e m') (h : m.Sound ids)
    {key : OutboundKey}
    (hminted : ∃ k, k < (m.node n).sentRequests key.domain ∧ key.id = (ids n).mint key.domain k)
    (hnone : (m.node n).record? key = none) : (m'.node n).record? key = none := by
  by_cases hn : e.node = n
  · subst hn
    rw [Option.eq_none_iff_forall_ne_some]
    intro record hrecord
    rcases ((hstep.turn h).record_iff (h.node e.node) key record).mp hrecord with
      ⟨cmd, request, -, -, heffects⟩ | ⟨hold, -⟩
    · have hmem : SwarmEffect.sendRequest key.domain key.id record.1.peer request ∈ e.effects := by
        rw [heffects]
        exact List.mem_singleton_self _
      obtain ⟨hid, -⟩ := (hstep.turn h).asks hmem
      obtain ⟨k, hk, hid'⟩ := hminted
      rw [hid'] at hid
      have hsame := (ids e.node).unique key.domain hid
      omega
    · rw [hnone] at hold
      cases hold
  · rw [hstep.node_of_ne hn]
    exact hnone

/-- An answer goes out on an open channel, and closes it. -/
theorem MeshStep.replies (hstep : MeshStep ids honest m e m') (h : m.Sound ids) {channelId : Nat}
    {route : Route} {response : ShardResponseVersioned}
    (hreplies : e.Replies n channelId route response) :
    (∃ since, (m.node n).pendingShardChannels.lookup channelId
      = some (⟨route.domain, route⟩, since)) ∧
      (m'.node n).pendingShardChannels.lookup channelId = none := by
  obtain ⟨rfl, heffects, cmd, now, hinput, hoffered⟩ := hreplies
  have hmem : SwarmEffect.sendResponse route.domain route response ∈ e.effects := by
    rw [heffects]
    exact List.mem_singleton_self _
  obtain ⟨cmd', now', channelId', since, hinput', hoffered', hlookup⟩ := (hstep.turn h).replies hmem
  rw [hinput] at hinput'
  cases hinput'
  rw [hoffered] at hoffered'
  cases hoffered'
  refine ⟨⟨since, hlookup⟩, ?_⟩
  rw [Option.eq_none_iff_forall_ne_some]
  intro entry hentry
  rcases ((hstep.turn h).channel_iff (h.node e.node) channelId entry).mp hentry with
    ⟨peer, request, hinput', -⟩ | ⟨hold, hopen⟩
  · rw [hinput] at hinput'
    cases hinput'
  · rw [hlookup] at hold
    cases hold
    refine hopen ?_
    rw [hinput]
    exact ⟨response, hoffered⟩

/-- A report takes the record it names. -/
theorem MeshStep.reports (hstep : MeshStep ids honest m e m') (h : m.Sound ids)
    {key : OutboundKey} {origin : OutboundOrigin} (hreports : e.Reports n key origin) :
    (∃ issuedAt, (m.node n).record? key = some (origin, issuedAt)) ∧
      (m'.node n).record? key = none := by
  obtain ⟨rfl, hinput, hsettles⟩ := hreports.input
  refine ⟨?_, (hstep.turn h).settled (h.node e.node) hinput hsettles⟩
  have turn := hstep.turn h
  rcases hreports with ⟨response, -, hresponse, htells⟩ | ⟨error, -, hfailure, htells⟩
  · rw [hresponse] at turn
    exact (turn.receives_iff.mp htells).2
  · rw [hfailure] at turn
    exact turn.fails_iff.mp htells

/-- The key of a record was minted. -/
theorem minted_of_record (h : m.Sound ids) {key : OutboundKey} {record : OutboundOrigin × Nat}
    (hrecord : (m.node n).record? key = some record) :
    ∃ k, k < (m.node n).sentRequests key.domain ∧ key.id = (ids n).mint key.domain k :=
  ((h.node n).requests key _ (SumSwarm.record?_eq_some.mp hrecord)).1

theorem Spent.step {past : List MeshEntry} (h : Spent ids past m) (hm : m.Sound ids)
    (hstep : MeshStep ids honest m e m') : Spent ids (past ++ [e]) m' := by
  have hminted : ∀ n (key : OutboundKey),
      (∃ k, k < (m.node n).sentRequests key.domain ∧ key.id = (ids n).mint key.domain k) →
      ∃ k, k < (m'.node n).sentRequests key.domain ∧ key.id = (ids n).mint key.domain k := by
    rintro n key ⟨k, hk, hid⟩
    exact ⟨k, Nat.lt_of_lt_of_le hk (hstep.sent hm n key.domain), hid⟩
  refine ⟨?_, ?_, ?_, ?_⟩
  · intro e' n key peer request hmem hasks
    rcases List.mem_append.mp hmem with hold | hnew
    · exact hminted n key (h.asked e' n key peer request hold hasks)
    · obtain rfl := List.mem_singleton.mp hnew
      obtain ⟨rfl, heffects⟩ := hasks
      have hsent : SwarmEffect.sendRequest key.domain key.id peer request ∈ e'.effects := by
        rw [heffects]
        exact List.mem_singleton_self _
      obtain ⟨hid, hcount, -⟩ := (hstep.turn hm).asks hsent
      refine ⟨(m.node e'.node).sentRequests key.domain, ?_, hid⟩
      omega
  · intro e' n channelId route request since hmem hhears
    rcases List.mem_append.mp hmem with hold | hnew
    · exact Nat.lt_of_lt_of_le (h.heard e' n channelId route request since hold hhears)
        (hstep.numbered hm n)
    · obtain rfl := List.mem_singleton.mp hnew
      obtain ⟨rfl, hinput, heffects⟩ := hhears
      have hannounces : SumSwarm.Announces e'.input e'.effects channelId
          (⟨route.domain, route⟩, since) := ⟨route.requester, request, hinput, heffects⟩
      obtain ⟨hid, hcount⟩ := (hstep.turn hm).announces hannounces
      omega
  · intro e' n channelId route response hmem hreplies
    rcases List.mem_append.mp hmem with hold | hnew
    · obtain ⟨hlt, hnone⟩ := h.replied e' n channelId route response hold hreplies
      exact ⟨Nat.lt_of_lt_of_le hlt (hstep.numbered hm n), hstep.stays_closed hm hlt hnone⟩
    · obtain rfl := List.mem_singleton.mp hnew
      obtain ⟨⟨since, hlookup⟩, hnone⟩ := hstep.replies hm hreplies
      exact ⟨Nat.lt_of_lt_of_le ((hm.node n).channels _ _ hlookup) (hstep.numbered hm n), hnone⟩
  · intro e' n key origin hmem hreports
    rcases List.mem_append.mp hmem with hold | hnew
    · obtain ⟨hkey, hnone⟩ := h.reported e' n key origin hold hreports
      exact ⟨hminted n key hkey, hstep.stays_settled hm hkey hnone⟩
    · obtain rfl := List.mem_singleton.mp hnew
      obtain ⟨⟨issuedAt, hrecord⟩, hnone⟩ := hstep.reports hm hreports
      exact ⟨hminted n key (minted_of_record hm hrecord), hnone⟩

theorem MeshRun.spent (h : MeshRun ids honest log m) : Spent ids log m := by
  have hboth : m.Sound ids ∧ Spent ids log m := by
    refine h.invariant (P := fun past m => m.Sound ids ∧ Spent ids past m) ?_ []
      ⟨Mesh.sound_init, ?_⟩
    · rintro past m e m' ⟨hm, hspent⟩ hstep
      exact ⟨hm.step hstep, hspent.step hm hstep⟩
    · refine ⟨?_, ?_, ?_, ?_⟩
      · intro e n key peer request hmem
        cases hmem
      · intro e n channelId route request since hmem
        cases hmem
      · intro e n channelId route response hmem
        cases hmem
      · intro e n key origin hmem
        cases hmem
  exact hboth.2

/-! ### Tracing back -/

/-- The step of an entry of a run, behind a run of its own. -/
theorem MeshRun.at_entry (h : MeshRun ids honest (before ++ e :: after) m) :
    ∃ t t', MeshRun ids honest before t ∧ MeshStep ids honest t e t' := by
  obtain ⟨t, t', hbefore, hstep, -⟩ := Run.split h
  exact ⟨t, t', hbefore, hstep⟩

/-- What opens a channel is an arrival by the channel's own domain. -/
theorem MeshStep.hears (hstep : MeshStep ids honest m e m') {channelId : Nat}
    {entry : PendingChannel Route × Nat} (hopens : e.OpensChannel (n, channelId) entry) :
    entry.1.domain = entry.1.channel.domain ∧
      ∃ request, e.Hears n channelId entry.1.channel request entry.2 := by
  obtain ⟨hn, peer, request, hinput, heffects⟩ := hopens
  have harrives := hstep.arrives
  rw [hinput] at harrives
  obtain ⟨hdomain, hpeer, -, -⟩ := harrives
  refine ⟨hdomain.symm, request, hn, ?_, ?_⟩
  · rw [hdomain, hpeer]
    exact hinput
  · rw [hpeer]
    exact heffects

/-- An open channel was announced to its node. -/
theorem MeshRun.heard_of_open (h : MeshRun ids honest log m) {channelId : Nat}
    {entry : PendingChannel Route × Nat}
    (hentry : (m.node n).pendingShardChannels.lookup channelId = some entry) :
    entry.1.domain = entry.1.channel.domain ∧
      ∃ before hear after request, log = before ++ hear :: after ∧
        hear.Hears n channelId entry.1.channel request entry.2 := by
  obtain ⟨before, hear, after, rfl, hopens, -⟩ := (h.channel_iff n channelId entry).mp hentry
  obtain ⟨t, t', -, hstep⟩ := h.at_entry
  obtain ⟨hdomain, request, hhears⟩ := hstep.hears hopens
  exact ⟨hdomain, before, hear, after, request, rfl, hhears⟩

/-- A request on the wire was sent. -/
theorem MeshRun.asked_of_wire (h : MeshRun ids honest log m) {domain : RequestDomain}
    {sender receiver : PeerId} {id : Nat} {request : ShardRequestVersioned}
    (hwire : .request domain sender receiver id request ∈ m.wire) :
    ∃ ask ∈ log, ask.Asks sender ⟨domain, id⟩ receiver request := by
  rw [h.wire] at hwire
  obtain ⟨ask, hask, hmessage⟩ := List.mem_flatMap.mp hwire
  obtain ⟨effect, heffect, hmessage⟩ := List.mem_filterMap.mp hmessage
  obtain ⟨before, after, rfl⟩ := List.append_of_mem hask
  obtain ⟨t, t', hbefore, hstep⟩ := h.at_entry
  cases effect with
  | sendRequest domain' id' peer request' =>
      cases hmessage
      obtain ⟨-, -, heffects, -⟩ := (hstep.turn hbefore.sound).asks heffect
      exact ⟨ask, hask, rfl, heffects⟩
  | sendResponse domain' channel response =>
      unfold SwarmEffect.message? at hmessage
      dsimp only at hmessage
      split at hmessage
      · cases hmessage
      · cases hmessage
  | emitted event => cases hmessage
  | dropped event => cases hmessage
  | taken event => cases hmessage

/-- A request that arrives from an honest peer was sent by it before. -/
theorem MeshRun.asked_of_hears (h : MeshRun ids honest before m)
    (hstep : MeshStep ids honest m e m') {channelId since : Nat} {route : Route}
    {request : ShardRequestVersioned} (hhears : e.Hears n channelId route request since)
    (hhonest : honest route.requester) :
    ∃ ask ∈ before, ask.Asks route.requester ⟨route.domain, route.id⟩ n request := by
  obtain ⟨rfl, hinput, -⟩ := hhears
  have harrives := hstep.arrives
  rw [hinput] at harrives
  exact h.asked_of_wire (harrives.2.2.2 hhonest)

/-- A sent answer goes out on a channel of its own domain, which was announced before. -/
theorem MeshRun.replied_of_sends (h : MeshRun ids honest before m)
    (hstep : MeshStep ids honest m e m') {domain : RequestDomain} {route : Route}
    {response : ShardResponseVersioned} (hsends : .sendResponse domain route response ∈ e.effects) :
    domain = route.domain ∧ ∃ channelId, e.Replies e.node channelId route response := by
  obtain ⟨cmd, now, channelId, since, hinput, hoffered, hlookup⟩ :=
    (hstep.turn h.sound).replies hsends
  obtain ⟨hdomain, -⟩ := h.heard_of_open hlookup
  dsimp only at hdomain
  subst hdomain
  refine ⟨rfl, channelId, rfl, ?_, cmd, now, hinput, hoffered⟩
  have turn := hstep.turn h.sound
  rw [hinput] at turn
  exact (turn.replies_iff hoffered).mpr ⟨since, hlookup⟩

/-- An answer on the wire was sent on a channel that was announced before. -/
theorem MeshRun.replied_of_wire (h : MeshRun ids honest log m) {domain : RequestDomain}
    {sender receiver : PeerId} {id : Nat} {response : ShardResponseVersioned}
    (hwire : .response domain sender receiver id response ∈ m.wire) :
    ∃ before reply after channelId, log = before ++ reply :: after ∧
      reply.Replies sender channelId ⟨domain, receiver, id⟩ response := by
  rw [h.wire] at hwire
  obtain ⟨reply, hreply, hmessage⟩ := List.mem_flatMap.mp hwire
  obtain ⟨effect, heffect, hmessage⟩ := List.mem_filterMap.mp hmessage
  obtain ⟨before, after, rfl⟩ := List.append_of_mem hreply
  obtain ⟨t, t', hbefore, hstep⟩ := h.at_entry
  cases effect with
  | sendRequest domain' id' peer request' => cases hmessage
  | sendResponse domain' route response' =>
      obtain ⟨rfl, channelId, hreplies⟩ := hbefore.replied_of_sends hstep heffect
      unfold SwarmEffect.message? at hmessage
      dsimp only at hmessage
      rw [if_pos rfl] at hmessage
      cases hmessage
      exact ⟨before, reply, after, channelId, rfl, hreplies⟩
  | emitted event => cases hmessage
  | dropped event => cases hmessage
  | taken event => cases hmessage

/-! ### The exchange -/

/-- What one entry is, by the entries before it. -/
structure Exchanged (honest : PeerId → Prop) (before : List MeshEntry) (e : MeshEntry) : Prop where
  /-- A request goes out under a key of its own. -/
  asks : ∀ n key peer request, e.Asks n key peer request →
    ∀ e' ∈ before, ∀ peer' request', ¬ e'.Asks n key peer' request'
  /-- A request is announced under a number of its own, and an honest peer has sent it. -/
  hears : ∀ n channelId route request since, e.Hears n channelId route request since →
    (∀ e' ∈ before, ∀ route' request' since', ¬ e'.Hears n channelId route' request' since') ∧
      (honest route.requester →
        ∃ ask ∈ before, ask.Asks route.requester ⟨route.domain, route.id⟩ n request)
  /-- An answer goes out by the behaviour its request came by. -/
  sends : ∀ domain route response, .sendResponse domain route response ∈ e.effects →
    domain = route.domain ∧ ∃ channelId, e.Replies e.node channelId route response
  /-- It answers an announced request, as the first to do so. -/
  replies : ∀ n channelId route response, e.Replies n channelId route response →
    (∃ hear ∈ before, ∃ request since, hear.Hears n channelId route request since) ∧
      ∀ e' ∈ before, ∀ route' response', ¬ e'.Replies n channelId route' response'
  /-- Of this traffic, the loops above are told of requests, answers and failures. -/
  tells : ∀ event, .emitted event ∈ e.effects →
    (∃ channelId route request since, e.Hears e.node channelId route request since) ∨
      (∃ key origin, e.Reports e.node key origin) ∨
      ∃ event', e.input = .peerEvent event' ∧ event = .peer event'
  /-- A report is about the request that went out under its key, as the first to be so. -/
  reports : ∀ n key origin, e.Reports n key origin →
    (∃ ask ∈ before, ∃ request, ask.Asks n key origin.peer request ∧ request.kind = origin.kind) ∧
      ∀ e' ∈ before, ∀ origin', ¬ e'.Reports n key origin'
  /-- An answer told of answers the request; of an honest peer, it is what that peer's loops
  have answered to that very request, as it was announced to them. -/
  receives : ∀ n key origin response, e.Receives n key origin response →
    Answers origin.kind response ∧
      (honest origin.peer → ∃ ask hear reply channelId request since,
        List.Sublist [ask, hear, reply] before ∧
        ask.Asks n key origin.peer request ∧ request.kind = origin.kind ∧
        hear.Hears origin.peer channelId ⟨key.domain, n, key.id⟩ request since ∧
        reply.Replies origin.peer channelId ⟨key.domain, n, key.id⟩ response)

theorem MeshRun.asks_of_record (h : MeshRun ids honest log m) {key : OutboundKey}
    {record : OutboundOrigin × Nat} (hrecord : (m.node n).record? key = some record) :
    ∃ ask ∈ log, ∃ request, ask.Asks n key record.1.peer request ∧
      request.kind = record.1.kind := by
  obtain ⟨ask, hask, hn, cmd, request, -, hkind, heffects⟩ :=
    Run.Open.opened ((h.record_iff n key record).mp hrecord)
  exact ⟨ask, hask, request, ⟨hn, heffects⟩, hkind⟩

/-- A fresh request, behind everything sent. -/
theorem MeshStep.asks_fresh (hstep : MeshStep ids honest m e m') (h : MeshRun ids honest before m)
    {key : OutboundKey} {peer : PeerId} {request : ShardRequestVersioned}
    (hasks : e.Asks n key peer request) :
    ∀ e' ∈ before, ∀ peer' request', ¬ e'.Asks n key peer' request' := by
  intro e' he' peer' request' hasks'
  obtain ⟨k, hk, hid⟩ := h.spent.asked e' n key peer' request' he' hasks'
  obtain ⟨rfl, heffects⟩ := hasks
  have hmem : SwarmEffect.sendRequest key.domain key.id peer request ∈ e.effects := by
    rw [heffects]
    exact List.mem_singleton_self _
  obtain ⟨hid', -⟩ := (hstep.turn h.sound).asks hmem
  rw [hid] at hid'
  have hsame := (ids e.node).unique key.domain hid'
  omega

/-- The one request under a key. -/
theorem MeshRun.asks_unique (h : MeshRun ids honest log m) {key : OutboundKey}
    {peer peer' : PeerId} {request request' : ShardRequestVersioned} {ask ask' : MeshEntry}
    (hask : ask ∈ log) (hasks : ask.Asks n key peer request) (hask' : ask' ∈ log)
    (hasks' : ask'.Asks n key peer' request') : peer = peer' ∧ request = request' := by
  have hlater : ∀ {before after : List MeshEntry} {first second : MeshEntry}
      {peer peer' : PeerId} {request request' : ShardRequestVersioned},
      log = before ++ second :: after → first ∈ before → first.Asks n key peer request →
      ¬ second.Asks n key peer' request' := by
    rintro before after first second peer peer' request request' rfl hfirst hfirstAsks hsecondAsks
    obtain ⟨t, t', hbefore, hstep⟩ := h.at_entry
    exact hstep.asks_fresh hbefore hsecondAsks first hfirst peer request hfirstAsks
  obtain ⟨before, after, hlog⟩ := List.append_of_mem hask'
  rw [hlog] at hask
  rcases List.mem_append.mp hask with hfirst | hrest
  · exact absurd hasks' (hlater hlog hfirst hasks)
  · rcases List.mem_cons.mp hrest with rfl | hafter
    · obtain ⟨-, heffects⟩ := hasks
      obtain ⟨-, heffects'⟩ := hasks'
      rw [heffects] at heffects'
      cases heffects'
      exact ⟨rfl, rfl⟩
    · obtain ⟨between, after', rfl⟩ := List.append_of_mem hafter
      have hlog' : log = (before ++ ask' :: between) ++ ask :: after' := by
        rw [hlog]
        simp
      exact absurd hasks (hlater hlog' (by simp) hasks')

/-- An answer on the wire: the request, its announcement and the answer, in this order. -/
theorem MeshRun.exchange_of_wire (h : MeshRun ids honest log m) {key : OutboundKey}
    {peer : PeerId} {response : ShardResponseVersioned} (hn : honest n)
    (hwire : .response key.domain peer n key.id response ∈ m.wire) :
    ∃ ask hear reply channelId request since, List.Sublist [ask, hear, reply] log ∧
      ask.Asks n key peer request ∧
      hear.Hears peer channelId ⟨key.domain, n, key.id⟩ request since ∧
      reply.Replies peer channelId ⟨key.domain, n, key.id⟩ response := by
  obtain ⟨heard, reply, rest, channelId, rfl, hreplies⟩ := h.replied_of_wire hwire
  obtain ⟨t, t', hheard, hstep⟩ := h.at_entry
  obtain ⟨⟨since, hlookup⟩, -⟩ := hstep.replies hheard.sound hreplies
  obtain ⟨-, asked, hear, rest', request, rfl, hhears⟩ := hheard.heard_of_open hlookup
  obtain ⟨u, u', hasked, hstep'⟩ := hheard.at_entry
  obtain ⟨ask, hask, hasks⟩ := hasked.asked_of_hears hstep' hhears hn
  refine ⟨ask, hear, reply, channelId, request, since, ?_, hasks, hhears, hreplies⟩
  have hhear : List.Sublist [ask, hear] (asked ++ hear :: rest') :=
    (List.singleton_sublist.mpr hask).append (List.singleton_sublist.mpr (by simp))
  exact hhear.append (List.singleton_sublist.mpr (by simp))

/-- **A mesh exchanges requests and answers.** -/
theorem exchanged (h : MeshRun ids honest before m) (hstep : MeshStep ids honest m e m') :
    Exchanged honest before e := by
  have turn := hstep.turn h.sound
  refine ⟨?_, ?_, ?_, ?_, ?_, ?_, ?_⟩
  · intro n key peer request hasks
    exact hstep.asks_fresh h hasks
  · intro n channelId route request since hhears
    refine ⟨?_, h.asked_of_hears hstep hhears⟩
    intro e' he' route' request' since' hhears'
    have hlt := h.spent.heard e' n channelId route' request' since' he' hhears'
    obtain ⟨rfl, hinput, heffects⟩ := hhears
    have hannounces : SumSwarm.Announces e.input e.effects channelId
        (⟨route.domain, route⟩, since) := ⟨route.requester, request, hinput, heffects⟩
    obtain ⟨heq, -⟩ := turn.announces hannounces
    omega
  · intro domain route response hsends
    exact h.replied_of_sends hstep hsends
  · intro n channelId route response hreplies
    obtain ⟨⟨since, hlookup⟩, -⟩ := hstep.replies h.sound hreplies
    obtain ⟨-, before', hear, after, request, rfl, hhears⟩ := h.heard_of_open hlookup
    refine ⟨⟨hear, by simp, request, since, hhears⟩, ?_⟩
    intro e' he' route' response' hreplies'
    have hnone := (h.spent.replied e' n channelId route' response' he' hreplies').2
    rw [hlookup] at hnone
    cases hnone
  · intro event hevent
    rcases turn.tells hevent with
      ⟨domain, peer, request, channel, now, channelId, hinput, heffects⟩ |
      ⟨domain, id, response, origin, hinput, htells⟩ |
      ⟨domain, id, error, origin, hinput, htells⟩ | hpeer
    · have hopens : e.OpensChannel (e.node, channelId) (⟨domain, channel⟩, now) :=
        ⟨rfl, peer, request, hinput, heffects⟩
      obtain ⟨-, request', hhears⟩ := hstep.hears hopens
      exact Or.inl ⟨channelId, channel, request', now, hhears⟩
    · exact Or.inr (Or.inl ⟨⟨domain, id⟩, origin, Or.inl ⟨response, rfl, hinput, htells⟩⟩)
    · exact Or.inr (Or.inl ⟨⟨domain, id⟩, origin, Or.inr ⟨error, rfl, hinput, htells⟩⟩)
    · exact Or.inr (Or.inr hpeer)
  · intro n key origin hreports
    obtain ⟨⟨issuedAt, hrecord⟩, -⟩ := hstep.reports h.sound hreports
    refine ⟨h.asks_of_record hrecord, ?_⟩
    intro e' he' origin' hreports'
    have hnone := (h.spent.reported e' n key origin' he' hreports').2
    rw [hrecord] at hnone
    cases hnone
  · intro n key origin response hreceives
    obtain ⟨⟨issuedAt, hrecord⟩, -⟩ := hstep.reports h.sound (Or.inl ⟨response, hreceives⟩)
    obtain ⟨ask, hask, request, hasks, hkind⟩ := h.asks_of_record hrecord
    obtain ⟨rfl, hinput, htells⟩ := hreceives
    rw [hinput] at turn
    refine ⟨(turn.receives_iff.mp htells).1, ?_⟩
    intro hhonest
    have harrives := hstep.arrives
    rw [hinput] at harrives
    obtain ⟨ask', hear, reply, channelId, request', since, hsublist, hasks', hhears, hreplies⟩ :=
      h.exchange_of_wire hstep.acts (harrives hhonest)
    have hask' : ask' ∈ before := hsublist.subset (by simp)
    obtain ⟨-, rfl⟩ := h.asks_unique hask hasks hask' hasks'
    exact ⟨ask', hear, reply, channelId, request, since, hsublist, hasks', hkind, hhears, hreplies⟩

/--
**A mesh exchanges requests and answers.**  Whatever the wire does and whatever the peers
that are not honest send; and the refusals that would be a bug are never counted.
-/
theorem mesh_exchanges (h : MeshRun ids honest log m) :
    (∀ before e after, log = before ++ e :: after → Exchanged honest before e) ∧
      ∀ n, (m.node n).refusals.faults = 0 := by
  refine ⟨?_, h.sound.faults⟩
  rintro before e after rfl
  obtain ⟨t, t', hbefore, hstep⟩ := h.at_entry
  exact exchanged hbefore hstep

/-! ### The log answers for the task -/

/-- What the loops of a node have been told, oldest first. -/
def emissions (n : PeerId) (log : List MeshEntry) : List ShardEvent :=
  (log.filter fun e => e.node = n).flatMap fun e => e.effects.filterMap SwarmEffect.emitted?

/-- What they have taken. -/
def takings (n : PeerId) (log : List MeshEntry) : List ShardEvent :=
  (log.filter fun e => e.node = n).flatMap fun e => e.effects.filterMap SwarmEffect.taken?

/-- The queue of a node holds what has been told and not been taken. -/
theorem MeshRun.queue (h : MeshRun ids honest log m) (n : PeerId) :
    emissions n log = takings n log ++ (m.node n).events.items := by
  have hboth : m.Sound ids ∧ emissions n log = takings n log ++ (m.node n).events.items := by
    refine h.invariant (P := fun past m => m.Sound ids ∧
      emissions n past = takings n past ++ (m.node n).events.items) ?_ [] ⟨Mesh.sound_init, rfl⟩
    rintro past m e m' ⟨hm, hqueue⟩ hstep
    refine ⟨hm.step hstep, ?_⟩
    unfold emissions takings at hqueue ⊢
    rw [List.filter_append, List.flatMap_append, List.flatMap_append, hqueue, List.append_assoc]
    by_cases hn : e.node = n
    · subst hn
      have hturn := (hstep.turn hm).queue
      simp [hturn]
    · rw [hstep.node_of_ne hn]
      simp [hn]
  exact hboth.2

/-- What one entry does, by the entries before it. -/
structure AnsweredByLog (before : List MeshEntry) (e : MeshEntry) : Prop where
  /-- A command for a request sends it. -/
  asks : ∀ cmd now domain peer request, e.input = .command cmd now →
    cmd.asked = some (domain, peer, request) → ∃ id, e.Asks e.node ⟨domain, id⟩ peer request
  /-- A command for an answer sends it while the channel is open, and on no other channel. -/
  replies : ∀ cmd now domain channelId response route, e.input = .command cmd now →
    cmd.offered = some (domain, channelId, response) →
    (e.effects = [.sendResponse domain route response] ↔
      ∃ since, OpenChannel before e.node channelId (⟨domain, route⟩, since))
  /-- The loops are told of every request. -/
  hears : ∀ domain peer request channel now,
    e.input = .inboundRequest domain peer request channel now →
    ∃ channelId, Tells (.requested peer channelId request) e.effects
  /-- Of an answer, while the record is open and if it answers it. -/
  receives : ∀ key origin response,
    e.input = .inboundResponse key.domain origin.peer key.id response →
    (Tells (.received origin.peer origin response) e.effects ↔
      Answers origin.kind response ∧ ∃ issuedAt, OpenRecord before e.node key (origin, issuedAt))
  /-- Of a failure, while the record is open. -/
  fails : ∀ key origin error, e.input = .outboundFailure key.domain origin.peer key.id error →
    (Tells (.failed error origin) e.effects ↔
      ∃ issuedAt, OpenRecord before e.node key (origin, issuedAt))
  /-- What they are told gets through unless as much is waiting as the queue holds. -/
  emits : ∀ event, Tells event e.effects → (e.effects = [.emitted event] ↔
    (emissions e.node before).length < (takings e.node before).length + eventCapacity)
  /-- They take what they have been told, in this order. -/
  takes : e.input = .nextEvent → ∀ event, e.effects = [.taken event] ↔
    (emissions e.node before)[(takings e.node before).length]? = some event

/-- **What a task does is what its log says**: which channels and which records are open, and
what is waiting. -/
theorem mesh_answers_by_log (h : MeshRun ids honest log m) :
    ∀ before e after, log = before ++ e :: after → AnsweredByLog before e := by
  rintro before e after rfl
  obtain ⟨t, t', hbefore, hstep⟩ := h.at_entry
  have turn := hstep.turn hbefore.sound
  have hqueue := hbefore.queue e.node
  refine ⟨?_, ?_, ?_, ?_, ?_, ?_, ?_⟩
  · intro cmd now domain peer request hinput hasked
    rw [hinput] at turn
    exact ⟨_, rfl, turn.sends hasked⟩
  · intro cmd now domain channelId response route hinput hoffered
    rw [hinput] at turn
    rw [turn.replies_iff hoffered]
    exact exists_congr fun since => hbefore.channel_iff e.node channelId _
  · intro domain peer request channel now hinput
    have hagree := hstep.agrees domain peer request channel now hinput
    rw [hinput] at turn
    exact ⟨_, turn.announces_arrival hagree⟩
  · intro key origin response hinput
    rw [hinput] at turn
    rw [turn.receives_iff]
    exact and_congr_right fun _ => exists_congr fun issuedAt => hbefore.record_iff e.node key _
  · intro key origin error hinput
    rw [hinput] at turn
    rw [turn.fails_iff]
    exact exists_congr fun issuedAt => hbefore.record_iff e.node key _
  · intro event htells
    rw [turn.emits_iff htells, hqueue, List.length_append]
    omega
  · intro hinput event
    rw [hinput] at turn
    rw [turn.takes_iff, hqueue, List.getElem?_append_right (Nat.le_refl _), Nat.sub_self,
      ← List.head?_eq_getElem?]

/-! ### A first exchange -/

/-- Numbers from one on. -/
def countedIds : RequestIds where
  mint := fun _ k => k + 1
  unique := fun _ _ _ h => Nat.succ.inj h

def firstRequest : ShardRequestV2 := .pull ['c'] 0 16

def firstResponse : ShardResponseV2 := .data ⟨['c'], 0, 0, [], none⟩

/-- Node 1 asks node 2 for a chunk, and it answers. -/
def firstAnswer : List MeshEntry :=
  let route : Route := ⟨.shardXferV2, 1, 1⟩
  [⟨1, .command (.requestShardV2 2 firstRequest) 0,
      [.sendRequest .shardXferV2 1 2 (.v2 firstRequest)]⟩,
    ⟨2, .inboundRequest .shardXferV2 1 (.v2 firstRequest) route 5,
      [.emitted (.shardRequestedV2 1 firstRequest 0)]⟩,
    ⟨2, .command (.sendShardResponseV2 0 firstResponse) 7,
      [.sendResponse .shardXferV2 route (.v2 firstResponse)]⟩]

/-- The answer arrives. -/
def firstReceipt : MeshEntry :=
  ⟨1, .inboundResponse .shardXferV2 2 1 (.v2 firstResponse),
    [.emitted (.told (.shardReceivedV2 2 firstResponse ⟨2, .v2Pull ['c']⟩))]⟩

/-- The mesh after an entry. -/
def Mesh.next (ids : PeerId → RequestIds) (m : Mesh) (e : MeshEntry) : Mesh where
  node := Function.update m.node e.node ((m.node e.node).step (ids e.node) e.input).1
  wire := m.wire ++ e.messages

theorem run_firstExchange :
    ∃ m, MeshRun (fun _ => countedIds) (fun _ => True) (firstAnswer ++ [firstReceipt]) m := by
  let next := Mesh.next fun _ => countedIds
  have hstep : ∀ m e, Arrives (fun _ => True) m.wire e.node e.input →
      e.effects = ((m.node e.node).step countedIds e.input).2 →
      MeshStep (fun _ => countedIds) (fun _ => True) m e (next m e) :=
    fun m e harrives heffects => ⟨trivial, harrives, heffects, rfl, rfl⟩
  refine ⟨_, .cons (hstep _ _ trivial rfl) (.cons (hstep _ _ ?_ rfl)
    (.cons (hstep _ _ trivial rfl) (.cons (hstep _ _ ?_ rfl) (.nil _))))⟩
  · exact ⟨rfl, rfl, rfl, fun _ => List.mem_singleton_self _⟩
  · intro _
    exact List.mem_cons_of_mem _ (List.mem_singleton_self _)

theorem firstExchange_exchanges : Exchanged (fun _ => True) firstAnswer firstReceipt := by
  obtain ⟨m, h⟩ := run_firstExchange
  exact (mesh_exchanges h).1 firstAnswer firstReceipt [] rfl

theorem firstExchange_answers_by_log : AnsweredByLog firstAnswer firstReceipt := by
  obtain ⟨m, h⟩ := run_firstExchange
  exact mesh_answers_by_log h firstAnswer firstReceipt [] rfl

end

end Snip
