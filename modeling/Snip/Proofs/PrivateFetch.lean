/-
When the fetch of a Private file keeps its slots busy.

Every arm of the loop that changes something dispatches again, except the one for a
chunk that arrives: its slot stays empty until something else happens.  So the bound
is used as long as no chunk arrives while another could be asked for, which is always
so for a file that has no more chunks than the bound.  A request that fails changes
nothing at all: its chunk stays in flight.
-/
import Snip.Proofs.PublicFetch
import Snip.Node.DownloadPrivate
import Snip.Proofs.Acceptance
import Snip.Proofs.DownloadV2

namespace Snip

/-- The loop, and the pulls it has sent that nothing has answered yet. -/
structure PrivateFetch where
  loop : CiphertextFetchLoop
  outstanding : List Pull

/-- The request of the pull failed. -/
def Pull.FailedBy (p : Pull) (input : LoopInput) : Prop :=
  ∃ error origin swarmRuns io, origin.requestedCid = some p.cid ∧
    input = .event (.shardRequestFailed p.peerId error origin) swarmRuns io

namespace CiphertextFetchLoop

variable [PeerOrder]

/-- The bound is used: it is reached, or no chunk is left that could be asked for. -/
def Conserving (f : CiphertextFetchLoop) (m : DataManifest) (maxConcurrent : Nat) : Prop :=
  f.state.Conserving m.chunks (addrToPeer f.peerAddresses) maxConcurrent f.skipUnresolved

/-- Some chunk is neither received nor in flight and could be asked for. -/
def SomeAskable (f : CiphertextFetchLoop) (m : DataManifest) : Prop :=
  ∃ c ∈ m.chunks, f.state.Askable (addrToPeer f.peerAddresses) f.skipUnresolved c.chunkIndex

/-- The input is a response with the right bytes for a chunk that waits for it. -/
def Delivered [Blake3] (f : CiphertextFetchLoop) (m : DataManifest) (input : LoopInput) : Prop :=
  ∃ peerId body origin swarmRuns io idx s cd,
    input = .event (.shardReceivedV2 peerId (.data body) origin) swarmRuns io ∧
    f.state.awaiting m.chunks body.cid peerId = some (idx, s) ∧ s.received = none ∧
    chunkAt m.chunks idx = some cd ∧ servesChunk cd body = true

end CiphertextFetchLoop

namespace PrivateFetch

variable [Blake3] [PeerOrder]

/-- Before the first event. -/
def start [AssignmentScore] (nodes : Except Str (List NodeRecordInfo))
    (replicationFactor : Except Str Nat) (assignmentHeight : Nat) (m : DataManifest)
    (peerAddresses : Map PeerId Addr) (maxConcurrent : Nat) (swarmRuns : Bool) :
    Except CiphertextFetchError PrivateFetch :=
  match CiphertextFetchLoop.initial nodes replicationFactor assignmentHeight m peerAddresses with
  | .error e => .error e
  | .ok f => (f.dispatch m maxConcurrent swarmRuns).map fun (loop, pulls) => ⟨loop, pulls⟩

/-- One input, while the loop goes on. -/
def next (m : DataManifest) (maxConcurrent : Nat) (g : PrivateFetch) (input : LoopInput) :
    Except CiphertextFetchError PrivateFetch :=
  (g.loop.onInput m maxConcurrent input).map fun (loop, pulls) =>
    ⟨loop, PublicFetch.settle g.outstanding input.answered ++ pulls⟩

/-- The loop waits for an input and takes it. -/
def Step (m : DataManifest) (maxConcurrent : Nat) (g : PrivateFetch) (input : LoopInput)
    (g' : PrivateFetch) : Prop :=
  g.loop.finished = false ∧ g.next m maxConcurrent input = .ok g'

/-- No request has failed, and no chunk arrives while another could be asked for. -/
def Steady (m : DataManifest) (g : PrivateFetch) (input : LoopInput) : Prop :=
  (∀ p ∈ g.outstanding, ¬ p.FailedBy input) ∧
    (g.loop.Delivered m input → ¬ g.loop.SomeAskable m)

/-- A step at which the loop keeps its slots busy. -/
def SteadyStep (m : DataManifest) (maxConcurrent : Nat) (g : PrivateFetch) (input : LoopInput)
    (g' : PrivateFetch) : Prop :=
  g.Steady m input ∧ Step m maxConcurrent g input g'

end PrivateFetch

/-! ### What an input does -/

namespace CiphertextFetchLoop

variable [PeerOrder] {f f' : CiphertextFetchLoop} {m : DataManifest} {maxConcurrent : Nat}
  {swarmRuns : Bool} {pulls : List Pull}

theorem dispatch_ok (h : f.dispatch m maxConcurrent swarmRuns = .ok (f', pulls)) :
    ∃ state, f' = { f with state } ∧
      f.state.tryDispatch m.chunks (addrToPeer f.peerAddresses) maxConcurrent f.skipUnresolved
        swarmRuns = .ok (state, pulls) := by
  unfold dispatch at h
  split at h
  · cases h
  · rename_i state pulls' hok
    cases h
    exact ⟨state, rfl, hok⟩

variable [Blake3]

/-- What an input can do if the loop goes on after it. -/
inductive Effect (f : CiphertextFetchLoop) (m : DataManifest) (maxConcurrent : Nat)
    (input : LoopInput) (f' : CiphertextFetchLoop) (pulls : List Pull) : Prop
  /-- It changes nothing. -/
  | ignored (same : f' = f) (none_sent : pulls = []) (undelivered : ¬ f.Delivered m input)
  /-- It changes who is known or whom to skip. -/
  | refreshed (g : CiphertextFetchLoop) (swarmRuns : Bool) (unanswered : input.answered = none)
      (state : g.state = f.state) (sent : g.dispatch m maxConcurrent swarmRuns = .ok (f', pulls))
      (undelivered : ¬ f.Delivered m input)
  /-- The chunk that waits for it is received. -/
  | received (peerId : PeerId) (cid : Str) (idx : Nat) (s : CiphertextState) (data : Bytes)
      (key : input.answered = some (peerId, cid))
      (awaited : f.state.awaiting m.chunks cid peerId = some (idx, s))
      (missing : s.received = none)
      (same : f' = { f with
        state := f.state.insert idx { s with inFlightTo := none, received := some data } })
      (none_sent : pulls = []) (delivered : f.Delivered m input)
      (bytes : input.chunkBytes = some data)
      (checked : ∃ cd, chunkAt m.chunks idx = some cd ∧ Blake3.hash data = cd.blake3Hash)
  /-- The chunk that waits for it has to be asked of another archive. -/
  | refused (peerId : PeerId) (cid : Str) (idx : Nat) (s : CiphertextState) (swarmRuns : Bool)
      (key : input.answered = some (peerId, cid))
      (awaited : f.state.awaiting m.chunks cid peerId = some (idx, s))
      (missing : s.received = none) (left : s.nextAttemptIdx < s.assigned.length)
      (sent : CiphertextFetchLoop.dispatch
        { f with state := f.state.insert idx { s with inFlightTo := none, received := s.received } }
        m maxConcurrent swarmRuns = .ok (f', pulls))
      (undelivered : ¬ f.Delivered m input)

omit [PeerOrder] in
/-- Only a response delivers a chunk. -/
theorem not_delivered {input : LoopInput}
    (h : ∀ peerId body origin swarmRuns io,
      input ≠ .event (.shardReceivedV2 peerId (.data body) origin) swarmRuns io) :
    ¬ f.Delivered m input := by
  rintro ⟨peerId, body, origin, swarmRuns, io, -, -, -, heq, -⟩
  exact h peerId body origin swarmRuns io heq

theorem onData_effect {io : Io} {peerId : PeerId} {body : ShardResponse} {origin : OutboundOrigin}
    (h : f.onData m maxConcurrent swarmRuns peerId body = .ok (f', pulls)) :
    Effect f m maxConcurrent (.event (.shardReceivedV2 peerId (.data body) origin) swarmRuns io) f'
      pulls := by
  unfold onData at h
  split at h
  · rename_i hnone
    cases h
    refine .ignored rfl rfl ?_
    rintro ⟨p, b, o, w, i, idx, s, cd, heq, hawait, -⟩
    cases heq
    rw [hnone] at hawait
    cases hawait
  rename_i idx s hawait
  split at h
  · rename_i hdone
    cases h
    refine .ignored rfl rfl ?_
    rintro ⟨p, b, o, w, i, idx', s', cd, heq, hawait', hr, -⟩
    cases heq
    rw [hawait] at hawait'
    cases hawait'
    rw [hr] at hdone
    cases hdone
  rename_i hmissing
  have hmissing : s.received = none := by simpa using hmissing
  split at h
  · rename_i hchunk
    cases h
    refine .ignored rfl rfl ?_
    rintro ⟨p, b, o, w, i, idx', s', cd, heq, hawait', -, hcd, -⟩
    cases heq
    rw [hawait] at hawait'
    cases hawait'
    rw [hchunk] at hcd
    cases hcd
  rename_i cd hchunk
  split at h
  · rename_i hserves
    cases h
    exact .received peerId body.cid idx s body.data rfl hawait hmissing rfl rfl
      ⟨peerId, body, origin, swarmRuns, io, idx, s, cd, rfl, hawait, hmissing, hchunk, hserves⟩
      rfl ⟨cd, hchunk, servesChunk_hash hserves⟩
  rename_i hserves
  split at h
  · cases h
  · rename_i hleft
    refine .refused peerId body.cid idx s swarmRuns rfl hawait hmissing (by omega) h ?_
    rintro ⟨p, b, o, w, i, idx', s', cd', heq, hawait', -, hcd, hserves'⟩
    cases heq
    rw [hawait] at hawait'
    cases hawait'
    rw [hchunk] at hcd
    cases hcd
    exact hserves hserves'

/-- **Every input that the loop survives has one of the effects.** -/
theorem onInput_effect {input : LoopInput} (h : f.onInput m maxConcurrent input = .ok (f', pulls)) :
    Effect f m maxConcurrent input f' pulls := by
  have hignored : ¬ f.Delivered m input → (Except.ok (f, ([] : List Pull)) : Outcome)
      = .ok (f', pulls) → Effect f m maxConcurrent input f' pulls := by
    intro hnot heq
    cases heq
    exact .ignored rfl rfl hnot
  cases input with
  | event e swarmRuns io =>
      cases e with
      | peerDiscovered peerId => exact hignored (not_delivered fun _ _ _ _ _ h => nomatch h) h
      | peerIdentified peerId l1Address =>
          exact .refreshed { f with peerAddresses := f.peerAddresses.insert peerId l1Address }
            swarmRuns rfl rfl h (not_delivered fun _ _ _ _ _ h => nomatch h)
      | peerDisconnected peerId =>
          exact .refreshed { f with peerAddresses := f.peerAddresses.erase peerId } swarmRuns
            rfl rfl h (not_delivered fun _ _ _ _ _ h => nomatch h)
      | shardReceived peerId response origin =>
          exact hignored (not_delivered fun _ _ _ _ _ h => nomatch h) h
      | shardReceivedV2 peerId response origin =>
          cases response with
          | data body => exact onData_effect h
          | pushAck merkleRoot chunkIndex error =>
              exact hignored (not_delivered fun _ _ _ _ _ h => nomatch h) h
          | manifestPushAck merkleRoot error =>
              exact hignored (not_delivered fun _ _ _ _ _ h => nomatch h) h
          | manifestData merkleRoot manifestBytes error =>
              exact hignored (not_delivered fun _ _ _ _ _ h => nomatch h) h
      | shardRequestFailed peerId error origin =>
          exact hignored (not_delivered fun _ _ _ _ _ h => nomatch h) h
      | other => exact hignored (not_delivered fun _ _ _ _ _ h => nomatch h) h
  | grace swarmRuns =>
      unfold onInput at h
      dsimp only at h
      split at h
      · exact hignored (not_delivered fun _ _ _ _ _ h => nomatch h) h
      · exact .refreshed { f with skipUnresolved := true } swarmRuns rfl rfl h
          (not_delivered fun _ _ _ _ _ h => nomatch h)
  | deadline => cases h
  | closed => cases h

/-! ### Slots -/

/-- The bound is kept, and used. -/
structure Slots (f : CiphertextFetchLoop) (m : DataManifest) (maxConcurrent : Nat) : Prop where
  bounded : f.state.inFlight ≤ max maxConcurrent 1
  conserving : f.Conserving m maxConcurrent

section

variable (hnodup : (m.chunks.map ChunkDescriptor.chunkIndex).Nodup)

include hnodup

omit [Blake3] in
/-- A dispatch uses the bound. -/
theorem Slots.of_dispatch (hbounded : f.state.inFlight ≤ max maxConcurrent 1)
    (h : f.dispatch m maxConcurrent swarmRuns = .ok (f', pulls)) : f'.Slots m maxConcurrent := by
  obtain ⟨state, rfl, hok⟩ := dispatch_ok h
  obtain ⟨hb, hc⟩ := ChunkStates.tryDispatch_conserving hnodup hok hbounded
  exact ⟨hb, hc⟩

omit [Blake3] [PeerOrder] hnodup in
/-- A chunk that waits for nobody any more leaves a slot. -/
theorem inFlight_release {state : ChunkStates Bytes} {chunks : List ChunkDescriptor} {cid : Str}
    {peerId : PeerId} {idx : Nat} {s : CiphertextState}
    (hawait : state.awaiting chunks cid peerId = some (idx, s)) (received : Option Bytes) :
    ChunkStates.inFlight (state.insert idx { s with inFlightTo := none, received := received }) + 1
      = state.inFlight := by
  obtain ⟨-, hs, addr, hflight⟩ := ChunkStates.awaiting_some hawait
  have hinsert := ChunkStates.inFlight_insert hs
    { s with inFlightTo := none, received := received }
  rw [hflight] at hinsert
  simpa using hinsert

/-- **The bound stays used exactly if no chunk arrives while another could be asked for.** -/
theorem Slots.step_iff (h : f.Slots m maxConcurrent) {input : LoopInput}
    (hstep : f.onInput m maxConcurrent input = .ok (f', pulls)) :
    f'.state.inFlight ≤ max maxConcurrent 1 ∧
      (f'.Conserving m maxConcurrent ↔ (f.Delivered m input → ¬ f.SomeAskable m)) := by
  cases onInput_effect hstep with
  | ignored same none_sent undelivered =>
      subst same
      exact ⟨h.bounded, iff_of_true h.conserving fun hd => absurd hd undelivered⟩
  | refreshed g swarmRuns unanswered state sent undelivered =>
      have hslots := Slots.of_dispatch hnodup (by rw [state]; exact h.bounded) sent
      exact ⟨hslots.bounded, iff_of_true hslots.conserving fun hd => absurd hd undelivered⟩
  | refused peerId cid idx s swarmRuns key awaited missing left sent undelivered =>
      have hcount := inFlight_release awaited s.received
      have hbound := h.bounded
      have hslots := Slots.of_dispatch hnodup (by dsimp only; omega) sent
      exact ⟨hslots.bounded, iff_of_true hslots.conserving fun hd => absurd hd undelivered⟩
  | received peerId cid idx s data key awaited missing same none_sent delivered bytes checked =>
      have hcount := inFlight_release awaited (some data)
      have hbound := h.bounded
      obtain ⟨-, hs, addr, hflight⟩ := ChunkStates.awaiting_some awaited
      -- The other chunks are as they were, and this one needs nothing any more.
      have hask : ∀ c, f'.state.Askable (addrToPeer f'.peerAddresses) f'.skipUnresolved c ↔
          f.state.Askable (addrToPeer f.peerAddresses) f.skipUnresolved c := by
        intro c
        subst same
        constructor
        · rintro ⟨t, ht, hr, hf, hnext⟩
          have hne : c ≠ idx := by
            intro heq
            have ht : AList.lookup c (f.state.insert idx
              { s with inFlightTo := none, received := some data }) = some t := ht
            rw [heq, AList.lookup_insert, Option.some.injEq] at ht
            rw [← ht] at hr
            cases hr
          exact ⟨t, by rw [← ht]; exact (AList.lookup_insert_ne hne).symm, hr, hf, hnext⟩
        · rintro ⟨t, ht, hr, hf, hnext⟩
          have hne : c ≠ idx := by
            intro heq
            rw [heq, hs, Option.some.injEq] at ht
            rw [← ht, hflight] at hf
            cases hf
          exact ⟨t, by rw [← ht]; exact AList.lookup_insert_ne hne, hr, hf, hnext⟩
      have hcount' : f'.state.inFlight + 1 = f.state.inFlight := by
        rw [same]
        exact hcount
      refine ⟨by omega, ⟨fun hcons _ => ?_, fun hnone => ?_⟩⟩
      · rintro ⟨c, hc, hc'⟩
        rcases hcons with hfull | hnone
        · omega
        · exact hnone c hc ((hask _).mpr hc')
      · exact Or.inr fun c hc hc' => hnone delivered ⟨c, hc, (hask _).mp hc'⟩

end

end CiphertextFetchLoop

namespace PrivateFetch

variable [Blake3] [PeerOrder] {m : DataManifest} {maxConcurrent : Nat}

theorem next_ok {g g' : PrivateFetch} {input : LoopInput}
    (h : g.next m maxConcurrent input = .ok g') :
    ∃ loop pulls, g.loop.onInput m maxConcurrent input = .ok (loop, pulls) ∧
      g' = ⟨loop, PublicFetch.settle g.outstanding input.answered ++ pulls⟩ := by
  unfold next at h
  cases hin : g.loop.onInput m maxConcurrent input with
  | error e =>
      rw [hin] at h
      cases h
  | ok out =>
      rw [hin] at h
      cases h
      exact ⟨out.1, out.2, rfl, rfl⟩

/-- A steady run keeps the slots busy. -/
theorem slots_run (hnodup : (m.chunks.map ChunkDescriptor.chunkIndex).Nodup) {g g' : PrivateFetch}
    (h : g.loop.Slots m maxConcurrent) {inputs : List LoopInput}
    (hrun : Run (SteadyStep m maxConcurrent) g inputs g') : g'.loop.Slots m maxConcurrent := by
  refine hrun.invariant (P := fun _ g => g.loop.Slots m maxConcurrent) ?_ [] h
  rintro - g input g' hslots ⟨hsteady, -, hnext⟩
  obtain ⟨loop, pulls, hin, rfl⟩ := next_ok hnext
  obtain ⟨hbound, hiff⟩ := hslots.step_iff hnodup hin
  exact ⟨hbound, hiff.mpr hsteady.2⟩

/-- A request that fails changes nothing. -/
theorem onInput_failed {f : CiphertextFetchLoop} {p : Pull} {input : LoopInput}
    (h : p.FailedBy input) : f.onInput m maxConcurrent input = .ok (f, []) := by
  obtain ⟨error, origin, swarmRuns, io, -, rfl⟩ := h
  rfl

end PrivateFetch

/-! ### The first dispatch -/

theorem assignedStates_ok [AssignmentScore] {root : Hash} {snapshot : List Addr} {r : Nat} :
    ∀ (chunks : List ChunkDescriptor) (state state' : ChunkStates Bytes),
    assignedStates root snapshot r chunks state = .ok state' →
    state' = chunks.foldl (fun state cd => state.insert cd.chunkIndex
      (⟨assignedArchives root snapshot cd.chunkIndex r, 0, none, none⟩ : CiphertextState)) state := by
  intro chunks
  induction chunks with
  | nil =>
      intro state state' h
      cases h
      rfl
  | cons cd chunks ih =>
      intro state state' h
      unfold assignedStates at h
      split at h
      · cases h
      · exact ih _ _ h

namespace PrivateFetch

variable [Blake3] [PeerOrder] {m : DataManifest} {maxConcurrent : Nat}

omit [Blake3] in
/-- Before the first event the slots are busy, and marks and pulls agree. -/
theorem start_ok [AssignmentScore] (hnodup : (m.chunks.map ChunkDescriptor.chunkIndex).Nodup)
    {nodes : Except Str (List NodeRecordInfo)} {replicationFactor : Except Str Nat}
    {assignmentHeight : Nat} {peerAddresses : Map PeerId Addr} {swarmRuns : Bool} {g : PrivateFetch}
    (h : start nodes replicationFactor assignmentHeight m peerAddresses maxConcurrent swarmRuns
      = .ok g) :
    g.loop.Slots m maxConcurrent ∧ Tracked m.chunks ∅ g.loop.state g.outstanding := by
  unfold start at h
  split at h
  · cases h
  rename_i f hinitial
  have htracked : Tracked m.chunks ∅ f.state [] := by
    unfold CiphertextFetchLoop.initial at hinitial
    split at hinitial
    · cases hinitial
    split at hinitial
    · cases hinitial
    dsimp only at hinitial
    split at hinitial
    · cases hinitial
    split at hinitial
    · cases hinitial
    rename_i r
    cases hstates : assignedStates m.merkleRoot _ r m.chunks ∅ with
    | error e =>
        rw [hstates] at hinitial
        cases hinitial
    | ok state =>
        rw [hstates] at hinitial
        cases hinitial
        rw [assignedStates_ok _ _ _ hstates]
        exact Tracked.initial hnodup ∅ _ (fun c _ => ⟨rfl, rfl⟩) fun c _ hfile => nomatch hfile
  cases hdis : f.dispatch m maxConcurrent swarmRuns with
  | error e =>
      rw [hdis] at h
      cases h
  | ok out =>
      rw [hdis] at h
      cases h
      have hzero := htracked.inFlight_of_idle
      have hslots := CiphertextFetchLoop.Slots.of_dispatch hnodup (by omega) hdis
      obtain ⟨state, hf, hok⟩ := CiphertextFetchLoop.dispatch_ok hdis
      refine ⟨hslots, ?_⟩
      have hafter := htracked.dispatch (ChunkStates.tryDispatch_wave hnodup hok)
      show Tracked m.chunks ∅ out.1.state out.2
      rw [hf]
      exact hafter

/-! ### Archives that all answer -/

/-- Every chunk has archives, and each of them has a peer. -/
def Identified (g : PrivateFetch) : Prop :=
  ∀ i s, g.loop.state.lookup i = some s → s.assigned ≠ [] ∧
    ∀ a ∈ s.assigned, (addrToPeer g.loop.peerAddresses a).isSome = true

/-- A correct answer is given to some outstanding pull. -/
def ServedStep (m : DataManifest) (maxConcurrent : Nat) (g : PrivateFetch) (input : LoopInput)
    (g' : PrivateFetch) : Prop :=
  (∃ p ∈ g.outstanding, p.ServedBy m input) ∧ Step m maxConcurrent g input g'

/-- Marks and pulls agree, and every chunk is received or in flight. -/
structure AllAsked (m : DataManifest) (g : PrivateFetch) : Prop where
  tracked : Tracked m.chunks ∅ g.loop.state g.outstanding
  asked : ∀ i s, g.loop.state.lookup i = some s →
    s.received.isSome = true ∨ s.inFlightTo.isSome = true

omit [Blake3] in
/-- A file with no more chunks than the bound is asked for at once. -/
theorem allAsked_of_slots {g : PrivateFetch} (hslots : g.loop.Slots m maxConcurrent)
    (htracked : Tracked m.chunks ∅ g.loop.state g.outstanding) (hid : g.Identified)
    (hfew : m.chunks.length ≤ max maxConcurrent 1) : AllAsked m g := by
  refine ⟨htracked, fun i s hs => ?_⟩
  cases hr : s.received with
  | some data => exact Or.inl rfl
  | none =>
      right
      cases hf : s.inFlightTo with
      | some mark => rfl
      | none =>
          exfalso
          have hkey : i ∈ m.chunks.map ChunkDescriptor.chunkIndex :=
            (htracked.keys i).mp (by rw [hs]; rfl)
          obtain ⟨c, hc, rfl⟩ := List.mem_map.mp hkey
          rcases hslots.conserving with hfull | hnone
          · -- The chunk is not counted, and there are no more states than chunks.
            have hlt : g.loop.state.inFlight < g.loop.state.entries.length := by
              refine Nat.lt_of_le_of_ne List.countP_le_length fun heq => ?_
              have hall := List.countP_eq_length.mp heq ⟨_, s⟩ (AList.mem_lookup_iff.mp hs)
              dsimp only at hall
              rw [hf] at hall
              cases hall
            have hle : g.loop.state.entries.length ≤ m.chunks.length := by
              have hsub : g.loop.state.keys ⊆ m.chunks.map ChunkDescriptor.chunkIndex := fun j hj =>
                (htracked.keys j).mp (AList.lookup_isSome.mpr (AList.mem_keys.mpr hj))
              have hlen := (g.loop.state.keys_nodup.subperm hsub).length_le
              rwa [AList.keys, List.keys, List.length_map, List.length_map] at hlen
            omega
          · obtain ⟨hne, hall⟩ := hid _ s hs
            rcases htracked.left _ s hs hr hf with hnil | hlt
            · exact hne hnil
            · exact hnone c hc ⟨s, hs, hr, hf, nextAssignedArchive_isSome _ hlt hall⟩

/-- The loop once a chunk was received. -/
def receive (f : CiphertextFetchLoop) (idx : Nat) (s : CiphertextState) (data : Bytes) :
    CiphertextFetchLoop :=
  { f with state := f.state.insert idx { s with inFlightTo := none, received := some data } }

/-- The bytes of a chunk that waits for them are received. -/
theorem onData_receive {f : CiphertextFetchLoop} {peerId : PeerId} {body : ShardResponse}
    {idx : Nat} {s : CiphertextState} {cd : ChunkDescriptor} {swarmRuns : Bool}
    (hawait : f.state.awaiting m.chunks body.cid peerId = some (idx, s)) (hr : s.received = none)
    (hcd : chunkAt m.chunks idx = some cd) (hserves : servesChunk cd body = true) :
    f.onData m maxConcurrent swarmRuns peerId body = .ok (receive f idx s body.data, []) := by
  unfold CiphertextFetchLoop.onData
  rw [hawait]
  dsimp only
  rw [if_neg (by rw [hr]; decide), hcd]
  dsimp only
  rw [if_pos hserves]
  rfl

section

variable (honce : FetchedOnce m.chunks ∅) (hnodup : (m.chunks.map ChunkDescriptor.chunkIndex).Nodup)
  {g : PrivateFetch}

include honce hnodup

omit hnodup in
/-- A correct answer is received. -/
theorem served (htracked : Tracked m.chunks ∅ g.loop.state g.outstanding) {p : Pull}
    (hp : p ∈ g.outstanding) {input : LoopInput} (hserved : p.ServedBy m input) :
    ∃ s data, g.loop.state.awaiting m.chunks p.cid p.peerId = some (p.chunkIndex, s) ∧
      s.received = none ∧ g.next m maxConcurrent input = .ok
        ⟨receive g.loop p.chunkIndex s data,
          PublicFetch.settle g.outstanding (some (p.peerId, p.cid))⟩ := by
  obtain ⟨cd, body, origin, hcd, hserves, hcid, rfl⟩ := hserved
  obtain ⟨s, addr, hs, -, hr, hawait⟩ := htracked.awaiting_pull honce hp
  refine ⟨s, body.data, hawait, hr, ?_⟩
  have hin : g.loop.onInput m maxConcurrent
      (.event (.shardReceivedV2 p.peerId (.data body) origin) true .done)
      = .ok (receive g.loop p.chunkIndex s body.data, []) :=
    onData_receive (hcid ▸ hawait) hr hcd hserves
  unfold next
  rw [hin, ← hcid]
  simp [Except.map, LoopInput.answered]

/-- A correct answer leaves every other chunk asked for. -/
theorem AllAsked.step (h : AllAsked m g) {input : LoopInput} {g' : PrivateFetch}
    (hstep : ServedStep m maxConcurrent g input g') :
    AllAsked m g' ∧ g'.loop.state.pending m.chunks < g.loop.state.pending m.chunks := by
  obtain ⟨⟨p, hp, hserved⟩, -, hnext⟩ := hstep
  obtain ⟨s, data, hawait, hr, hnext'⟩ := served honce h.tracked hp hserved
  rw [hnext] at hnext'
  cases hnext'
  obtain ⟨hidx, hs, addr, hflight⟩ := ChunkStates.awaiting_some hawait
  refine ⟨⟨h.tracked.release hnodup honce hidx hs hflight (Or.inl rfl), fun i t ht => ?_⟩, ?_⟩
  · have ht : AList.lookup i (g.loop.state.insert p.chunkIndex
      { s with inFlightTo := none, received := some data }) = some t := ht
    by_cases hi : i = p.chunkIndex
    · rw [hi, AList.lookup_insert, Option.some.injEq] at ht
      rw [← ht]
      exact Or.inl rfl
    · rw [AList.lookup_insert_ne hi] at ht
      exact h.asked i t ht
  · obtain ⟨-, c, hc, hci, -⟩ := h.tracked.pulls p hp
    show ChunkStates.pending (g.loop.state.insert p.chunkIndex _) m.chunks < _
    rw [← hci] at hs ⊢
    exact ChunkStates.pending_insert_lt hc hs hr rfl

theorem AllAsked.run (h : AllAsked m g) {inputs : List LoopInput} {g' : PrivateFetch}
    (hrun : Run (ServedStep m maxConcurrent) g inputs g') :
    inputs.length + g'.loop.state.pending m.chunks ≤ g.loop.state.pending m.chunks ∧
      AllAsked m g' := by
  refine ⟨?_, ?_⟩
  · have hstep : ∀ g input g', AllAsked m g → ServedStep m maxConcurrent g input g' →
        AllAsked m g' ∧ g'.loop.state.pending m.chunks + 1 ≤ g.loop.state.pending m.chunks + 0 :=
      fun g input g' hall hserved => hall.step honce hnodup hserved
    have hlen : inputs.length + g'.loop.state.pending m.chunks
        ≤ g.loop.state.pending m.chunks + (inputs.map fun _ => 0).sum :=
      hrun.length_le hstep h
    simpa using hlen
  · exact hrun.invariant (P := fun _ g => AllAsked m g)
      (fun _ _ _ _ hall hstep => (hall.step honce hnodup hstep).1) [] h

end

omit [Blake3] [PeerOrder] in
/-- Nothing outstanding means nothing left, if all was asked for. -/
theorem AllAsked.finished {g : PrivateFetch} (h : AllAsked m g) (hidle : g.outstanding = []) :
    g.loop.finished = true := by
  have htracked := h.tracked
  rw [hidle] at htracked
  unfold CiphertextFetchLoop.finished
  rw [List.all_eq_true]
  rintro ⟨i, s⟩ he
  have hs : g.loop.state.lookup i = some s := AList.mem_lookup_iff.mpr he
  rcases h.asked i s hs with hr | hf
  · exact hr
  · rw [htracked.free_of_idle hs] at hf
    cases hf

end PrivateFetch

/--
**The fetch keeps its slots busy as long as no request fails and no chunk arrives while
another could be asked for.**  In every run of such steps the bound is reached or no
chunk could be asked for; and at each state of such a run a further input keeps it so
exactly if it is no such arrival, while a failed request changes nothing.  A file with
no more chunks than the bound, whose archives are identified and answer correctly, is
fetched without any other event.
-/
theorem private_fetch_keeps_slots_busy [Blake3] [AssignmentScore] [PeerOrder] (m : DataManifest)
    (hnodup : (m.chunks.map ChunkDescriptor.chunkIndex).Nodup)
    (nodes : Except Str (List NodeRecordInfo)) (replicationFactor : Except Str Nat)
    (assignmentHeight : Nat) (peerAddresses : Map PeerId Addr) (maxConcurrent : Nat)
    (swarmRuns : Bool) (g₀ : PrivateFetch)
    (hstart : PrivateFetch.start nodes replicationFactor assignmentHeight m peerAddresses
      maxConcurrent swarmRuns = .ok g₀) :
    (∀ inputs g, Run (PrivateFetch.SteadyStep m maxConcurrent) g₀ inputs g →
      g.loop.Conserving m maxConcurrent ∧ g.loop.state.inFlight ≤ max maxConcurrent 1 ∧
      (∀ input g', g.next m maxConcurrent input = .ok g' →
        (g'.loop.Conserving m maxConcurrent ↔
          (g.loop.Delivered m input → ¬ g.loop.SomeAskable m))) ∧
      ∀ p ∈ g.outstanding, ∀ input, p.FailedBy input →
        g.loop.onInput m maxConcurrent input = .ok (g.loop, [])) ∧
    (FetchedOnce m.chunks ∅ → g₀.Identified → m.chunks.length ≤ max maxConcurrent 1 →
      ∀ inputs g, Run (PrivateFetch.ServedStep m maxConcurrent) g₀ inputs g →
        inputs.length ≤ m.chunks.length ∧ (g.loop.finished = true ∨ g.outstanding ≠ []) ∧
        ∀ p ∈ g.outstanding, ∀ input, p.ServedBy m input →
          ∃ g', g.next m maxConcurrent input = .ok g') := by
  obtain ⟨hslots, htracked⟩ := PrivateFetch.start_ok hnodup hstart
  refine ⟨fun inputs g hrun => ?_, fun honce hid hfew inputs g hrun => ?_⟩
  · have hg := PrivateFetch.slots_run hnodup hslots hrun
    refine ⟨hg.conserving, hg.bounded, fun input g' hnext => ?_, fun p _ input hfailed => ?_⟩
    · obtain ⟨loop, pulls, hin, rfl⟩ := PrivateFetch.next_ok hnext
      exact (hg.step_iff hnodup hin).2
    · exact PrivateFetch.onInput_failed hfailed
  · have hall := PrivateFetch.allAsked_of_slots hslots htracked hid hfew
    obtain ⟨hlen, hg⟩ := hall.run honce hnodup hrun
    refine ⟨?_, ?_, ?_⟩
    · have hle : g₀.loop.state.pending m.chunks ≤ m.chunks.length := List.countP_le_length
      omega
    · by_cases hidle : g.outstanding = []
      · exact Or.inl (hg.finished hidle)
      · exact Or.inr hidle
    · intro p hp input hserved
      obtain ⟨s, data, -, -, hnext⟩ := PrivateFetch.served honce hg.tracked hp hserved
      exact ⟨_, hnext⟩

/-! #### One slot, two chunks

One archive, identified as peer 7, and one pull at a time. -/

section

variable [Blake3]

/-- The digest of 64 ones. -/
def onesHash : Hash := Blake3.hash (List.replicate 64 1)

/-- Two blocks: 64 zero bytes, and 64 ones. -/
def twoBlocks : DataManifest :=
  manifestOver (MerkleTree.build [blockHash, onesHash]).root [blockHash, onesHash]

/-- The fetch starts with one archive on the chain. -/
def startPrivate (m : DataManifest) : Except CiphertextFetchError PrivateFetch :=
  letI := AssignmentScore.flat
  letI := PeerOrder.keys
  PrivateFetch.start (.ok [⟨.archiveNode, .active, .ok 0⟩]) (.ok 1) 0 m
    ((∅ : Map PeerId Addr).insert 7 0) 1 true

/-- The first block is in flight, and `others` are what comes after it. -/
def privateAsked (others : ChunkStates Bytes) : PrivateFetch where
  loop := ⟨others.insert 0 ⟨[0], 1, some (7, 0), none⟩, (∅ : Map PeerId Addr).insert 7 0, false⟩
  outstanding := [⟨0, 7, cidFromBlake3Hash blockHash, 64⟩]

theorem startPrivate_one :
    startPrivate (equalBlocks 1)
      = .ok (privateAsked ((∅ : ChunkStates Bytes).insert 0 ⟨[0], 0, none, none⟩)) := rfl

/-- The second block was not asked for. -/
def secondUnasked : ChunkStates Bytes :=
  ((∅ : ChunkStates Bytes).insert 0 ⟨[0], 0, none, none⟩).insert 1 ⟨[0], 0, none, none⟩

theorem startPrivate_two : startPrivate twoBlocks = .ok (privateAsked secondUnasked) := rfl

theorem cidToIdx_twoBlocks (h : blockHash ≠ onesHash) :
    cidToIdx twoBlocks.chunks (cidFromBlake3Hash blockHash) = some 0 := by
  have hne : cidFromBlake3Hash onesHash ≠ cidFromBlake3Hash blockHash :=
    fun heq => h (cidFromBlake3Hash_inj heq).symm
  have hchunks : twoBlocks.chunks = [nodeDescriptor 0 blockHash, nodeDescriptor 1 onesHash] := rfl
  unfold cidToIdx
  rw [hchunks, List.filter_cons_of_pos (by simp [nodeDescriptor]),
    List.filter_cons_of_neg (by simpa [nodeDescriptor] using hne)]
  rfl

/-- After the answer both slots and pulls are empty. -/
theorem next_twoBlocks (h : blockHash ≠ onesHash) :
    letI := PeerOrder.keys
    (privateAsked secondUnasked).next twoBlocks 1 blockServed
      = .ok ⟨PrivateFetch.receive (privateAsked secondUnasked).loop 0 ⟨[0], 1, some (7, 0), none⟩
          (List.replicate 64 0), []⟩ := by
  let _ := PeerOrder.keys
  have hawait : (privateAsked secondUnasked).loop.state.awaiting twoBlocks.chunks
      (cidFromBlake3Hash blockHash) 7 = some (0, ⟨[0], 1, some (7, 0), none⟩) := by
    unfold ChunkStates.awaiting
    rw [cidToIdx_twoBlocks h]
    rfl
  have hserves : servesChunk (nodeDescriptor 0 blockHash)
      ⟨cidFromBlake3Hash blockHash, 0, 64, List.replicate 64 0, none⟩ = true := by
    simp [servesChunk, nodeDescriptor, blockHash]
  have hin : (privateAsked secondUnasked).loop.onInput twoBlocks 1 blockServed
      = .ok (PrivateFetch.receive (privateAsked secondUnasked).loop 0 ⟨[0], 1, some (7, 0), none⟩
          (List.replicate 64 0), []) :=
    PrivateFetch.onData_receive hawait rfl rfl hserves
  have hsettle : PublicFetch.settle (privateAsked secondUnasked).outstanding blockServed.answered
      = [] := by
    simp [PublicFetch.settle, blockServed, LoopInput.answered, privateAsked]
  unfold PrivateFetch.next
  rw [hin, hsettle]
  rfl

end

/-- One block alone keeps the one slot busy and is fetched. -/
theorem one_block_keeps_slot_busy :
    letI := Blake3.reference
    letI := PeerOrder.keys
    ∃ g₀, startPrivate (equalBlocks 1) = .ok g₀ ∧ g₀.outstanding ≠ [] ∧
      g₀.loop.Conserving (equalBlocks 1) 1 ∧
      ∀ inputs g, Run (PrivateFetch.ServedStep (equalBlocks 1) 1) g₀ inputs g →
        inputs.length ≤ 1 ∧ (g.loop.finished = true ∨ g.outstanding ≠ []) := by
  generalize Blake3.reference = b
  let _ := PeerOrder.keys
  let _ := AssignmentScore.flat
  obtain ⟨hbusy, hserved⟩ := private_fetch_keeps_slots_busy (equalBlocks 1)
    (equalBlocks_valid 1).nodup _ _ 0 ((∅ : Map PeerId Addr).insert 7 0) 1 true _ startPrivate_one
  have honce : FetchedOnce (equalBlocks 1).chunks ∅ := by
    intro c hc d hd _ _
    rw [List.mem_singleton.mp hc, List.mem_singleton.mp hd]
  have hid : (privateAsked ((∅ : ChunkStates Bytes).insert 0 ⟨[0], 0, none, none⟩)).Identified := by
    intro i s hs
    by_cases hi : i = 0
    · have hs : (privateAsked ((∅ : ChunkStates Bytes).insert 0 ⟨[0], 0, none, none⟩)).loop.state.lookup
        0 = some s := hi ▸ hs
      obtain rfl := Option.some.inj (hs.symm.trans (AList.lookup_insert _))
      refine ⟨List.cons_ne_nil _ _, fun a ha => ?_⟩
      rw [List.mem_singleton.mp ha]
      rfl
    · have hs : AList.lookup i (((∅ : ChunkStates Bytes).insert 0 ⟨[0], 0, none, none⟩).insert 0
        ⟨[0], 1, some (7, 0), none⟩) = some s := hs
      rw [AList.lookup_insert_ne hi, AList.lookup_insert_ne hi] at hs
      cases hs
  refine ⟨_, startPrivate_one, List.cons_ne_nil _ _, (hbusy [] _ (.nil _)).1, fun inputs g hrun => ?_⟩
  obtain ⟨hlen, hgo, -⟩ := hserved honce hid (Nat.le_refl 1) inputs g hrun
  exact ⟨hlen, hgo⟩

/--
Two blocks, one slot: once the first has arrived, the slot is empty, no pull is
outstanding, and the second could be asked for.  A failed request leaves its chunk in
flight.
-/
theorem second_block_not_asked :
    letI := Blake3.reference
    letI := PeerOrder.keys
    ∃ g₀ g p, startPrivate twoBlocks = .ok g₀ ∧ p ∈ g₀.outstanding ∧
      p.ServedBy twoBlocks blockServed ∧ g₀.next twoBlocks 1 blockServed = .ok g ∧
      ¬ g.loop.Conserving twoBlocks 1 ∧ g.loop.finished = false ∧ g.outstanding = [] ∧
      g₀.loop.onInput twoBlocks 1
        (.event (.shardRequestFailed p.peerId [] ⟨p.peerId, .v2Pull p.cid⟩) true .done)
        = .ok (g₀.loop, []) := by
  have hblocks : letI := Blake3.reference; blockHash ≠ onesHash := by decide +kernel
  revert hblocks
  generalize Blake3.reference = b
  intro hblocks
  let _ := PeerOrder.keys
  refine ⟨_, _, ⟨0, 7, cidFromBlake3Hash blockHash, 64⟩, startPrivate_two,
    List.mem_singleton.mpr rfl, ?_, next_twoBlocks hblocks, ?_, rfl, rfl, rfl⟩
  · refine ⟨nodeDescriptor 0 blockHash, _, _, rfl, ?_, rfl, rfl⟩
    simp [servesChunk, nodeDescriptor, blockHash]
  · rintro (hfull | hnone)
    · cases hfull
    · exact hnone (nodeDescriptor 1 onesHash) (List.mem_cons_of_mem _ (List.mem_cons_self ..)) ⟨_, rfl, rfl, rfl, rfl⟩

end Snip
