/-
Which pull an answer is for.

The loop keeps a mark for each chunk that is in flight, while an answer comes with a
peer and a content identifier, and the chunk is found by the identifier alone.  As
long as no two chunks that have to be fetched share an identifier, marks and
outstanding pulls are the same thing: an answer clears the mark of the chunk whose
pull it answers, and a loop without outstanding pulls has nothing left that it could
ask for.
-/
import Snip.Lib.Steps
import Snip.Proofs.ChunkStates
import Snip.Proofs.Manifest
import Snip.Proofs.Archive
import Snip.Node.DownloadV2

namespace Snip

/-! ### The loop and its pulls -/

/-- The loop, and the pulls it has sent that nothing has answered yet. -/
structure PublicFetch where
  loop : ChunkFetchLoop
  outstanding : List Pull

/-- The peer and the identifier with which an event answers a pull. -/
def LoopInput.answered : LoopInput → Option (PeerId × Str)
  | .event (.shardReceivedV2 peerId (.data body) _) _ _ => some (peerId, body.cid)
  | .event (.shardRequestFailed peerId _ origin) _ _ =>
      origin.requestedCid.map fun cid => (peerId, cid)
  | _ => none

/-- The event answers this pull. -/
def Pull.AnsweredBy (p : Pull) (input : LoopInput) : Prop := input.answered = some (p.peerId, p.cid)

namespace PublicFetch

/-- The answered pull is no longer outstanding. -/
def settle (outstanding : List Pull) : Option (PeerId × Str) → List Pull
  | none => outstanding
  | some (peerId, cid) => outstanding.eraseP fun p => p.peerId = peerId ∧ p.cid = cid

variable [Blake3] [PeerOrder]

/-- Before the first event. -/
def start (view : V2AssignmentView) (m : DataManifest) (peerAddresses : Map PeerId Addr)
    (files : ChunkStore) (maxConcurrent : Nat) (swarmRuns : Bool) :
    Except ChunkFetchError PublicFetch :=
  ((ChunkFetchLoop.initial view m peerAddresses files).dispatch m maxConcurrent swarmRuns).map
    fun (loop, pulls) => ⟨loop, pulls⟩

/-- One input, while the loop goes on. -/
def next (m : DataManifest) (maxConcurrent : Nat) (g : PublicFetch) (input : LoopInput) :
    Except ChunkFetchError PublicFetch :=
  (g.loop.onInput m maxConcurrent input).map fun (loop, pulls) =>
    ⟨loop, settle g.outstanding input.answered ++ pulls⟩

/-- The loop waits for an input and takes it. -/
def Step (m : DataManifest) (maxConcurrent : Nat) (g : PublicFetch) (input : LoopInput)
    (g' : PublicFetch) : Prop :=
  g.loop.finished = false ∧ g.next m maxConcurrent input = .ok g'

end PublicFetch

/-! ### What an input does -/

/-- A write touches no other file. -/
theorem put_lookup_ne [Blake3] (io : Io) (files : ChunkStore) {cid cid' : Str} (h : cid' ≠ cid)
    (data : Bytes) : (files.put io cid data).1.lookup cid' = files.lookup cid' := by
  obtain ⟨hsame | ⟨hinsert, -, -⟩, -⟩ := put_cases io files cid data
  · rw [hsame]
  · rw [hinsert, AList.lookup_insert_ne h]

namespace ChunkFetchLoop

section

variable [PeerOrder] {f f' : ChunkFetchLoop} {m : DataManifest} {maxConcurrent : Nat}
  {swarmRuns : Bool} {pulls : List Pull}

theorem dispatch_ok (h : f.dispatch m maxConcurrent swarmRuns = .ok (f', pulls)) :
    ∃ state, f' = { f with state } ∧
      f.state.tryDispatch m.chunks (addrToPeer f.peerAddresses) maxConcurrent f.skipUnresolved
        swarmRuns = .ok (state, pulls) := by
  unfold dispatch at h
  split at h
  · cases h
  · rename_i state pulls' hok
    cases h
    exact ⟨state, rfl, hok⟩

end

variable [Blake3] [PeerOrder]

/-- The chunk that was waited for is done, or it waits for nobody and has archives left. -/
structure Released (m : DataManifest) (f g : ChunkFetchLoop) (idx : Nat) (s : PublicChunkState) :
    Prop where
  peerAddresses : g.peerAddresses = f.peerAddresses
  skipUnresolved : g.skipUnresolved = f.skipUnresolved
  chunk :
    (g.state = f.state.insert idx { s with inFlightTo := none, received := some () } ∧
      ∀ cid, (∀ cd, chunkAt m.chunks idx = some cd → cid ≠ cd.cid) →
        g.files.lookup cid = f.files.lookup cid) ∨
    (g.state = f.state.insert idx { s with inFlightTo := none, received := s.received } ∧
      s.nextAttemptIdx < s.assigned.length ∧ g.files = f.files)

omit [Blake3] in
theorem advance_ok {f f' : ChunkFetchLoop} {m : DataManifest} {maxConcurrent : Nat}
    {swarmRuns : Bool} {idx : Nat} {s : PublicChunkState} {pulls : List Pull}
    (h : f.advance m maxConcurrent swarmRuns idx s = .ok (f', pulls)) :
    ∃ g, Released m f g idx s ∧ g.dispatch m maxConcurrent swarmRuns = .ok (f', pulls) := by
  unfold advance at h
  split at h
  · cases h
  · rename_i hleft
    exact ⟨f.clearMark idx s, ⟨rfl, rfl, Or.inr ⟨rfl, by omega, rfl⟩⟩, h⟩

/-- What an input can do if the loop goes on after it. -/
inductive Effect (f : ChunkFetchLoop) (m : DataManifest) (maxConcurrent : Nat)
    (answered : Option (PeerId × Str)) (f' : ChunkFetchLoop) (pulls : List Pull) : Prop
  /-- It changes nothing, and no chunk waits for it. -/
  | ignored (same : f' = f) (none_sent : pulls = [])
      (unawaited : ∀ peerId cid idx s, answered = some (peerId, cid) →
        f.state.awaiting m.chunks cid peerId = some (idx, s) →
        s.received.isSome = true ∨ chunkAt m.chunks idx = none)
  /-- It changes who is known or whom to skip. -/
  | refreshed (g : ChunkFetchLoop) (swarmRuns : Bool) (unanswered : answered = none)
      (state : g.state = f.state) (files : g.files = f.files)
      (sent : g.dispatch m maxConcurrent swarmRuns = .ok (f', pulls))
  /-- It is what a chunk waits for. -/
  | released (peerId : PeerId) (cid : Str) (idx : Nat) (s : PublicChunkState) (g : ChunkFetchLoop)
      (swarmRuns : Bool) (key : answered = some (peerId, cid))
      (awaited : f.state.awaiting m.chunks cid peerId = some (idx, s)) (release : Released m f g idx s)
      (sent : g.dispatch m maxConcurrent swarmRuns = .ok (f', pulls))

section

variable {f f' : ChunkFetchLoop} {m : DataManifest} {maxConcurrent : Nat} {swarmRuns : Bool}
  {pulls : List Pull}

omit [Blake3] in
/-- An event that no chunk waits for changes nothing. -/
theorem Effect.of_unawaited {peerId : PeerId} {cid : Str}
    (h : ∀ idx s, f.state.awaiting m.chunks cid peerId = some (idx, s) →
      s.received.isSome = true ∨ chunkAt m.chunks idx = none) :
    Effect f m maxConcurrent (some (peerId, cid)) f [] := by
  refine .ignored rfl rfl ?_
  intro p c idx s hkey hawait
  cases hkey
  exact h idx s hawait

theorem onData_effect {io : Io} {peerId : PeerId} {body : ShardResponse}
    (h : f.onData m maxConcurrent swarmRuns io peerId body = .ok (f', pulls)) :
    Effect f m maxConcurrent (some (peerId, body.cid)) f' pulls := by
  unfold onData at h
  split at h
  · rename_i hnone
    cases h
    apply Effect.of_unawaited
    intro idx s hawait
    rw [hnone] at hawait
    cases hawait
  rename_i idx s hawait
  split at h
  · rename_i hdone
    cases h
    apply Effect.of_unawaited
    intro idx' s' hawait'
    rw [hawait] at hawait'
    cases hawait'
    exact Or.inl hdone
  split at h
  · rename_i hchunk
    cases h
    apply Effect.of_unawaited
    intro idx' s' hawait'
    rw [hawait] at hawait'
    cases hawait'
    exact Or.inr hchunk
  rename_i cd hchunk
  split at h
  · split at h
    · cases h
    · rename_i files hput
      refine .released peerId body.cid idx s _ swarmRuns rfl hawait ?_ h
      refine ⟨rfl, rfl, Or.inl ⟨rfl, fun cid hne => ?_⟩⟩
      have hframe := put_lookup_ne io f.files (hne cd hchunk) body.data
      rwa [hput] at hframe
  · obtain ⟨g, hrel, hdis⟩ := advance_ok h
    exact .released peerId body.cid idx s g swarmRuns rfl hawait hrel hdis

omit [Blake3] in
theorem onRequestFailed_effect {peerId : PeerId} {origin : OutboundOrigin}
    (h : f.onRequestFailed m maxConcurrent swarmRuns peerId origin = .ok (f', pulls)) :
    Effect f m maxConcurrent (origin.requestedCid.map fun cid => (peerId, cid)) f' pulls := by
  unfold onRequestFailed at h
  split at h
  · rename_i hnone
    cases h
    rw [hnone]
    exact .ignored rfl rfl fun _ _ _ _ hkey => nomatch hkey
  rename_i cid hcid
  rw [hcid]
  split at h
  · rename_i hnone
    cases h
    apply Effect.of_unawaited
    intro idx s hawait
    rw [hnone] at hawait
    cases hawait
  · rename_i idx s hawait
    obtain ⟨g, hrel, hdis⟩ := advance_ok h
    exact .released peerId cid idx s g swarmRuns rfl hawait hrel hdis

end

/-- **Every input that the loop survives has one of the effects.** -/
theorem onInput_effect {f f' : ChunkFetchLoop} {m : DataManifest} {maxConcurrent : Nat}
    {input : LoopInput} {pulls : List Pull} (h : f.onInput m maxConcurrent input = .ok (f', pulls)) :
    Effect f m maxConcurrent input.answered f' pulls := by
  have hignored : f' = f ∧ pulls = [] → Effect f m maxConcurrent none f' pulls := fun h =>
    .ignored h.1 h.2 fun _ _ _ _ hkey => nomatch hkey
  have hnothing : ∀ {g : ChunkFetchLoop}, Except.ok (g, ([] : List Pull))
      = (.ok (f', pulls) : Outcome) → f' = g ∧ pulls = [] := by
    intro g h
    cases h
    exact ⟨rfl, rfl⟩
  cases input with
  | event e swarmRuns io =>
      cases e with
      | peerDiscovered peerId => exact hignored (hnothing h)
      | peerIdentified peerId l1Address =>
          exact .refreshed { f with peerAddresses := f.peerAddresses.insert peerId l1Address }
            swarmRuns rfl rfl rfl h
      | peerDisconnected peerId =>
          exact .refreshed { f with peerAddresses := f.peerAddresses.erase peerId } swarmRuns
            rfl rfl rfl h
      | shardReceived peerId response origin => exact hignored (hnothing h)
      | shardReceivedV2 peerId response origin =>
          cases response with
          | data body => exact onData_effect h
          | pushAck merkleRoot chunkIndex error => exact hignored (hnothing h)
          | manifestPushAck merkleRoot error => exact hignored (hnothing h)
          | manifestData merkleRoot manifestBytes error => exact hignored (hnothing h)
      | shardRequestFailed peerId error origin => exact onRequestFailed_effect h
      | other => exact hignored (hnothing h)
  | grace swarmRuns =>
      unfold onInput at h
      dsimp only at h
      split at h
      · exact hignored (hnothing h)
      · exact .refreshed { f with skipUnresolved := true } swarmRuns rfl rfl rfl h
  | deadline => cases h
  | closed => cases h

end ChunkFetchLoop

/-! ### The invariant -/

namespace PublicFetch

/-- The chunk is not done. -/
def Left (g : PublicFetch) (i : Nat) : Prop :=
  ∃ s, g.loop.state.lookup i = some s ∧ s.received = none

variable [PeerOrder]

/--
Marks and pulls agree, the bound is kept and used, and what is not done is not on
disk.  `files` is what was on disk at the start.
-/
structure Inv (m : DataManifest) (maxConcurrent : Nat) (files : ChunkStore) (g : PublicFetch) :
    Prop where
  tracked : Tracked m.chunks files g.loop.state g.outstanding
  bounded : g.loop.state.inFlight ≤ max maxConcurrent 1
  conserving : g.loop.state.Conserving m.chunks (addrToPeer g.loop.peerAddresses) maxConcurrent
    g.loop.skipUnresolved
  missing : ∀ c ∈ m.chunks, g.Left c.chunkIndex → g.loop.files.lookup c.cid = none

variable {m : DataManifest} {maxConcurrent : Nat} {files : ChunkStore}

/-- A dispatch restores the invariant. -/
theorem Inv.of_dispatch (hnodup : (m.chunks.map ChunkDescriptor.chunkIndex).Nodup)
    {f f' : ChunkFetchLoop} {outstanding pulls : List Pull} {swarmRuns : Bool}
    (htracked : Tracked m.chunks files f.state outstanding)
    (hbounded : f.state.inFlight ≤ max maxConcurrent 1)
    (hmissing : ∀ c ∈ m.chunks, Left ⟨f, outstanding⟩ c.chunkIndex → f.files.lookup c.cid = none)
    (h : f.dispatch m maxConcurrent swarmRuns = .ok (f', pulls)) :
    Inv m maxConcurrent files ⟨f', outstanding ++ pulls⟩ := by
  obtain ⟨state, rfl, hok⟩ := ChunkFetchLoop.dispatch_ok h
  obtain ⟨hb, hc⟩ := ChunkStates.tryDispatch_conserving hnodup hok hbounded
  have hwave := ChunkStates.tryDispatch_wave hnodup hok
  refine ⟨htracked.dispatch hwave, hb, hc, ?_⟩
  rintro c hc ⟨s, hs, hr⟩
  apply hmissing c hc
  by_cases hi : c.chunkIndex ∈ pulls.map Pull.chunkIndex
  · obtain ⟨p, hp, hidx⟩ := List.mem_map.mp hi
    obtain ⟨s₀, hs₀, hr₀, -⟩ := (hwave.asked p hp).was
    exact ⟨s₀, hidx ▸ hs₀, hr₀⟩
  · exact ⟨s, by rw [← hwave.other _ hi]; exact hs, hr⟩

theorem Inv.start [Blake3] (hnodup : (m.chunks.map ChunkDescriptor.chunkIndex).Nodup)
    {view : V2AssignmentView} {peerAddresses : Map PeerId Addr} {swarmRuns : Bool} {g : PublicFetch}
    (h : start view m peerAddresses files maxConcurrent swarmRuns = .ok g) :
    Inv m maxConcurrent files g := by
  unfold PublicFetch.start at h
  cases hdis : (ChunkFetchLoop.initial view m peerAddresses files).dispatch m maxConcurrent
      swarmRuns with
  | error e =>
      rw [hdis] at h
      cases h
  | ok out =>
      obtain ⟨loop, pulls⟩ := out
      rw [hdis] at h
      cases h
      have htracked : Tracked m.chunks files
          (ChunkFetchLoop.initial view m peerAddresses files).state [] := by
        refine Tracked.initial hnodup files _ (fun c _ => ⟨rfl, rfl⟩) ?_
        intro c _ hfile
        dsimp only
        rw [if_pos hfile]
        rfl
      have hnone := htracked.inFlight_of_idle
      refine Inv.of_dispatch hnodup htracked (by omega) ?_ hdis
      rintro c hc ⟨s, hs, hr⟩
      cases hfile : files.lookup c.cid with
      | none => exact hfile
      | some d =>
          have hdone := htracked.onDisk c hc (by rw [ChunkStore.has, hfile]; rfl) s hs
          rw [hr] at hdone
          cases hdone

end PublicFetch

namespace PublicFetch

variable [Blake3] [PeerOrder] {m : DataManifest} {maxConcurrent : Nat} {files : ChunkStore}

theorem next_ok {g g' : PublicFetch} {input : LoopInput}
    (h : g.next m maxConcurrent input = .ok g') :
    ∃ loop pulls, g.loop.onInput m maxConcurrent input = .ok (loop, pulls) ∧
      g' = ⟨loop, settle g.outstanding input.answered ++ pulls⟩ := by
  unfold next at h
  cases hin : g.loop.onInput m maxConcurrent input with
  | error e =>
      rw [hin] at h
      cases h
  | ok out =>
      rw [hin] at h
      cases h
      exact ⟨out.1, out.2, rfl, rfl⟩

section

variable (honce : FetchedOnce m.chunks files)
  (hnodup : (m.chunks.map ChunkDescriptor.chunkIndex).Nodup) {g : PublicFetch}

include honce hnodup

omit [Blake3] in
/-- An answer that is ignored answers no outstanding pull. -/
theorem Inv.settle_unawaited (h : Inv m maxConcurrent files g) {answered : Option (PeerId × Str)}
    (hnone : ∀ peerId cid idx s, answered = some (peerId, cid) →
      g.loop.state.awaiting m.chunks cid peerId = some (idx, s) →
      s.received.isSome = true ∨ chunkAt m.chunks idx = none) :
    settle g.outstanding answered = g.outstanding := by
  cases answered with
  | none => rfl
  | some key =>
      refine List.eraseP_of_forall_not fun p hp hanswers => ?_
      obtain ⟨hpeer, hcid⟩ : p.peerId = key.1 ∧ p.cid = key.2 := by simpa using hanswers
      obtain ⟨s, addr, hs, -, hr, hawait⟩ := h.tracked.awaiting_pull honce hp
      rw [hpeer, hcid] at hawait
      rcases hnone _ _ _ s rfl hawait with hdone | hchunk
      · rw [hr] at hdone
        cases hdone
      · obtain ⟨-, c, hc, hidx, -⟩ := h.tracked.pulls p hp
        rw [← hidx, ChunkStates.chunkAt_of_mem hnodup hc] at hchunk
        cases hchunk

omit [Blake3] in
/-- After a chunk was released, all but the dispatch is in order. -/
theorem Inv.of_released (h : Inv m maxConcurrent files g) {f f' : ChunkFetchLoop}
    {peerId : PeerId} {cid : Str} {idx : Nat} {s : PublicChunkState} {swarmRuns : Bool}
    {pulls : List Pull} (hawait : g.loop.state.awaiting m.chunks cid peerId = some (idx, s))
    (hrel : ChunkFetchLoop.Released m g.loop f idx s)
    (hsent : f.dispatch m maxConcurrent swarmRuns = .ok (f', pulls)) :
    Inv m maxConcurrent files ⟨f', settle g.outstanding (some (peerId, cid)) ++ pulls⟩ := by
  obtain ⟨hidx, hs, addr, hflight⟩ := ChunkStates.awaiting_some hawait
  have hr := (h.tracked.marks idx s peerId addr hs hflight).1
  have hcount : ∀ received, ChunkStates.inFlight
      (g.loop.state.insert idx { s with inFlightTo := none, received := received })
        ≤ max maxConcurrent 1 := by
    intro received
    have hinsert := ChunkStates.inFlight_insert hs
      { s with inFlightTo := none, received := received }
    have hbound := h.bounded
    simp only [Option.isSome_none, Bool.false_eq_true, if_false] at hinsert
    omega
  rcases hrel.chunk with ⟨hstate, hframe⟩ | ⟨hstate, hleft, hfiles⟩
  · refine Inv.of_dispatch hnodup ?_ (by rw [hstate]; exact hcount _) ?_ hsent
    · rw [hstate]
      exact h.tracked.release hnodup honce hidx hs hflight (Or.inl rfl)
    · rintro c hc ⟨s', hs', hr'⟩
      have hs' : AList.lookup c.chunkIndex f.state = some s' := hs'
      rw [hstate] at hs'
      have hne : c.chunkIndex ≠ idx := by
        intro heq
        rw [heq, AList.lookup_insert, Option.some.injEq] at hs'
        rw [← hs'] at hr'
        cases hr'
      rw [AList.lookup_insert_ne hne] at hs'
      rw [hframe]
      · exact h.missing c hc ⟨s', hs', hr'⟩
      · rintro cd hcd heq
        -- The chunk that was written was not on disk before, so no other has its name.
        obtain ⟨d, hd, -, hdidx⟩ := cidToIdx_some hidx
        rw [← hdidx, ChunkStates.chunkAt_of_mem hnodup hd, Option.some.injEq] at hcd
        subst hcd
        have hmiss : files.has d.cid = false := by
          apply Bool.eq_false_iff.mpr
          intro hfile
          have hdone := h.tracked.onDisk d hd hfile s (hdidx ▸ hs)
          rw [hr] at hdone
          cases hdone
        exact hne ((honce d hd c hc hmiss heq).trans hdidx)
  · refine Inv.of_dispatch hnodup ?_ (by rw [hstate]; exact hcount _) ?_ hsent
    · rw [hstate]
      exact h.tracked.release hnodup honce hidx hs hflight (Or.inr hleft)
    · rintro c hc ⟨s', hs', hr'⟩
      have hs' : AList.lookup c.chunkIndex f.state = some s' := hs'
      rw [hstate] at hs'
      rw [hfiles]
      by_cases hi : c.chunkIndex = idx
      · exact h.missing c hc ⟨s, hi ▸ hs, hr⟩
      · rw [AList.lookup_insert_ne hi] at hs'
        exact h.missing c hc ⟨s', hs', hr'⟩

/-- **Every input keeps the invariant.** -/
theorem Inv.step (h : Inv m maxConcurrent files g) {g' : PublicFetch} {input : LoopInput}
    (hstep : g.next m maxConcurrent input = .ok g') : Inv m maxConcurrent files g' := by
  obtain ⟨loop, pulls, hin, rfl⟩ := next_ok hstep
  cases ChunkFetchLoop.onInput_effect hin with
  | ignored same none_sent unawaited =>
      subst same none_sent
      rw [h.settle_unawaited honce hnodup unawaited, List.append_nil]
      exact h
  | refreshed f swarmRuns unanswered state hfiles sent =>
      rw [unanswered]
      refine Inv.of_dispatch hnodup ?_ ?_ ?_ sent
      · rw [state]
        exact h.tracked
      · rw [state]
        exact h.bounded
      · rintro c hc ⟨s, hs, hr⟩
        rw [hfiles]
        exact h.missing c hc ⟨s, by rw [← state]; exact hs, hr⟩
  | released peerId cid idx s f swarmRuns key awaited release sent =>
      rw [key]
      exact h.of_released honce hnodup awaited release sent

theorem Inv.run (h : Inv m maxConcurrent files g) {inputs : List LoopInput} {g' : PublicFetch}
    (hrun : Run (Step m maxConcurrent) g inputs g') : Inv m maxConcurrent files g' :=
  hrun.invariant (P := fun _ g => Inv m maxConcurrent files g)
    (fun _ _ _ _ hinv hstep => hinv.step honce hnodup hstep.2) [] h

/-! ### Answers -/

/-- The mark is gone: the chunk is done, waits for nobody, or was asked of another archive. -/
def Cleared (g g' : PublicFetch) (i : Nat) : Prop :=
  ∃ s s', g.loop.state.lookup i = some s ∧ g'.loop.state.lookup i = some s' ∧
    (s'.received.isSome = true ∨ s'.inFlightTo = none ∨ s'.nextAttemptIdx = s.nextAttemptIdx + 1)

theorem Inv.cleared (h : Inv m maxConcurrent files g) {p : Pull} (hp : p ∈ g.outstanding)
    {input : LoopInput} (hans : p.AnsweredBy input) {g' : PublicFetch}
    (hstep : g.next m maxConcurrent input = .ok g') : Cleared g g' p.chunkIndex := by
  obtain ⟨s, addr, hs, -, hr, hawait⟩ := h.tracked.awaiting_pull honce hp
  obtain ⟨loop, pulls, hin, rfl⟩ := next_ok hstep
  cases ChunkFetchLoop.onInput_effect hin with
  | ignored same none_sent unawaited =>
      rcases unawaited _ _ _ s hans hawait with hdone | hchunk
      · rw [hr] at hdone
        cases hdone
      · obtain ⟨-, c, hc, hidx, -⟩ := h.tracked.pulls p hp
        rw [← hidx, ChunkStates.chunkAt_of_mem hnodup hc] at hchunk
        cases hchunk
  | refreshed f swarmRuns unanswered state hfiles sent =>
      rw [Pull.AnsweredBy, unanswered] at hans
      cases hans
  | released peerId cid idx s₁ f swarmRuns key awaited release sent =>
      rw [Pull.AnsweredBy, key] at hans
      cases hans
      rw [hawait] at awaited
      cases awaited
      -- The released chunk waits for nobody, unless the dispatch asked for it again.
      obtain ⟨s₂, hs₂, hfree, hnext⟩ : ∃ s₂, f.state.lookup p.chunkIndex = some s₂ ∧
          s₂.inFlightTo = none ∧ s₂.nextAttemptIdx = s.nextAttemptIdx := by
        rcases release.chunk with ⟨hstate, -⟩ | ⟨hstate, -⟩
        · exact ⟨{ s with inFlightTo := none, received := some () },
            by rw [hstate, AList.lookup_insert], rfl, rfl⟩
        · exact ⟨{ s with inFlightTo := none, received := s.received },
            by rw [hstate, AList.lookup_insert], rfl, rfl⟩
      obtain ⟨state, rfl, hok⟩ := ChunkFetchLoop.dispatch_ok sent
      have hwave := ChunkStates.tryDispatch_wave hnodup hok
      by_cases hi : p.chunkIndex ∈ pulls.map Pull.chunkIndex
      · obtain ⟨q, hq, hidx⟩ := List.mem_map.mp hi
        obtain ⟨s₃, hs₃, -, -, s', addr', hs', -, -, hnext', -⟩ := (hwave.asked q hq).was
        rw [hidx] at hs₃ hs'
        cases hs₂.symm.trans hs₃
        exact ⟨s, s', hs, hs', Or.inr (Or.inr (by rw [hnext', hnext]))⟩
      · exact ⟨s, s₂, hs, (hwave.other _ hi).trans hs₂, Or.inr (Or.inl hfree)⟩

end

/-! ### Archives that all answer -/

/-- Every chunk has archives, and each of them has a peer. -/
def Identified (g : PublicFetch) : Prop :=
  ∀ i s, g.loop.state.lookup i = some s → s.assigned ≠ [] ∧
    ∀ a ∈ s.assigned, (addrToPeer g.loop.peerAddresses a).isSome = true

end PublicFetch

/-- A correct answer to the pull, while requests and writes go through. -/
def Pull.ServedBy [Blake3] (m : DataManifest) (p : Pull) (input : LoopInput) : Prop :=
  ∃ cd body origin, chunkAt m.chunks p.chunkIndex = some cd ∧ servesChunk cd body = true ∧
    body.cid = p.cid ∧ input = .event (.shardReceivedV2 p.peerId (.data body) origin) true .done

theorem servesChunk_hash [Blake3] {cd : ChunkDescriptor} {body : ShardResponse}
    (h : servesChunk cd body = true) : Blake3.hash body.data = cd.blake3Hash := by
  simp only [servesChunk, Bool.and_eq_true, decide_eq_true_eq] at h
  exact h.2

namespace PublicFetch

variable [Blake3] [PeerOrder] {m : DataManifest} {maxConcurrent : Nat} {files : ChunkStore}

/-- A correct answer is given to some outstanding pull. -/
def ServedStep (m : DataManifest) (maxConcurrent : Nat) (g : PublicFetch) (input : LoopInput)
    (g' : PublicFetch) : Prop :=
  (∃ p ∈ g.outstanding, p.ServedBy m input) ∧ Step m maxConcurrent g input g'

omit [Blake3] in
/-- A running swarm takes every request. -/
theorem dispatch_runs (f : ChunkFetchLoop) (m : DataManifest) (maxConcurrent : Nat) :
    ∃ out, f.dispatch m maxConcurrent true = .ok out := by
  unfold ChunkFetchLoop.dispatch ChunkStates.tryDispatch
  dsimp only
  split
  · rename_i herr
    split at herr
    · cases herr
    · cases herr
  · exact ⟨_, rfl⟩

/-- **A correct answer is stored,** and the chunk is done. -/
theorem Inv.served {root : Hash} (hm : ValidManifest root m) (honce : FetchedOnce m.chunks files)
    {g : PublicFetch} (h : Inv m maxConcurrent files g) {p : Pull} (hp : p ∈ g.outstanding)
    {input : LoopInput} (hserved : p.ServedBy m input) :
    ∃ (s : PublicChunkState) (f loop : ChunkFetchLoop) (pulls : List Pull),
      g.loop.state.lookup p.chunkIndex = some s ∧
      f.state = g.loop.state.insert p.chunkIndex { s with inFlightTo := none, received := some () } ∧
      f.peerAddresses = g.loop.peerAddresses ∧
      f.dispatch m maxConcurrent true = .ok (loop, pulls) ∧
      g.next m maxConcurrent input
        = .ok ⟨loop, settle g.outstanding (some (p.peerId, p.cid)) ++ pulls⟩ := by
  obtain ⟨cd, body, origin, hcd, hserves, hcid, rfl⟩ := hserved
  obtain ⟨s, addr, hs, -, hr, hawait⟩ := h.tracked.awaiting_pull honce hp
  have hmem : cd ∈ m.chunks := List.mem_of_find?_eq_some hcd
  have hidx : cd.chunkIndex = p.chunkIndex := by simpa using List.find?_some hcd
  have hhash : cidFromData body.data = cd.cid := by
    rw [hm.cid cd hmem, ← servesChunk_hash hserves]
    rfl
  have hput : g.loop.files.put .done cd.cid body.data
      = (g.loop.files.insert cd.cid body.data, .ok ()) := by
    unfold ChunkStore.put
    rw [if_neg (by rw [hhash]; exact fun hne => hne rfl),
      h.missing cd hmem ⟨s, by rw [hidx]; exact hs, hr⟩]
  obtain ⟨out, hout⟩ := dispatch_runs
    { g.loop with
      state := g.loop.state.insert p.chunkIndex { s with inFlightTo := none, received := some () }
      files := g.loop.files.insert cd.cid body.data
      chunksFetched := g.loop.chunksFetched + 1
      chunkPeerAttribution := g.loop.chunkPeerAttribution.insert p.peerId
        ((g.loop.chunkPeerAttribution.lookup p.peerId).getD 0 + 1)
      peersContacted := insert p.peerId g.loop.peersContacted } m maxConcurrent
  refine ⟨s, _, out.1, out.2, hs, ?_, ?_, hout, ?_⟩
  · rfl
  · rfl
  have hin : g.loop.onInput m maxConcurrent
      (.event (.shardReceivedV2 p.peerId (.data body) origin) true .done) = .ok out := by
    show g.loop.onData m maxConcurrent true .done p.peerId body = .ok out
    unfold ChunkFetchLoop.onData
    rw [hcid, hawait]
    dsimp only
    rw [if_neg (by rw [hr]; decide), hcd]
    dsimp only
    rw [if_pos hserves, hput]
    exact hout
  unfold next
  rw [hin, ← hcid]
  rfl

end PublicFetch

namespace PublicFetch

variable [Blake3] [PeerOrder] {m : DataManifest} {maxConcurrent : Nat} {files : ChunkStore}

section

variable {root : Hash} (hm : ValidManifest root m) (honce : FetchedOnce m.chunks files)
  (hnodup : (m.chunks.map ChunkDescriptor.chunkIndex).Nodup) {g g' : PublicFetch}
  {input : LoopInput}

include hm honce hnodup

/-- A correct answer lowers the number of chunks left, and the archives stay identified. -/
theorem ServedStep.progress (h : Inv m maxConcurrent files g) (hid : g.Identified)
    (hstep : ServedStep m maxConcurrent g input g') :
    g'.Identified ∧ g'.loop.state.pending m.chunks < g.loop.state.pending m.chunks := by
  obtain ⟨⟨p, hp, hserved⟩, -, hnext⟩ := hstep
  obtain ⟨s, f, loop, pulls, hs, hstate, hpeers, hsent, hnext'⟩ := h.served hm honce hp hserved
  rw [hnext] at hnext'
  cases hnext'
  obtain ⟨state, rfl, hok⟩ := ChunkFetchLoop.dispatch_ok hsent
  have hwave := ChunkStates.tryDispatch_wave hnodup hok
  obtain ⟨⟨s₀, addr, hs₀, hflight⟩, c, hc, hidx, -⟩ := h.tracked.pulls p hp
  have hr := (h.tracked.marks _ s₀ _ addr hs₀ hflight).1
  cases hs.symm.trans hs₀
  constructor
  · intro i t ht
    obtain ⟨t₁, ht₁, -, hperm⟩ := hwave.same ht
    have hold : ∃ t₀, g.loop.state.lookup i = some t₀ ∧ t₁.assigned = t₀.assigned := by
      rw [hstate] at ht₁
      by_cases hi : i = p.chunkIndex
      · rw [hi, AList.lookup_insert, Option.some.injEq] at ht₁
        exact ⟨s, hi ▸ hs, by rw [← ht₁]⟩
      · rw [AList.lookup_insert_ne hi] at ht₁
        exact ⟨t₁, ht₁, rfl⟩
    obtain ⟨t₀, ht₀, heq⟩ := hold
    obtain ⟨hne, hall⟩ := hid i t₀ ht₀
    rw [heq] at hperm
    refine ⟨fun hnil => hne ?_, fun a ha => ?_⟩
    · rw [hnil] at hperm
      exact List.nil_perm.mp hperm
    · show (addrToPeer f.peerAddresses a).isSome = true
      rw [hpeers]
      exact hall a (hperm.mem_iff.mp ha)
  · show ChunkStates.pending state m.chunks < _
    rw [hwave.pending_eq, hstate, ← hidx]
    exact ChunkStates.pending_insert_lt hc (hidx ▸ hs) hr rfl

omit [Blake3] hm honce hnodup in
/-- Identified archives leave nothing to wait for. -/
theorem Inv.finished_of_idle (h : Inv m maxConcurrent files g) (hid : g.Identified)
    (hidle : g.outstanding = []) : g.loop.finished = true := by
  have htracked := h.tracked
  rw [hidle] at htracked
  unfold ChunkFetchLoop.finished
  rw [List.all_eq_true]
  rintro ⟨i, s⟩ he
  exact htracked.received_of_idle h.conserving hid (AList.mem_lookup_iff.mpr he)

/-- A run of correct answers ends in a finished loop, or goes on. -/
theorem Inv.served_run (h : Inv m maxConcurrent files g) (hid : g.Identified)
    {inputs : List LoopInput} (hrun : Run (ServedStep m maxConcurrent) g inputs g') :
    inputs.length + g'.loop.state.pending m.chunks ≤ g.loop.state.pending m.chunks ∧
      Inv m maxConcurrent files g' ∧ g'.Identified := by
  have hstep : ∀ g input g', Inv m maxConcurrent files g ∧ g.Identified →
      ServedStep m maxConcurrent g input g' →
      (Inv m maxConcurrent files g' ∧ g'.Identified) ∧
        g'.loop.state.pending m.chunks + 1 ≤ g.loop.state.pending m.chunks + 0 := by
    rintro g input g' ⟨hinv, hid⟩ hstep
    obtain ⟨hid', hlt⟩ := hstep.progress hm honce hnodup hinv hid
    exact ⟨⟨hinv.step honce hnodup hstep.2.2, hid'⟩, hlt⟩
  refine ⟨?_, ?_⟩
  · have hlen : inputs.length + g'.loop.state.pending m.chunks
        ≤ g.loop.state.pending m.chunks + (inputs.map fun _ => 0).sum :=
      hrun.length_le hstep ⟨h, hid⟩
    simpa using hlen
  · exact hrun.invariant (P := fun _ g => Inv m maxConcurrent files g ∧ g.Identified)
      (fun _ g input g' hinv hs => (hstep g input g' hinv hs).1) [] ⟨h, hid⟩

end

end PublicFetch

/--
**An answer settles the pull it answers,** whatever else happens, if no two chunks
that have to be fetched share an identifier.  Three consequences: the chunk's mark is
cleared or the fetch ends; a loop without outstanding pulls has no chunk left that it
could ask for; and while the archives are all identified and answer correctly, there
is always a pull outstanding until all chunks are done, after as many answers as there
are chunks at most.
-/
theorem public_fetch_settles_pulls [Blake3] [PeerOrder] {root : Hash} (m : DataManifest)
    (hm : ValidManifest root m) (view : V2AssignmentView) (peerAddresses : Map PeerId Addr)
    (files : ChunkStore) (honce : FetchedOnce m.chunks files) (maxConcurrent : Nat)
    (swarmRuns : Bool) (g₀ : PublicFetch)
    (hstart : PublicFetch.start view m peerAddresses files maxConcurrent swarmRuns = .ok g₀) :
    (∀ inputs g, Run (PublicFetch.Step m maxConcurrent) g₀ inputs g →
      (∀ p ∈ g.outstanding, ∀ input, p.AnsweredBy input →
        ∀ g', g.next m maxConcurrent input = .ok g' → PublicFetch.Cleared g g' p.chunkIndex) ∧
      (g.outstanding = [] → ∀ c ∈ m.chunks, ∀ s, g.loop.state.lookup c.chunkIndex = some s →
        s.received = none → nextAssignedArchive s.assigned s.nextAttemptIdx
          (addrToPeer g.loop.peerAddresses) g.loop.skipUnresolved = none)) ∧
    (g₀.Identified → ∀ inputs g, Run (PublicFetch.ServedStep m maxConcurrent) g₀ inputs g →
      inputs.length ≤ m.chunks.length ∧
      (g.loop.finished = true ∨ g.outstanding ≠ []) ∧
      ∀ p ∈ g.outstanding, ∀ input, p.ServedBy m input →
        ∃ g', g.next m maxConcurrent input = .ok g') := by
  have hnodup := hm.nodup
  have hinv := PublicFetch.Inv.start hnodup hstart
  refine ⟨fun inputs g hrun => ?_, fun hid inputs g hrun => ?_⟩
  · have hg := hinv.run honce hnodup hrun
    exact ⟨fun p hp input hans g' hnext => hg.cleared honce hnodup hp hans hnext,
      fun hidle c hc s hs hr => (hidle ▸ hg.tracked).next_of_idle hg.conserving hc hs hr⟩
  · obtain ⟨hlen, hg, hid'⟩ := hinv.served_run hm honce hnodup hid hrun
    refine ⟨?_, ?_, ?_⟩
    · have hle : g₀.loop.state.pending m.chunks ≤ m.chunks.length := List.countP_le_length
      omega
    · by_cases hidle : g.outstanding = []
      · exact Or.inl (hg.finished_of_idle hid' hidle)
      · exact Or.inr hidle
    · intro p hp input hserved
      obtain ⟨-, -, loop, pulls, -, -, -, -, hnext⟩ := hg.served hm honce hp hserved
      exact ⟨_, hnext⟩

/-! #### Two equal chunks

One archive, identified as peer 7, holds a file of two equal blocks of 64 zero bytes
each, and one pull is allowed at a time.  The answer to the pull of the first chunk is
taken for the second, which waits for nothing. -/

section

variable [Blake3]

/-- Archive 0 is assigned to both chunks. -/
def soloView : V2AssignmentView :=
  ⟨[0], 1, {0}, ((∅ : Map Nat (List Addr)).insert 0 ([0] : List Addr)).insert 1 ([0] : List Addr)⟩

/-- The block, as the archive serves it. -/
def blockServed : LoopInput :=
  .event (.shardReceivedV2 7 (.data ⟨cidFromBlake3Hash blockHash, 0, 64, List.replicate 64 0, none⟩)
    ⟨7, .v2Pull (cidFromBlake3Hash blockHash)⟩) true .done

/-- The fetch of `n` blocks starts, with nothing on disk. -/
def startBlocks (n : Nat) : Except ChunkFetchError PublicFetch :=
  letI := PeerOrder.keys
  PublicFetch.start soloView (equalBlocks n) ((∅ : Map PeerId Addr).insert 7 0) ∅ 1 true

/-- The first block is in flight, and `others` are what comes after it. -/
def blockAsked (n : Nat) (others : ChunkStates Unit) : PublicFetch where
  loop := { ChunkFetchLoop.initial soloView (equalBlocks n) ((∅ : Map PeerId Addr).insert 7 0) ∅ with
    state := others.insert 0 ⟨[0], 1, some (7, 0), none⟩ }
  outstanding := [⟨0, 7, cidFromBlake3Hash blockHash, 64⟩]

/-- The second block was not asked for. -/
def secondFree : ChunkStates Unit :=
  ((∅ : ChunkStates Unit).insert 0 ⟨[0], 0, none, none⟩).insert 1 ⟨[0], 0, none, none⟩

theorem startBlocks_one :
    startBlocks 1 = .ok (blockAsked 1 ((∅ : ChunkStates Unit).insert 0 ⟨[0], 0, none, none⟩)) := rfl

theorem startBlocks_two : startBlocks 2 = .ok (blockAsked 2 secondFree) := rfl

theorem blockAsked_answered (n : Nat) (others : ChunkStates Unit) :
    ∀ p ∈ (blockAsked n others).outstanding, p.AnsweredBy blockServed := by
  intro p hp
  obtain rfl := List.mem_singleton.mp hp
  rfl

/-- The identifier leads to the second block. -/
theorem cidToIdx_equalBlocks : cidToIdx (equalBlocks 2).chunks (cidFromBlake3Hash blockHash) = some 1 := by
  simp [cidToIdx, equalBlocks, manifestOver, nodeDescriptor, List.replicate]

/-- The answer to the first block's pull changes nothing but the pulls. -/
theorem next_equalBlocks :
    letI := PeerOrder.keys
    (blockAsked 2 secondFree).next (equalBlocks 2) 1 blockServed
      = .ok ⟨(blockAsked 2 secondFree).loop, []⟩ := by
  let _ := PeerOrder.keys
  have hawait : (blockAsked 2 secondFree).loop.state.awaiting (equalBlocks 2).chunks
      (cidFromBlake3Hash blockHash) 7 = none := by
    unfold ChunkStates.awaiting
    rw [cidToIdx_equalBlocks]
    rfl
  have hin : (blockAsked 2 secondFree).loop.onInput (equalBlocks 2) 1 blockServed
      = .ok ((blockAsked 2 secondFree).loop, []) := by
    show ChunkFetchLoop.onData _ _ _ _ _ _ _ = _
    unfold ChunkFetchLoop.onData
    rw [hawait]
  have hsettle : PublicFetch.settle (blockAsked 2 secondFree).outstanding blockServed.answered = [] := by
    simp [PublicFetch.settle, blockServed, LoopInput.answered, blockAsked]
  unfold PublicFetch.next
  rw [hin, hsettle]
  rfl

end

/-- One block alone is fetched, and its answer settles its pull. -/
theorem one_block_settles :
    letI := Blake3.reference
    letI := PeerOrder.keys
    ∃ g₀, startBlocks 1 = .ok g₀ ∧ g₀.outstanding ≠ [] ∧
      ∀ p ∈ g₀.outstanding, p.AnsweredBy blockServed ∧
        ∀ g, g₀.next (equalBlocks 1) 1 blockServed = .ok g → PublicFetch.Cleared g₀ g p.chunkIndex := by
  generalize Blake3.reference = b
  let _ := PeerOrder.keys
  have honce : FetchedOnce (equalBlocks 1).chunks ∅ := by
    intro c hc d hd _ _
    rw [List.mem_singleton.mp hc, List.mem_singleton.mp hd]
  obtain ⟨hruns, -⟩ := public_fetch_settles_pulls (equalBlocks 1) (equalBlocks_valid 1) soloView
    ((∅ : Map PeerId Addr).insert 7 0) ∅ honce 1 true _ startBlocks_one
  obtain ⟨hcleared, -⟩ := hruns [] _ (.nil _)
  refine ⟨_, startBlocks_one, List.cons_ne_nil _ _, fun p hp => ?_⟩
  have hans := blockAsked_answered 1 ((∅ : ChunkStates Unit).insert 0 ⟨[0], 0, none, none⟩) p hp
  exact ⟨hans, hcleared p hp blockServed hans⟩

/--
The correct answer to the first block's pull leaves its mark, and the fetch waits
though the second block could be asked for.
-/
theorem equal_blocks_stall :
    letI := Blake3.reference
    letI := PeerOrder.keys
    ∃ g₀ g p, ValidManifest (equalBlocks 2).merkleRoot (equalBlocks 2) ∧
      startBlocks 2 = .ok g₀ ∧ p ∈ g₀.outstanding ∧ p.ServedBy (equalBlocks 2) blockServed ∧
      g₀.next (equalBlocks 2) 1 blockServed = .ok g ∧ ¬ PublicFetch.Cleared g₀ g p.chunkIndex ∧
      g.loop.finished = false ∧ g.outstanding = [] ∧
      g.loop.state.Askable (addrToPeer g.loop.peerAddresses) g.loop.skipUnresolved 1 := by
  generalize Blake3.reference = b
  let _ := PeerOrder.keys
  refine ⟨_, _, ⟨0, 7, cidFromBlake3Hash blockHash, 64⟩, equalBlocks_valid 2, startBlocks_two,
    List.mem_singleton.mpr rfl, ?_, next_equalBlocks, ?_, rfl, rfl, ⟨_, rfl, rfl, rfl, rfl⟩⟩
  · refine ⟨nodeDescriptor 0 blockHash, _, _, rfl, ?_, rfl, rfl⟩
    simp [servesChunk, nodeDescriptor, blockHash]
  · rintro ⟨s, s', hs, hs', hcleared⟩
    cases hs
    cases hs'
    simp at hcleared

end Snip
