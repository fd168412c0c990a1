/-
When the push wave of an ingest succeeds.

The only way to fail is to lose an acknowledgement between the swarm and the
pipeline, and the only place to lose one is the event channel: the pipeline does
not read it before the whole wave is sent, so it has to hold one event for each
push, on top of what already waits in it and of whatever else the swarm reports
meanwhile.  Where there is no room,
the interleaving in which all answers come before the first read loses the last
one, and nothing asks for it again.
-/
import Snip.Proofs.PushWave
import Snip.Proofs.Acceptance

namespace Snip

namespace PushJob

variable [AssignmentScore] {waiting : Chan SumNetEvent channelCapacity}

/-! ### Without room, an acknowledgement is lost -/

/-- Nothing is with the swarm or the archives. -/
structure Settled (s : S2State) : Prop where
  commands : s.commands.items = []
  atArchives : s.atArchives = []
  onWire : s.onWire = []

/-- The swarm reports other things first. -/
theorem run_flood (job : PushJob) (k : Nat) (s : S2State) :
    Run job.Step s (List.replicate k (.network .other))
      { s with events := (List.replicate k .other).foldl Chan.trySend s.events } := by
  induction k generalizing s with
  | zero => exact .nil s
  | succ k ih =>
      have hallowed : job.Allowed s (.network .other) := fun _ _ ⟨_, h⟩ => nomatch h
      exact .cons ⟨hallowed, rfl⟩ (ih _)

/-- Where the pipeline is after a push, as long as some chunk is not replicated. -/
def afterSend : List (Nat × PeerId) → S2Phase
  | [] => .waiting
  | t :: rest => .wave (t :: rest)

theorem sendRest_eq_afterSend {job : PushJob} {s : S2State} (rest : List (Nat × PeerId))
    (h : chunksReplicatedIn s.ackedPerChunk job.chunksToPush job.assignmentReplicationFactor
      ≠ true) : job.sendRest rest s = { s with phase := afterSend rest } := by
  cases rest with
  | nil => exact if_neg h
  | cons t rest => rfl

/-- The labels of one push whose answer comes back while the pipeline is still sending. -/
def pushLabels : List S2Label := [.send, .command, .answer 0 (.ack none), .response 0]

theorem run_push {job : PushJob} {s : S2State} {x : Nat × PeerId} {rest : List (Nat × PeerId)}
    (hphase : s.phase = .wave (x :: rest)) (hs : Settled s)
    (hmiss : chunksReplicatedIn s.ackedPerChunk job.chunksToPush job.assignmentReplicationFactor
      ≠ true) :
    Run job.Step s pushLabels
      { s with
        phase := afterSend rest
        attempts := s.attempts.insert x 1
        events := s.events.trySend (job.eventOf x (.ack none)) } := by
  obtain ⟨commands, hsend, hitems⟩ := Chan.send?_of_lt (c := s.commands) x
    (by rw [hs.commands]; decide)
  obtain ⟨emptied, hrecv, hempty⟩ := Chan.recv?_of_cons (c := commands)
    (hitems.trans (by rw [hs.commands]; rfl))
  obtain rfl : emptied = s.commands := Chan.ext_items (hempty.trans hs.commands.symm)
  let sent : S2State :=
    { s with phase := afterSend rest, commands, attempts := s.attempts.insert x 1 }
  let taken : S2State := { sent with commands := s.commands, atArchives := [x] }
  let answered : S2State := { taken with atArchives := [], onWire := [(x, .ack none)] }
  have hsent : job.Step s .send sent :=
    ⟨trivial, (step_send hphase hsend).trans (congrArg some (sendRest_eq_afterSend
      (s := { s with commands, attempts := s.attempts.insert x 1 }) rest hmiss))⟩
  have htaken : job.Step sent .command taken := by
    refine ⟨trivial, ?_⟩
    simp [step, sent, taken, hrecv, hs.atArchives]
  have hanswered : job.Step taken (.answer 0 (.ack none)) answered := by
    refine ⟨rfl, ?_⟩
    simp [step, sent, taken, answered, hs.onWire]
  refine .cons hsent (.cons htaken (.cons hanswered (.single ⟨trivial, ?_⟩)))
  simp [step, sent, taken, answered, eventOf, hs.onWire, hs.atArchives]

/-- The whole wave, with every answer back before the pipeline reads the first event. -/
theorem run_wave {job : PushJob} (rest : List (Nat × PeerId)) {s : S2State}
    (hphase : s.phase = afterSend rest) (hs : Settled s)
    (hmiss : chunksReplicatedIn s.ackedPerChunk job.chunksToPush job.assignmentReplicationFactor
      ≠ true) :
    ∃ (labels : List S2Label) (s' : S2State), Run job.Step s labels s' ∧
      labels.countP isNetwork = 0 ∧ s'.phase = .waiting ∧ Settled s' ∧
      s'.ackedPerChunk = s.ackedPerChunk ∧
      s'.events = (rest.map fun t => job.eventOf t (.ack none)).foldl
        Chan.trySend s.events := by
  induction rest generalizing s with
  | nil => exact ⟨[], s, .nil s, rfl, hphase, hs, rfl, rfl⟩
  | cons x rest ih =>
      have hpush := run_push hphase hs hmiss
      obtain ⟨labels, s', hrun, hcount, hwaiting, hs', hacks, hevents⟩ := ih (s := { s with
        phase := afterSend rest
        attempts := s.attempts.insert x 1
        events := s.events.trySend (job.eventOf x (.ack none)) })
        rfl ⟨hs.commands, hs.atArchives, hs.onWire⟩ hmiss
      refine ⟨_, s', hpush.append hrun, ?_, hwaiting, hs', hacks, hevents⟩
      rw [List.countP_append, hcount]
      rfl

/-- The pipeline reads all there is, and one push stays without acknowledgement. -/
theorem run_drain {job : PushJob} (hid : job.Identified) {lost : Nat × PeerId}
    (hlost : lost ∈ job.targets) (queued : List SumNetEvent) {s : S2State}
    (hitems : s.events.items = queued) (hphase : s.phase = .waiting) (hs : Settled s)
    (hmiss : job.Misses lost s.ackedPerChunk)
    (hevents : ∀ e ∈ queued, (∀ t error, ¬ job.IsAck e t error) ∨
      ∃ t ∈ job.targets, t ≠ lost ∧ e = job.eventOf t (.ack none)) :
    ∃ (labels : List S2Label) (s' : S2State), Run job.Step s labels s' ∧
      labels.countP isNetwork = 0 ∧ s'.phase = .waiting ∧ s'.Quiet ∧
      job.Misses lost s'.ackedPerChunk := by
  induction queued generalizing s with
  | nil =>
      exact ⟨[], s, .nil s, rfl, hphase, ⟨hs.commands, hs.atArchives, hs.onWire, hitems⟩, hmiss⟩
  | cons event queued ih =>
      obtain ⟨events, hrecv, hrest⟩ := Chan.recv?_of_cons hitems
      have hfree : job.ErrorFree event := by
        rcases hevents event (List.mem_cons_self ..) with hother | ⟨t, -, -, rfl⟩
        · exact fun t error hack => absurd hack (hother t error)
        · exact .of_ack t
      obtain ⟨acks, hnext, -, -, hback⟩ := onEvent_spec hfree { s with events }
      have hmiss' : job.Misses lost acks := by
        intro t ht
        rcases hback t ht with hold | hack
        · exact hmiss t hold
        · rcases hevents _ (List.mem_cons_self ..) with hother | ⟨u, hu, hne, rfl⟩
          · exact absurd hack (hother t none)
          · rw [(isAck_eventOf hack).1]
            exact ⟨hu, hne⟩
      have hhead : job.onEvent { s with events } event
          = { s with events, ackedPerChunk := acks, phase := .waiting } := by
        rw [hnext]
        exact if_neg (hid.not_replicated_of_misses hlost hmiss')
      have hstep : job.Step s .receive { s with events, ackedPerChunk := acks, phase := .waiting } :=
        ⟨trivial, (step_receive hphase hrecv).trans (congrArg some hhead)⟩
      obtain ⟨labels, s', hrun, hcount, hend⟩ := ih (s := { s with
        events, ackedPerChunk := acks, phase := .waiting }) hrest rfl
        ⟨hs.commands, hs.atArchives, hs.onWire⟩ hmiss'
        fun e he => hevents e (List.mem_cons_of_mem _ he)
      refine ⟨.receive :: labels, s', .cons hstep hrun, ?_, hend⟩
      rw [List.countP_cons, hcount]
      rfl

/-- After the return nobody has anything left to do, if nothing is on its way. -/
theorem stuck_of_returned {job : PushJob} {s : S2State} (hs : Settled s)
    {result : Except PushFailure (Finset Addr)} (hphase : s.phase = .returned result)
    (hclean : job.Clean s) : job.Stuck s := by
  intro l t hl hstep
  cases hstep.move hclean with
  | send h _ => cases hphase.symm.trans h
  | receive h _ _ => cases hphase.symm.trans h
  | deadline h _ => cases hphase.symm.trans h
  | command h =>
      rw [hs.commands] at h
      cases h
  | response h =>
      rw [hs.onWire] at h
      cases h
  | network _ => cases hl
  | answer h =>
      rw [hs.atArchives] at h
      cases h

/--
**A wave that does not fit loses an acknowledgement:** all answers are back before
the first event is read, and the channel has no room for the last one.
-/
theorem run_loses_ack {job : PushJob} (hid : job.Identified)
    (hunanswered : job.Unanswered waiting) {k : Nat} (hne : job.targets ≠ [])
    (hfull : channelCapacity < job.targets.length + (waiting.items.length + k)) :
    ∃ (labels : List S2Label) (s : S2State) (failure : PushFailure),
      Run job.Step (job.start waiting) labels s ∧ labels.countP isNetwork ≤ k ∧ job.Stuck s ∧
      s.phase = .returned (.error failure) := by
  let first := min k channelCapacity
  let lost := job.targets.getLast hne
  have hlost : lost ∈ job.targets := List.getLast_mem hne
  have hempty : job.Misses lost (job.idle waiting).ackedPerChunk := by
    rintro t ⟨peers, hlook, -⟩
    cases hlook
  have hmiss := hid.not_replicated_of_misses hlost hempty
  have hstart : job.start waiting
      = { job.idle waiting with phase := afterSend job.targets } :=
    sendRest_eq_afterSend job.targets hmiss
  -- First other events, then the wave with all its answers.
  have hflood := run_flood job first (job.start waiting)
  obtain ⟨waveLabels, s₁, hwave, hcount₁, hwaiting, hs₁, hacks₁, hevents₁⟩ :=
    run_wave job.targets (s := { job.start waiting with
      events := (List.replicate first SumNetEvent.other).foldl Chan.trySend
        (job.start waiting).events })
      (by rw [hstart]) (by rw [hstart]; exact ⟨rfl, rfl, rfl⟩) (by rw [hstart]; exact hmiss)
  have hacks : s₁.ackedPerChunk = (job.idle waiting).ackedPerChunk := by rw [hacks₁, hstart]
  have hstartEvents : (job.start waiting).events = waiting := by rw [hstart]; rfl
  have hitems : s₁.events.items = (waiting.items ++ (List.replicate first SumNetEvent.other ++
      job.targets.map fun t => job.eventOf t (.ack none))).take
        channelCapacity := by
    rw [hevents₁, ← List.foldl_append, Chan.foldl_trySend_items, hstartEvents]
  -- The last acknowledgement is beyond the capacity.
  have hqueued : ∀ e ∈ s₁.events.items, (∀ t error, ¬ job.IsAck e t error) ∨
      ∃ t ∈ job.targets, t ≠ lost ∧ e = job.eventOf t (.ack none) := by
    intro e he
    have hsplit : job.targets = job.targets.dropLast ++ [lost] :=
      (List.dropLast_append_getLast hne).symm
    have hlen : job.targets.dropLast.length = job.targets.length - 1 := List.length_dropLast
    rw [hitems, hsplit, List.map_append, ← List.append_assoc, ← List.append_assoc,
      List.take_append_of_le_length (by
        have hpos := List.length_pos_iff.mpr hne
        simp only [List.length_append, List.length_replicate, List.length_map, hlen, first]
        omega)] at he
    rcases List.mem_append.mp (List.mem_of_mem_take he) with h | h
    · refine Or.inl ?_
      rcases List.mem_append.mp h with hold | hother
      · exact hunanswered e hold
      · rw [List.eq_of_mem_replicate hother]
        exact fun _ _ ⟨_, h⟩ => nomatch h
    · obtain ⟨t, ht, rfl⟩ := List.mem_map.mp h
      refine Or.inr ⟨t, List.mem_of_mem_dropLast ht, ?_, rfl⟩
      rintro rfl
      have hnodup := job.targets_nodup
      rw [hsplit] at hnodup
      exact (List.nodup_append.mp hnodup).2.2 _ ht _ (List.mem_singleton_self _) rfl
  obtain ⟨drainLabels, s₂, hdrain, hcount₂, hwaiting₂, hquiet, hmiss₂⟩ :=
    run_drain hid hlost _ rfl hwaiting hs₁ (hacks ▸ hempty) hqueued
  have hnot := hid.not_replicated_of_misses hlost hmiss₂
  have hunder : underReplicated s₂.ackedPerChunk job.chunksToPush job.assignmentReplicationFactor
      ≠ [] := fun h => hnot (underReplicated_eq_nil_iff.mp h)
  have hdeadline : job.Step s₂ .deadline { s₂ with phase := .returned (job.audit s₂) } :=
    ⟨hquiet, step_deadline hwaiting₂⟩
  have hrun := ((hflood.append hwave).append hdrain).append (.single hdeadline)
  obtain ⟨failure, hfailure⟩ : ∃ failure, job.audit s₂ = .error failure := by
    unfold audit
    split
    · rename_i h
      exact absurd h hunder
    · exact ⟨_, rfl⟩
  refine ⟨_, _, failure, hrun, ?_, ?_, congrArg S2Phase.returned hfailure⟩
  · simp only [List.countP_append, hcount₁, hcount₂, List.countP_replicate]
    exact Nat.min_le_left _ _
  · exact stuck_of_returned ⟨hquiet.1, hquiet.2.1, hquiet.2.2.1⟩ rfl (run_clean hunanswered hrun)

/-! ### Exactly when -/

/--
Whatever the interleaving, if these events wait in the channel at the start and the
swarm reports at most `k` other events: the run ends, and when no task can move any
more `s2_push_chunks` has returned `Ok`.
-/
structure ReturnsOk (job : PushJob) (waiting : Chan SumNetEvent channelCapacity) (k : Nat) :
    Prop where
  ends : ∃ bound, ∀ labels s, Run job.Step (job.start waiting) labels s →
    labels.countP isNetwork ≤ k → labels.length ≤ bound
  ok : ∀ labels s, Run job.Step (job.start waiting) labels s → labels.countP isNetwork ≤ k →
    job.Stuck s → ∃ archives, s.phase = .returned (.ok archives)

/--
**The push wave succeeds in every interleaving exactly when its acknowledgements,
the events that wait in the channel when it begins and the other events fit into the
channel together,** or nothing is pushed.
-/
theorem s2PushChunks_ok_iff {job : PushJob} (hid : job.Identified)
    (hunanswered : job.Unanswered waiting) (k : Nat) :
    job.ReturnsOk waiting k ↔ job.chunksToPush = ∅ ∨
      job.chunksToPush.card * job.assignmentReplicationFactor + waiting.items.length + k
        ≤ channelCapacity := by
  have hlen := hid.targets_length
  constructor
  · intro h
    by_contra hnot
    rw [not_or, not_le, ← hlen, Nat.add_assoc] at hnot
    obtain ⟨hpush, hfull⟩ := hnot
    have hne : job.targets ≠ [] := by
      intro hnil
      rw [hnil, List.length_nil] at hlen
      rcases Nat.mul_eq_zero.mp hlen.symm with hcard | hr
      · exact hpush (Finset.card_eq_zero.mp hcard)
      · exact absurd hr hid.replicated.ne'
    obtain ⟨labels, s, failure, hrun, hcount, hstuck, hphase⟩ := run_loses_ack hid hunanswered hne hfull
    obtain ⟨archives, hok⟩ := h.ok labels s hrun hcount hstuck
    cases hphase.symm.trans hok
  · intro h
    refine ⟨⟨measure (job.start waiting) + 2 * k, fun labels s hrun hcount => ?_⟩,
      fun labels s hrun hcount hstuck => ?_⟩
    · have hle := run_length_le hunanswered hrun
      omega
    · rcases h with hnone | hroom
      · have hnil : job.targets = [] := by
          rw [← List.length_eq_zero_iff, hlen, hnone]
          simp
        have hstart : (job.start waiting).phase = .returned (.ok job.distinctAssigned) := by
          have hall : chunksReplicatedIn (job.idle waiting).ackedPerChunk job.chunksToPush
              job.assignmentReplicationFactor = true :=
            chunksReplicatedIn_iff.mpr (by rw [hnone]; simp)
          unfold start
          rw [hnil]
          exact congrArg S2State.phase (if_pos hall)
        exact ⟨_, run_returned hunanswered hrun hstart⟩
      · obtain ⟨result, hphase⟩ := returned_of_stuck (run_clean hunanswered hrun) hstuck
        obtain ⟨archives, rfl⟩ :=
          (run_covered hid hunanswered (by omega) hrun hcount).result result hphase
        exact ⟨archives, hphase⟩

end PushJob

/-! #### Three archives

Three archives, three copies of each chunk: 85 chunks are 255 pushes and fit beside one
event that waits, 86 are 258 and do not. -/

/-- The push of a file with `n` chunks to three identified archives. -/
def threeArchives (n : Nat) : PushJob where
  merkleRoot := Hash.zero
  chunkCount := n
  snapshot := [0, 1, 2]
  chunksToPush := Finset.range n
  assignmentReplicationFactor := 3
  pushRetries := 2
  peers := ⟨[⟨10, 0⟩, ⟨11, 1⟩, ⟨12, 2⟩].toAList⟩
  discoveryFailure := none

theorem threeArchives_identified [AssignmentScore] (n : Nat) : (threeArchives n).Identified := by
  have hcard : 3 ≤ ([0, 1, 2] : List Addr).toFinset.card := by decide +kernel
  have hpeers : ∀ a ∈ ([0, 1, 2] : List Addr),
      ((threeArchives 0).peers.resolve a).isSome = true := by
    intro a ha
    simp only [List.mem_cons, List.not_mem_nil, or_false] at ha
    rcases ha with rfl | rfl | rfl
    · decide +kernel
    · decide +kernel
    · decide +kernel
  exact ⟨Nat.succ_pos 2, hcard, fun i hi => Finset.mem_range.mp hi,
    fun i _ a ha => hpeers a (mem_snapshot_of_assigned ha)⟩

/-- One event that came while the archives were being identified. -/
def oneWaiting : Chan SumNetEvent channelCapacity := ⟨[.peerIdentified 13 3], by decide⟩

theorem eighty_five_chunks_fit :
    letI := AssignmentScore.flat
    (threeArchives 85).ReturnsOk oneWaiting 0 := by
  let _ := AssignmentScore.flat
  refine (PushJob.s2PushChunks_ok_iff (threeArchives_identified 85) ?_ 0).mpr
    (Or.inr (by decide))
  rintro event hevent t error ⟨origin, rfl⟩
  cases List.mem_singleton.mp hevent

theorem eighty_six_chunks_lose_an_ack :
    letI := AssignmentScore.flat
    (threeArchives 86).Identified ∧ ¬ (threeArchives 86).ReturnsOk .empty 0 := by
  let _ := AssignmentScore.flat
  have hid := threeArchives_identified 86
  have hlen : (threeArchives 86).targets.length = 258 := by
    rw [hid.targets_length]
    rfl
  refine ⟨hid, fun h => ?_⟩
  have hne : (threeArchives 86).targets ≠ [] := by
    intro hnil
    rw [hnil] at hlen
    cases hlen
  have hquiet : (threeArchives 86).Unanswered .empty := by
    intro event hevent
    cases hevent
  obtain ⟨labels, s, failure, hrun, hcount, hstuck, hphase⟩ :=
    PushJob.run_loses_ack hid hquiet (k := 0) hne (by rw [hlen]; decide)
  obtain ⟨archives, hok⟩ := h.ok labels s hrun hcount hstuck
  cases hphase.symm.trans hok

end Snip
