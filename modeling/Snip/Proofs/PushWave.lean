/-
What the moves of the push wave do.

Every archive answers every push it gets, once and without error, and the timer
runs out only after every answer had the time to come through.  Then each move is
one of seven (`Move`), every run ends, and as long as the event channel has room
for all that may still come each push stays accounted for: it waits to be sent, is
in a queue or on its way, or is acknowledged (`Covered`).
-/
import Snip.Lib.Lists
import Snip.Proofs.PushTargets

namespace Snip

/-! ### The moves -/

/-- Nothing is on its way between the pipeline and the archives. -/
def S2State.Quiet (s : S2State) : Prop :=
  s.commands.items = [] ∧ s.atArchives = [] ∧ s.onWire = [] ∧ s.events.items = []

/-- The pushes of the wave that are not sent yet. -/
def S2Phase.rest : S2Phase → List (Nat × PeerId)
  | .wave rest => rest
  | _ => []

/-- The pipeline sends no push again, and is in the wave only while it has one to send. -/
def S2Phase.Plain (phase : S2Phase) : Prop :=
  (∀ key, phase ≠ .retrying key) ∧ phase ≠ .wave []

namespace PushJob

variable [AssignmentScore] {waiting : Chan SumNetEvent channelCapacity}

/-- An acknowledgement of a chunk of the file. -/
def IsAck (job : PushJob) (event : SumNetEvent) (t : Nat × PeerId) (error : Option Str) : Prop :=
  ∃ origin, event = .shardReceivedV2 t.2 (.pushAck job.merkleRoot t.1 error) origin

/--
No push is answered before the first one is sent: what waits in the channel came
before, and acknowledges nothing of the file.
-/
def Unanswered (job : PushJob) (waiting : Chan SumNetEvent channelCapacity) : Prop :=
  ∀ event ∈ waiting.items, ∀ t error, ¬ job.IsAck event t error

/-- No acknowledgement of the file, or one without error. -/
def ErrorFree (job : PushJob) (event : SumNetEvent) : Prop :=
  ∀ t error, job.IsAck event t error → error = none

/-- What is assumed of the moves that are not the node's own. -/
def Allowed (job : PushJob) (s : S2State) : S2Label → Prop
  | .answer _ answer => answer = .ack none
  | .deadline => s.Quiet
  | .network event => ∀ t error, ¬ job.IsAck event t error
  | _ => True

def Step (job : PushJob) (s : S2State) (l : S2Label) (t : S2State) : Prop :=
  job.Allowed s l ∧ job.step s l = some t

/-- No error is on its way, so nothing is ever sent twice. -/
structure Clean (job : PushJob) (s : S2State) : Prop where
  wire : ∀ e ∈ s.onWire, e.2 = .ack none
  events : ∀ e ∈ s.events.items, job.ErrorFree e
  phase : s.phase.Plain

/-- All a move can do, from a state where no error is on its way. -/
inductive Move (job : PushJob) (s : S2State) : S2Label → S2State → Prop
  | send {x : Nat × PeerId} {rest : List (Nat × PeerId)} {commands : Chan _ channelCapacity} :
      s.phase = .wave (x :: rest) → commands.items = s.commands.items ++ [x] →
      Move job s .send
        (job.sendRest rest { s with commands, attempts := s.attempts.insert x 1 })
  | receive {event : SumNetEvent} {events : Chan _ channelCapacity} :
      s.phase = .waiting → s.events.items = event :: events.items → job.ErrorFree event →
      Move job s .receive (job.onEvent { s with events } event)
  | deadline : s.phase = .waiting → s.Quiet →
      Move job s .deadline { s with phase := .returned (job.audit s) }
  | command {x : Nat × PeerId} {commands : Chan _ channelCapacity} :
      s.commands.items = x :: commands.items →
      Move job s .command { s with commands, atArchives := s.atArchives ++ [x] }
  | response {i : Nat} {x : Nat × PeerId} : s.onWire[i]? = some (x, .ack none) →
      Move job s (.response i)
        { s with
          onWire := s.onWire.eraseIdx i
          events := s.events.trySend (job.eventOf x (.ack none)) }
  | network {event : SumNetEvent} : (∀ t error, ¬ job.IsAck event t error) →
      Move job s (.network event) { s with events := s.events.trySend event }
  | answer {i : Nat} {x : Nat × PeerId} : s.atArchives[i]? = some x →
      Move job s (.answer i (.ack none))
        { s with
          atArchives := s.atArchives.eraseIdx i
          onWire := s.onWire ++ [(x, .ack none)] }

theorem Step.move {job : PushJob} {s t : S2State} {l : S2Label} (h : job.Step s l t)
    (hclean : job.Clean s) : job.Move s l t := by
  obtain ⟨hallowed, hstep⟩ := h
  cases l with
  | send =>
      unfold step at hstep
      dsimp only at hstep
      split at hstep
      · rename_i x rest hphase
        obtain ⟨commands, hsend, rfl⟩ := Option.map_eq_some_iff.mp hstep
        exact .send hphase (Chan.send?_eq_some hsend).2
      · rename_i key hphase
        exact absurd hphase (hclean.phase.1 key)
      · cases hstep
  | receive =>
      unfold step at hstep
      dsimp only at hstep
      split at hstep
      · rename_i hphase
        obtain ⟨⟨event, events⟩, hrecv, rfl⟩ := Option.map_eq_some_iff.mp hstep
        have hitems := Chan.recv?_eq_some hrecv
        exact .receive hphase hitems (hclean.events event (by rw [hitems]; exact List.mem_cons_self ..))
      · cases hstep
  | deadline =>
      unfold step at hstep
      dsimp only at hstep
      split at hstep
      · rename_i hphase
        cases hstep
        exact .deadline hphase hallowed
      · cases hstep
  | command =>
      obtain ⟨⟨x, commands⟩, hrecv, rfl⟩ := Option.map_eq_some_iff.mp hstep
      exact .command (Chan.recv?_eq_some hrecv)
  | response i =>
      obtain ⟨⟨x, answer⟩, hget, rfl⟩ := Option.map_eq_some_iff.mp hstep
      obtain rfl : answer = .ack none := hclean.wire _ (List.mem_of_getElem? hget)
      exact .response hget
  | network event =>
      cases hstep
      exact .network hallowed
  | answer i answer =>
      obtain rfl : answer = .ack none := hallowed
      obtain ⟨x, hget, rfl⟩ := Option.map_eq_some_iff.mp hstep
      exact .answer hget

theorem step_send {job : PushJob} {s : S2State} {x : Nat × PeerId} {rest : List (Nat × PeerId)}
    {commands : Chan _ channelCapacity} (hphase : s.phase = .wave (x :: rest))
    (hsend : s.commands.send? x = some commands) : job.step s .send
      = some (job.sendRest rest { s with commands, attempts := s.attempts.insert x 1 }) := by
  unfold step
  dsimp only
  split
  · rename_i y rest' h
    obtain ⟨rfl, rfl⟩ : y = x ∧ rest' = rest := by simpa using h.symm.trans hphase
    rw [hsend]
    rfl
  · rename_i key h
    cases h.symm.trans hphase
  · rename_i hwave _
    exact absurd hphase (hwave x rest)

theorem step_receive {job : PushJob} {s : S2State} {event : SumNetEvent}
    {events : Chan _ channelCapacity} (hphase : s.phase = .waiting)
    (hrecv : s.events.recv? = some (event, events)) :
    job.step s .receive = some (job.onEvent { s with events } event) := by
  unfold step
  dsimp only
  split
  · rw [hrecv]
    rfl
  · rename_i h
    exact absurd hphase h

theorem step_deadline {job : PushJob} {s : S2State} (hphase : s.phase = .waiting) :
    job.step s .deadline = some { s with phase := .returned (job.audit s) } := by
  unfold step
  dsimp only
  split
  · rfl
  · rename_i h
    exact absurd hphase h

/-! ### The loop -/

theorem loopHead_eq (job : PushJob) (s : S2State) :
    job.loopHead s = { s with phase := .waiting } ∨
    chunksReplicatedIn s.ackedPerChunk job.chunksToPush job.assignmentReplicationFactor = true ∧
      job.loopHead s = { s with phase := .returned (.ok job.distinctAssigned) } := by
  unfold loopHead
  split
  · rename_i h
    exact Or.inr ⟨h, rfl⟩
  · exact Or.inl rfl

/-- After a send the wave goes on, or it was the last one. -/
theorem sendRest_eq (job : PushJob) (rest : List (Nat × PeerId)) (s : S2State) :
    rest ≠ [] ∧ job.sendRest rest s = { s with phase := .wave rest } ∨
    rest = [] ∧ job.sendRest rest s = job.loopHead s := by
  cases rest with
  | nil => exact Or.inr ⟨rfl, rfl⟩
  | cons t rest => exact Or.inl ⟨List.cons_ne_nil _ _, rfl⟩

/-- All an event can do: nothing, an acknowledgement more, or a push to send again. -/
inductive Heard (job : PushJob) (s : S2State) (event : SumNetEvent) : S2State → Prop
  | nothing :
      (∀ t error, job.IsAck event t error → s.attempts.lookup t = none ∨
        error ≠ none ∧ ∃ n, s.attempts.lookup t = some n ∧ job.pushRetries < n) →
      Heard job s event (job.loopHead s)
  | acked {t : Nat × PeerId} : job.IsAck event t none → (s.attempts.lookup t).isSome = true →
      Heard job s event (job.loopHead { s with
        ackedPerChunk := s.ackedPerChunk.insert t.1
          (insert t.2 ((s.ackedPerChunk.lookup t.1).getD ∅)) })
  | refused {t : Nat × PeerId} {error : Str} {n : Nat} : job.IsAck event t (some error) →
      s.attempts.lookup t = some n → n ≤ job.pushRetries →
      Heard job s event { s with
        attempts := s.attempts.insert t (n + 1)
        phase := .retrying t }

omit [AssignmentScore] in
theorem IsAck.unique {job : PushJob} {event : SumNetEvent} {t u : Nat × PeerId}
    {error error' : Option Str} (h : job.IsAck event t error) (h' : job.IsAck event u error') :
    u = t ∧ error' = error := by
  obtain ⟨origin, rfl⟩ := h
  obtain ⟨origin', heq⟩ := h'
  injection heq with hp hbody
  injection hbody with _ hi herror
  exact ⟨Prod.ext hi.symm hp.symm, herror.symm⟩

theorem heard_onEvent (job : PushJob) (s : S2State) (event : SumNetEvent) :
    job.Heard s event (job.onEvent s event) := by
  by_cases hack : ∃ t error, job.IsAck event t error
  · obtain ⟨⟨i, peer⟩, error, hack⟩ := hack
    obtain ⟨origin, rfl⟩ := id hack
    unfold onEvent
    dsimp only
    rw [if_neg (not_not.mpr rfl)]
    split
    · rename_i hnone
      refine .nothing fun u error' hu => Or.inl ?_
      rw [(hack.unique hu).1]
      exact hnone
    · rename_i n hsome
      cases error with
      | none =>
          dsimp only
          exact .acked hack (by rw [hsome]; rfl)
      | some e =>
          dsimp only
          split
          · rename_i hle
            exact .refused hack hsome hle
          · rename_i hlt
            refine .nothing fun u error' hu => Or.inr ?_
            obtain ⟨rfl, rfl⟩ := hack.unique hu
            exact ⟨nofun, n, hsome, Nat.lt_of_not_le hlt⟩
  · have hnot : ∀ t error, ¬ job.IsAck event t error := fun t error h => hack ⟨t, error, h⟩
    have hhead : job.onEvent s event = job.loopHead s := by
      unfold onEvent
      split
      · rename_i peer root i error origin
        exact if_pos fun hroot => hnot (i, peer) error ⟨origin, by rw [hroot]⟩
      · rfl
    rw [hhead]
    exact .nothing fun t error h => absurd h (hnot t error)

/-- An event without error only adds the acknowledgement it is. -/
theorem onEvent_spec {job : PushJob} {event : SumNetEvent} (hevent : job.ErrorFree event)
    (s : S2State) : ∃ acks, job.onEvent s event = job.loopHead { s with ackedPerChunk := acks } ∧
      (∀ t, Acked s.ackedPerChunk t → Acked acks t) ∧
      (∀ t, job.IsAck event t none → (s.attempts.lookup t).isSome = true → Acked acks t) ∧
      ∀ t, Acked acks t → Acked s.ackedPerChunk t ∨ job.IsAck event t none := by
  have hheard := job.heard_onEvent s event
  generalize job.onEvent s event = s' at hheard ⊢
  cases hheard with
  | nothing hnothing =>
      refine ⟨_, rfl, fun _ h => h, fun t hack hknown => ?_, fun _ h => Or.inl h⟩
      rcases hnothing t none hack with hnone | ⟨hne, -⟩
      · rw [hnone] at hknown
        cases hknown
      · exact absurd rfl hne
  | @acked t hack hsome =>
      refine ⟨_, rfl, fun u hold => hold.add t.1 t.2, fun u hu _ => ?_, fun u hu => ?_⟩
      · obtain ⟨rfl, -⟩ := hack.unique hu
        exact ⟨_, AList.lookup_insert _, Finset.mem_insert_self _ _⟩
      · rcases Acked.of_add hu with hold | hnew
        · exact Or.inl hold
        · rw [hnew]
          exact Or.inr hack
  | @refused t error n hack hlook hle => exact absurd (hevent t _ hack) nofun

/-! ### Every run ends -/

/-- The moves a phase has ahead of it, the later ones of its pushes included. -/
def phaseWeight : S2Phase → Nat
  | .wave rest => 5 * rest.length + 1
  | .waiting => 1
  | .retrying _ => 6
  | .returned _ => 0

/-- Each item on its way has so many stations left. -/
def measure (s : S2State) : Nat :=
  phaseWeight s.phase + 4 * s.commands.items.length + 3 * s.atArchives.length
    + 2 * s.onWire.length + s.events.items.length

/-- What the swarm reports on its own account is one event more to read. -/
def labelWeight : S2Label → Nat
  | .network _ => 2
  | _ => 0

omit [AssignmentScore] in
theorem isAck_eventOf {job : PushJob} {t u : Nat × PeerId} {error : Option Str}
    (h : job.IsAck (job.eventOf t (.ack none)) u error) : u = t ∧ error = none := by
  obtain ⟨origin, h⟩ := h
  injection h with hp hbody
  injection hbody with _ hi herror
  exact ⟨Prod.ext hi.symm hp.symm, herror.symm⟩

omit [AssignmentScore] in
theorem ErrorFree.of_ack {job : PushJob} (t : Nat × PeerId) :
    job.ErrorFree (job.eventOf t (.ack none)) := fun _ _ h => (isAck_eventOf h).2

theorem loopHead_clean {job : PushJob} {s : S2State}
    (hwire : ∀ e ∈ s.onWire, e.2 = .ack none) (hevents : ∀ e ∈ s.events.items, job.ErrorFree e) :
    job.Clean (job.loopHead s) := by
  rcases job.loopHead_eq s with h | ⟨-, h⟩
  · rw [h]
    exact ⟨hwire, hevents, nofun, nofun⟩
  · rw [h]
    exact ⟨hwire, hevents, nofun, nofun⟩

theorem loopHead_measure (job : PushJob) (s : S2State) :
    measure (job.loopHead s) ≤ 1 + 4 * s.commands.items.length + 3 * s.atArchives.length
      + 2 * s.onWire.length + s.events.items.length := by
  rcases job.loopHead_eq s with h | ⟨-, h⟩
  · rw [h]
    exact le_rfl
  · rw [h]
    simp only [measure, phaseWeight]
    omega

omit [AssignmentScore] in
theorem mem_trySend {c : Chan SumNetEvent channelCapacity} {e event : SumNetEvent}
    (h : e ∈ (c.trySend event).items) : e ∈ c.items ∨ e = event := by
  rcases c.trySend_cases event with hitems | hsame
  · rw [hitems] at h
    simpa using h
  · rw [hsame] at h
    exact Or.inl h

/-- A move keeps errors out and brings the end nearer. -/
theorem Move.clean_measure {job : PushJob} {s t : S2State} {l : S2Label} (h : job.Move s l t)
    (hclean : job.Clean s) : job.Clean t ∧ measure t + 1 ≤ measure s + labelWeight l := by
  cases h with
  | @send x rest commands hphase hcommands =>
      have hlen : commands.items.length = s.commands.items.length + 1 := by
        rw [hcommands, List.length_append, List.length_singleton]
      rcases job.sendRest_eq rest { s with commands, attempts := s.attempts.insert x 1 } with
        ⟨hne, hrest⟩ | ⟨rfl, hrest⟩
      · rw [hrest]
        refine ⟨⟨hclean.wire, hclean.events, nofun, fun hwave => hne ?_⟩, ?_⟩
        · injection hwave
        simp only [measure, phaseWeight, hphase, hlen, List.length_cons, labelWeight]
        omega
      · rw [hrest]
        refine ⟨loopHead_clean hclean.wire hclean.events, ?_⟩
        have hle := job.loopHead_measure { s with commands, attempts := s.attempts.insert x 1 }
        have hs : measure s = 5 * 1 + 1 + 4 * s.commands.items.length + 3 * s.atArchives.length
            + 2 * s.onWire.length + s.events.items.length := by
          simp only [measure, hphase, phaseWeight, List.length_singleton]
        dsimp only at hle
        simp only [labelWeight]
        omega
  | @receive event events hphase hitems hevent =>
      obtain ⟨acks, hnext, -⟩ := onEvent_spec hevent { s with events }
      rw [hnext]
      refine ⟨loopHead_clean hclean.wire fun e he => hclean.events e ?_, ?_⟩
      · rw [hitems]
        exact List.mem_cons_of_mem _ he
      · have hle := job.loopHead_measure { s with events, ackedPerChunk := acks }
        have hs : measure s = 1 + 4 * s.commands.items.length + 3 * s.atArchives.length
            + 2 * s.onWire.length + (events.items.length + 1) := by
          simp only [measure, hphase, phaseWeight, hitems, List.length_cons]
        dsimp only at hle
        simp only [labelWeight]
        omega
  | deadline hphase _ =>
      refine ⟨⟨hclean.wire, hclean.events, nofun, nofun⟩, ?_⟩
      simp only [measure, phaseWeight, hphase, labelWeight]
      omega
  | @command x commands hitems =>
      refine ⟨⟨hclean.wire, hclean.events, hclean.phase⟩, ?_⟩
      simp only [measure, hitems, List.length_cons, List.length_append, List.length_nil,
        labelWeight]
      omega
  | @response i x hget =>
      refine ⟨⟨fun e he => hclean.wire e (List.mem_of_mem_eraseIdx he), fun e he => ?_,
        hclean.phase⟩, ?_⟩
      · rcases mem_trySend he with hold | rfl
        · exact hclean.events e hold
        · exact .of_ack x
      · obtain ⟨hi, -⟩ := List.getElem?_eq_some_iff.mp hget
        have hle := s.events.trySend_length_le (job.eventOf x (.ack none))
        simp only [measure, List.length_eraseIdx_of_lt hi, labelWeight]
        omega
  | @network event hother =>
      refine ⟨⟨hclean.wire, fun e he => ?_, hclean.phase⟩, ?_⟩
      · rcases mem_trySend he with hold | rfl
        · exact hclean.events e hold
        · exact fun t error h => absurd h (hother t error)
      · have hle := s.events.trySend_length_le event
        simp only [measure, labelWeight]
        omega
  | @answer i x hget =>
      refine ⟨⟨fun e he => ?_, hclean.events, hclean.phase⟩, ?_⟩
      · rcases List.mem_append.mp he with hold | hnew
        · exact hclean.wire e hold
        · rw [List.mem_singleton.mp hnew]
      · obtain ⟨hi, -⟩ := List.getElem?_eq_some_iff.mp hget
        simp only [measure, List.length_eraseIdx_of_lt hi, List.length_append, List.length_singleton,
          labelWeight]
        omega

theorem start_clean {job : PushJob} (hunanswered : job.Unanswered waiting) :
    job.Clean (job.start waiting) := by
  have hwire : ∀ e ∈ (job.idle waiting).onWire, e.2 = .ack none := fun e he => by cases he
  have hevents : ∀ e ∈ (job.idle waiting).events.items, job.ErrorFree e :=
    fun e he t error hack => absurd hack (hunanswered e he t error)
  unfold start
  rcases job.sendRest_eq job.targets (job.idle waiting) with ⟨hne, h⟩ | ⟨-, h⟩
  · rw [h]
    refine ⟨hwire, hevents, nofun, fun hwave => hne ?_⟩
    injection hwave
  · rw [h]
    exact loopHead_clean hwire hevents

theorem run_clean {job : PushJob} (hunanswered : job.Unanswered waiting) {labels : List S2Label}
    {s : S2State} (h : Run job.Step (job.start waiting) labels s) : job.Clean s :=
  h.invariant (P := fun _ s => job.Clean s)
    (fun _ _ _ _ hc hstep => ((hstep.move hc).clean_measure hc).1) [] (start_clean hunanswered)

/-- What the swarm reports besides the pushes. -/
def isNetwork : S2Label → Bool
  | .network _ => true
  | _ => false

omit [AssignmentScore] in
theorem sum_weight (labels : List S2Label) :
    (labels.map labelWeight).sum = 2 * labels.countP isNetwork := by
  induction labels with
  | nil => rfl
  | cons l labels ih =>
      rw [List.map_cons, List.sum_cons, List.countP_cons, ih]
      cases l with
      | network event =>
          simp only [labelWeight, isNetwork, if_pos]
          omega
      | _ => simp [labelWeight, isNetwork]

theorem run_length_le {job : PushJob} (hunanswered : job.Unanswered waiting)
    {labels : List S2Label} {s : S2State} (h : Run job.Step (job.start waiting) labels s) :
    labels.length ≤ measure (job.start waiting) + 2 * labels.countP isNetwork := by
  have hle := h.length_le (P := job.Clean)
    (fun _ _ _ hc hstep => (hstep.move hc).clean_measure hc) (start_clean hunanswered)
  rw [sum_weight] at hle
  omega

/-! ### With room for every event, no push is lost -/

/-- Where a push is. -/
def UnderWay (job : PushJob) (s : S2State) (t : Nat × PeerId) : Prop :=
  t ∈ s.phase.rest ∨ t ∈ s.commands.items ∨ t ∈ s.atArchives ∨ (t, .ack none) ∈ s.onWire ∨
    job.eventOf t (.ack none) ∈ s.events.items

/--
Every push is accounted for, and the event channel and all that may still come into
it together are no more than the pushes and the `m` other events so far, those that
waited at the start among them.
-/
structure Covered (job : PushJob) (m : Nat) (s : S2State) : Prop where
  covers : ∀ t ∈ job.targets, job.UnderWay s t ∨ Acked s.ackedPerChunk t
  room : s.events.items.length + s.phase.rest.length + s.commands.items.length
    + s.atArchives.length + s.onWire.length ≤ job.targets.length + m
  known : ∀ t ∈ job.targets, (s.attempts.lookup t).isSome = true
  result : ∀ result, s.phase = .returned result → ∃ archives, result = .ok archives

/-- Back at the head of the loop nothing is accounted for otherwise. -/
theorem Covered.loopHead {job : PushJob} {m : Nat} {s : S2State}
    (hcovers : ∀ t ∈ job.targets,
      job.UnderWay { s with phase := .waiting } t ∨ Acked s.ackedPerChunk t)
    (hroom : s.events.items.length + s.commands.items.length + s.atArchives.length
      + s.onWire.length ≤ job.targets.length + m)
    (hknown : ∀ t ∈ job.targets, (s.attempts.lookup t).isSome = true) :
    job.Covered m (job.loopHead s) := by
  rcases job.loopHead_eq s with h | ⟨-, h⟩
  · rw [h]
    exact ⟨hcovers, hroom, hknown, fun _ hr => by cases hr⟩
  · rw [h]
    refine ⟨hcovers, hroom, hknown, fun result hr => ?_⟩
    cases hr
    exact ⟨_, rfl⟩

omit [AssignmentScore] in
theorem lookup_insert_isSome {κ β : Type} [DecidableEq κ] {map : Map κ β} {k k' : κ} {b : β}
    (h : (map.lookup k').isSome = true) : ((map.insert k b).lookup k').isSome = true := by
  by_cases hk : k' = k
  · rw [hk, AList.lookup_insert]
    rfl
  · rwa [AList.lookup_insert_ne hk]

/-- **A move loses no push** while the channel has room for what may come. -/
theorem Move.covered {job : PushJob} {m : Nat} {s t : S2State} {l : S2Label} (h : job.Move s l t)
    (hid : job.Identified) (hcov : job.Covered m s)
    (hcap : job.targets.length + m ≤ channelCapacity) :
    job.Covered (m + if isNetwork l then 1 else 0) t := by
  have hroom := hcov.room
  cases h with
  | @send x rest commands hphase hcommands =>
      simp only [hphase, S2Phase.rest, List.length_cons] at hroom
      have hlen : commands.items.length = s.commands.items.length + 1 := by
        rw [hcommands, List.length_append, List.length_singleton]
      have hknown : ∀ t ∈ job.targets, ((s.attempts.insert x 1).lookup t).isSome = true :=
        fun t ht => lookup_insert_isSome (hcov.known t ht)
      have hcovers : ∀ phase : S2Phase, phase.rest = rest → ∀ t ∈ job.targets,
          job.UnderWay { s with phase, commands, attempts := s.attempts.insert x 1 } t ∨
            Acked s.ackedPerChunk t := by
        intro phase hrest t ht
        refine (hcov.covers t ht).imp_left ?_
        unfold UnderWay
        rw [hphase, hrest, hcommands]
        simp only [S2Phase.rest, List.mem_cons, List.mem_append, List.not_mem_nil, or_false]
        rintro ((rfl | h) | h | h)
        · exact Or.inr (Or.inl (Or.inr rfl))
        · exact Or.inl h
        · exact Or.inr (Or.inl (Or.inl h))
        · exact Or.inr (Or.inr h)
      rcases job.sendRest_eq rest { s with commands, attempts := s.attempts.insert x 1 } with
        ⟨-, hrest⟩ | ⟨rfl, hrest⟩
      · rw [hrest]
        refine ⟨hcovers (.wave rest) rfl, ?_, hknown, fun _ hr => by cases hr⟩
        simp only [S2Phase.rest, hlen]
        omega
      · rw [hrest]
        refine .loopHead (hcovers .waiting rfl) ?_ hknown
        simp only [hlen]
        simp only [List.length_nil] at hroom
        omega
  | @receive event events hphase hitems hevent =>
      simp only [hphase, S2Phase.rest, hitems, List.length_cons, List.length_nil] at hroom
      obtain ⟨acks, hnext, hkeep, hnew, -⟩ := onEvent_spec hevent { s with events }
      rw [hnext]
      refine .loopHead (fun t ht => ?_) (by dsimp only; omega) hcov.known
      rcases hcov.covers t ht with hway | hacked
      · unfold UnderWay at hway ⊢
        rw [hphase, hitems] at hway
        rcases hway with h | h | h | h | h
        · cases h
        · exact Or.inl (Or.inr (Or.inl h))
        · exact Or.inl (Or.inr (Or.inr (Or.inl h)))
        · exact Or.inl (Or.inr (Or.inr (Or.inr (Or.inl h))))
        · rcases List.mem_cons.mp h with h | h
          · exact Or.inr (hnew t ⟨_, h.symm⟩ (hcov.known t ht))
          · exact Or.inl (Or.inr (Or.inr (Or.inr (Or.inr h))))
      · exact Or.inr (hkeep t hacked)
  | deadline hphase hquiet =>
      obtain ⟨hcommands, harchives, hwire, hevents⟩ := hquiet
      have hall : ∀ t ∈ job.targets, Acked s.ackedPerChunk t := by
        intro t ht
        rcases hcov.covers t ht with hway | hacked
        · unfold UnderWay at hway
          rw [hphase, hcommands, harchives, hwire, hevents] at hway
          simp [S2Phase.rest] at hway
        · exact hacked
      have hok : job.audit s = .ok job.distinctAssigned := by
        unfold audit
        rw [underReplicated_eq_nil_iff.mpr (hid.replicated_of_acked hall)]
      refine ⟨fun t ht => Or.inr (hall t ht), ?_, hcov.known, fun result hr => ?_⟩
      · simp only [hphase, S2Phase.rest] at hroom ⊢
        omega
      · injection hr with hr
        exact ⟨_, hr.symm.trans hok⟩
  | @command x commands hitems =>
      refine ⟨fun t ht => (hcov.covers t ht).imp_left ?_, ?_, hcov.known, hcov.result⟩
      · unfold UnderWay
        rw [hitems]
        simp only [List.mem_cons, List.mem_append, List.not_mem_nil, or_false]
        rintro (h | (h | h) | h)
        · exact Or.inl h
        · exact Or.inr (Or.inr (Or.inl (Or.inr h)))
        · exact Or.inr (Or.inl h)
        · exact Or.inr (Or.inr (h.imp_left Or.inl))
      · simp only [hitems, List.length_cons, List.length_append, List.length_nil] at hroom ⊢
        omega
  | @response i x hget =>
      obtain ⟨hi, -⟩ := List.getElem?_eq_some_iff.mp hget
      have herase := List.length_eraseIdx_of_lt hi
      -- One answer is on the wire, so the channel is not full.
      have hevents : (s.events.trySend (job.eventOf x (.ack none))).items
          = s.events.items ++ [job.eventOf x (.ack none)] :=
        Chan.trySend_of_lt _ (by omega)
      refine ⟨fun t ht => (hcov.covers t ht).imp_left ?_, ?_, hcov.known, hcov.result⟩
      · unfold UnderWay
        rw [hevents]
        simp only [List.mem_append, List.mem_singleton]
        rintro (h | h | h | h | h)
        · exact Or.inl h
        · exact Or.inr (Or.inl h)
        · exact Or.inr (Or.inr (Or.inl h))
        · rcases Lists.mem_eraseIdx_or hget h with h | h
          · cases h
            exact Or.inr (Or.inr (Or.inr (Or.inr (Or.inr rfl))))
          · exact Or.inr (Or.inr (Or.inr (Or.inl h)))
        · exact Or.inr (Or.inr (Or.inr (Or.inr (Or.inl h))))
      · simp only [hevents, List.length_append, List.length_singleton, herase]
        omega
  | @network event hother =>
      have hlen := s.events.trySend_length_le event
      have hkeep : ∀ e ∈ s.events.items, e ∈ (s.events.trySend event).items := by
        intro e he
        rcases s.events.trySend_cases event with h | h
        · rw [h]
          exact List.mem_append_left _ he
        · rwa [h]
      refine ⟨fun t ht => (hcov.covers t ht).imp_left ?_, ?_, hcov.known, hcov.result⟩
      · rintro (h | h | h | h | h)
        · exact Or.inl h
        · exact Or.inr (Or.inl h)
        · exact Or.inr (Or.inr (Or.inl h))
        · exact Or.inr (Or.inr (Or.inr (Or.inl h)))
        · exact Or.inr (Or.inr (Or.inr (Or.inr (hkeep _ h))))
      · simp only [isNetwork, if_pos]
        omega
  | @answer i x hget =>
      obtain ⟨hi, -⟩ := List.getElem?_eq_some_iff.mp hget
      have herase := List.length_eraseIdx_of_lt hi
      refine ⟨fun t ht => (hcov.covers t ht).imp_left ?_, ?_, hcov.known, hcov.result⟩
      · unfold UnderWay
        simp only [List.mem_append, List.mem_singleton]
        rintro (h | h | h | h | h)
        · exact Or.inl h
        · exact Or.inr (Or.inl h)
        · rcases Lists.mem_eraseIdx_or hget h with rfl | h
          · exact Or.inr (Or.inr (Or.inr (Or.inl (Or.inr rfl))))
          · exact Or.inr (Or.inr (Or.inl h))
        · exact Or.inr (Or.inr (Or.inr (Or.inl (Or.inl h))))
        · exact Or.inr (Or.inr (Or.inr (Or.inr h)))
      · simp only [List.length_append, List.length_singleton, herase]
        omega

theorem start_covered (job : PushJob) (waiting : Chan SumNetEvent channelCapacity) :
    job.Covered waiting.items.length (job.start waiting) := by
  have hknown : ∀ t ∈ job.targets, ((job.idle waiting).attempts.lookup t).isSome = true := by
    intro t ht
    unfold idle
    dsimp only
    rw [AList.lookup_to_alist, List.dlookup_isSome, List.mem_keys]
    exact ⟨0, List.mem_map.mpr ⟨t, ht, rfl⟩⟩
  unfold start
  rcases job.sendRest_eq job.targets (job.idle waiting) with ⟨-, h⟩ | ⟨hnil, h⟩
  · rw [h]
    refine ⟨fun t ht => Or.inl (Or.inl ht), ?_, hknown, fun _ hr => by cases hr⟩
    simp [S2Phase.rest, idle, Nat.add_comm]
  · rw [h]
    refine .loopHead (fun t ht => ?_) (by simp [idle]) hknown
    rw [hnil] at ht
    cases ht

theorem run_covered {job : PushJob} (hid : job.Identified) (hunanswered : job.Unanswered waiting)
    {k : Nat} (hcap : job.targets.length + (waiting.items.length + k) ≤ channelCapacity)
    {labels : List S2Label} {s : S2State} (h : Run job.Step (job.start waiting) labels s)
    (hk : labels.countP isNetwork ≤ k) :
    job.Covered (waiting.items.length + labels.countP isNetwork) s := by
  have hinv := h.invariant (P := fun past s => job.Clean s ∧ (past.countP isNetwork ≤ k →
    job.Covered (waiting.items.length + past.countP isNetwork) s)) (fun past s l t hp hstep => ?_)
    [] ⟨start_clean hunanswered, fun _ => job.start_covered waiting⟩
  · exact hinv.2 hk
  · obtain ⟨hclean, hcov⟩ := hp
    have hmove := hstep.move hclean
    refine ⟨(hmove.clean_measure hclean).1, fun hle => ?_⟩
    rw [List.countP_append, List.countP_singleton] at hle ⊢
    rw [← Nat.add_assoc]
    exact hmove.covered hid (hcov (by omega)) (by omega)

/-- No task can move, whatever else the swarm might report. -/
def Stuck (job : PushJob) (s : S2State) : Prop :=
  ∀ l t, isNetwork l = false → ¬ job.Step s l t

theorem Stuck.step_eq_none {job : PushJob} {s : S2State} (h : job.Stuck s) {l : S2Label}
    (hallowed : job.Allowed s l) (hl : isNetwork l = false) : job.step s l = none := by
  cases hstep : job.step s l with
  | none => rfl
  | some t => exact absurd ⟨hallowed, hstep⟩ (h l t hl)

/-- Short of having returned, some task can move. -/
theorem returned_of_stuck {job : PushJob} {s : S2State} (hclean : job.Clean s)
    (hstuck : job.Stuck s) : ∃ result, s.phase = .returned result := by
  have hcommands : s.commands.items = [] := by
    have hnone := hstuck.step_eq_none (l := .command) trivial rfl
    exact Chan.recv?_eq_none (Option.map_eq_none_iff.mp hnone)
  have harchives : s.atArchives = [] := by
    have hnone := hstuck.step_eq_none (l := .answer 0 (.ack none)) rfl rfl
    exact List.length_eq_zero_iff.mp
      (Nat.le_zero.mp (List.getElem?_eq_none_iff.mp (Option.map_eq_none_iff.mp hnone)))
  have hwire : s.onWire = [] := by
    have hnone := hstuck.step_eq_none (l := .response 0) trivial rfl
    exact List.length_eq_zero_iff.mp
      (Nat.le_zero.mp (List.getElem?_eq_none_iff.mp (Option.map_eq_none_iff.mp hnone)))
  cases hphase : s.phase with
  | returned result => exact ⟨result, rfl⟩
  | retrying key => exact absurd hphase (hclean.phase.1 key)
  | wave rest =>
      cases rest with
      | nil => exact absurd hphase hclean.phase.2
      | cons x rest =>
          obtain ⟨commands, hsend, -⟩ := Chan.send?_of_lt (c := s.commands) x
            (by rw [hcommands]; decide)
          have hnone := hstuck.step_eq_none (l := .send) trivial rfl
          rw [step_send hphase hsend] at hnone
          cases hnone
  | waiting =>
      have hevents : s.events.items = [] := by
        cases hitems : s.events.items with
        | nil => rfl
        | cons event items =>
            obtain ⟨events, hrecv, -⟩ := Chan.recv?_of_cons hitems
            have hnone := hstuck.step_eq_none (l := .receive) trivial rfl
            rw [step_receive hphase hrecv] at hnone
            cases hnone
      have hnone := hstuck.step_eq_none (l := .deadline) ⟨hcommands, harchives, hwire, hevents⟩ rfl
      rw [step_deadline hphase] at hnone
      cases hnone

/-- What was returned stays returned. -/
theorem run_returned {job : PushJob} (hunanswered : job.Unanswered waiting)
    {labels : List S2Label} {s : S2State} (h : Run job.Step (job.start waiting) labels s)
    {result : Except PushFailure (Finset Addr)}
    (hstart : (job.start waiting).phase = .returned result) : s.phase = .returned result := by
  refine (h.invariant (P := fun _ s => job.Clean s ∧ s.phase = .returned result) ?_ []
    ⟨start_clean hunanswered, hstart⟩).2
  rintro _ s l t ⟨hclean, hphase⟩ hstep
  have hmove := hstep.move hclean
  refine ⟨(hmove.clean_measure hclean).1, ?_⟩
  cases hmove with
  | send h _ => cases hphase.symm.trans h
  | receive h _ _ => cases hphase.symm.trans h
  | deadline h _ => cases hphase.symm.trans h
  | command _ => exact hphase
  | response _ => exact hphase
  | network _ => exact hphase
  | answer _ => exact hphase

end PushJob

end Snip
