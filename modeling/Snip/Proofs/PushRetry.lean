/-
How often a push of an ingest is sent.

The ledger of a run keeps, for each chunk and peer, how many times the push was
handed to the network layer and how the last one stands: not answered yet, over
with a failure, or acknowledged.  The counter in `attempts` never falls behind the
ledger, which bounds the sends of every run.

A refused push goes out again at once.  A push that the node could not hand over and
a push that ends in `ShardRequestFailed` do not: the loop looks at neither.  Where
neither happens while the push has retries left, the counter is the ledger's own
number, and a reported chunk has no archive that was given up early.
-/
import Snip.Lib.Maps
import Snip.Proofs.Acceptance
import Snip.Proofs.PushWave

namespace Snip

/-! ### The ledger -/

/-- How the last push of a chunk to a peer stands. -/
inductive PushStanding where
  | unsent
  | outstanding
  | failed
  | acknowledged
deriving DecidableEq

/-- The pushes of one chunk to one peer. -/
structure PairLog where
  sends : Nat
  standing : PushStanding
deriving DecidableEq

/-- The pipeline with its ledger. -/
structure S2Book where
  state : S2State
  log : Nat × PeerId → PairLog

/-- One more for the push that is about to be sent again. -/
def S2Phase.resends : S2Phase → Nat × PeerId → Nat
  | .retrying k, key => if k = key then 1 else 0
  | _, _ => 0

namespace PushJob

/-- What an event says about a push: it worked, or it did not. -/
def outcome (job : PushJob) (key : Nat × PeerId) : SumNetEvent → Option Bool
  | .shardReceivedV2 peerId (.pushAck merkleRoot chunkIndex error) _ =>
      if merkleRoot = job.merkleRoot ∧ (chunkIndex, peerId) = key then some error.isNone else none
  | .shardRequestFailed peerId _ origin =>
      if origin.kind = .v2Push job.merkleRoot key.1 ∧ peerId = key.2 then some false else none
  | _ => none

/-- The ledger of one push after one more entry. -/
def note (job : PushJob) (key : Nat × PeerId) (log : PairLog) : S2Entry → PairLog
  | .sent k ok =>
      if k = key then if ok then ⟨log.sends + 1, .outstanding⟩ else ⟨log.sends, .failed⟩ else log
  | .read event =>
      match job.outcome key event with
      -- An answer that nobody waits for is about an older push.
      | some ok =>
          if log.standing = .outstanding then
            ⟨log.sends, if ok then .acknowledged else .failed⟩
          else log
      | none => log
  | .deadline => log

/-- The event is a `ShardRequestFailed` for this push. -/
def Fails (job : PushJob) (event : SumNetEvent) (key : Nat × PeerId) : Prop :=
  ∃ error origin, event = .shardRequestFailed key.2 error origin ∧
    origin.kind = .v2Push job.merkleRoot key.1

variable [AssignmentScore]

def opened (job : PushJob) : S2Book := ⟨job.opening, fun _ => ⟨0, .unsent⟩⟩

def Turn (job : PushJob) (b : S2Book) (e : S2Entry) (b' : S2Book) : Prop :=
  job.turn b.state e = some b'.state ∧ b'.log = fun key => job.note key (b.log key) e

/--
No push fails in the node itself, and none that waits for its answer ends in a
`ShardRequestFailed` while it has retries left.
-/
def Regular (job : PushJob) (b : S2Book) : S2Entry → Prop
  | .sent _ ok => ok = true
  | .read event => ∀ key ∈ job.targets, job.Fails event key →
      (b.log key).standing = .outstanding → job.pushRetries < (b.log key).sends
  | .deadline => True

def RegularTurn (job : PushJob) (b : S2Book) (e : S2Entry) (b' : S2Book) : Prop :=
  job.Regular b e ∧ job.Turn b e b'

/-! ### What an entry does -/

/-- All an entry can do. -/
inductive Turned (job : PushJob) (s : S2State) : S2Entry → S2State → Prop
  | first {x : Nat × PeerId} {rest : List (Nat × PeerId)} (ok : Bool) :
      s.phase = .wave (x :: rest) →
      Turned job s (.sent x ok)
        (job.sendRest rest (if ok then { s with attempts := s.attempts.insert x 1 } else s))
  | again {key : Nat × PeerId} (ok : Bool) : s.phase = .retrying key →
      Turned job s (.sent key ok) (job.loopHead s)
  | read (event : SumNetEvent) : s.phase = .waiting →
      Turned job s (.read event) (job.onEvent s event)
  | deadline : s.phase = .waiting →
      Turned job s .deadline { s with phase := .returned (job.audit s) }

theorem turned_of_turn {job : PushJob} {s t : S2State} {e : S2Entry} (h : job.turn s e = some t) :
    job.Turned s e t := by
  cases e with
  | sent key ok =>
      unfold turn at h
      dsimp only at h
      split at h
      · rename_i x rest hphase
        split at h
        · rename_i hkey
          cases h
          subst hkey
          exact .first ok hphase
        · cases h
      · rename_i k hphase
        split at h
        · rename_i hkey
          cases h
          subst hkey
          exact .again ok hphase
        · cases h
      · cases h
  | read event =>
      unfold turn at h
      dsimp only at h
      split at h
      · rename_i hphase
        cases h
        exact .read event hphase
      · cases h
  | deadline =>
      unfold turn at h
      dsimp only at h
      split at h
      · rename_i hphase
        cases h
        exact .deadline hphase
      · cases h

/-- The head of the loop only moves on. -/
theorem loopHead_spec (job : PushJob) (s : S2State) :
    (job.loopHead s).attempts = s.attempts ∧ (job.loopHead s).ackedPerChunk = s.ackedPerChunk ∧
    (job.loopHead s).phase.rest = [] ∧ (∀ key, (job.loopHead s).phase.resends key = 0) ∧
    ∀ f, (job.loopHead s).phase ≠ .returned (.error f) := by
  rcases job.loopHead_eq s with h | ⟨-, h⟩
  · rw [h]
    exact ⟨rfl, rfl, rfl, fun _ => rfl, nofun⟩
  · rw [h]
    exact ⟨rfl, rfl, rfl, fun _ => rfl, nofun⟩

theorem sendRest_spec (job : PushJob) (rest : List (Nat × PeerId)) (s : S2State) :
    (job.sendRest rest s).attempts = s.attempts ∧
    (job.sendRest rest s).ackedPerChunk = s.ackedPerChunk ∧
    (job.sendRest rest s).phase.rest = rest ∧ (∀ key, (job.sendRest rest s).phase.resends key = 0) ∧
    ∀ f, (job.sendRest rest s).phase ≠ .returned (.error f) := by
  rcases job.sendRest_eq rest s with ⟨-, h⟩ | ⟨rfl, h⟩
  · rw [h]
    exact ⟨rfl, rfl, rfl, fun _ => rfl, nofun⟩
  · rw [h]
    exact job.loopHead_spec s

omit [AssignmentScore] in
theorem note_sent (job : PushJob) (key x : Nat × PeerId) (log : PairLog) (ok : Bool) :
    (job.note key log (.sent x ok)).sends = log.sends + if x = key ∧ ok = true then 1 else 0 := by
  unfold note
  by_cases hx : x = key
  · cases ok with
    | true => simp [hx]
    | false => simp [hx]
  · simp [hx]

omit [AssignmentScore] in
theorem note_read_cases (job : PushJob) (key : Nat × PeerId) (log : PairLog)
    (event : SumNetEvent) :
    job.note key log (.read event) = log ∨ log.standing = .outstanding ∧
      (job.outcome key event = some true ∧
          job.note key log (.read event) = ⟨log.sends, .acknowledged⟩ ∨
        job.outcome key event = some false ∧
          job.note key log (.read event) = ⟨log.sends, .failed⟩) := by
  unfold note
  dsimp only
  split
  · rename_i ok houtcome
    split
    · rename_i hout
      refine Or.inr ⟨hout, ?_⟩
      cases ok with
      | true => exact Or.inl ⟨houtcome, rfl⟩
      | false => exact Or.inr ⟨houtcome, rfl⟩
    · exact Or.inl rfl
  · exact Or.inl rfl

omit [AssignmentScore] in
theorem note_read (job : PushJob) (key : Nat × PeerId) (log : PairLog) (event : SumNetEvent) :
    (job.note key log (.read event)).sends = log.sends := by
  rcases job.note_read_cases key log event with h | ⟨-, ⟨-, h⟩ | ⟨-, h⟩⟩
  · rw [h]
  · rw [h]
  · rw [h]

/-! ### The budget of a push -/

/-- The counter is never behind the ledger, and never above the budget. -/
structure Budget (job : PushJob) (b : S2Book) : Prop where
  counted : ∀ key, (b.log key).sends + b.state.phase.resends key
    ≤ (b.state.attempts.lookup key).getD 0
  capped : ∀ key, (b.state.attempts.lookup key).getD 0 ≤ job.pushRetries + 1
  fresh : ∀ key ∈ b.state.phase.rest, (b.log key).sends = 0
  nodup : b.state.phase.rest.Nodup

/-- Back at the head of the loop with the same counters. -/
theorem Budget.loopHead {job : PushJob} {s : S2State} {log : Nat × PeerId → PairLog}
    (hcounted : ∀ key, (log key).sends ≤ (s.attempts.lookup key).getD 0)
    (hcapped : ∀ key, (s.attempts.lookup key).getD 0 ≤ job.pushRetries + 1) :
    job.Budget ⟨job.loopHead s, log⟩ := by
  obtain ⟨hattempts, -, hrest, hresends, -⟩ := job.loopHead_spec s
  refine ⟨fun key => ?_, fun key => ?_, fun key hkey => ?_, ?_⟩
  · rw [hattempts, hresends key]
    exact hcounted key
  · rw [hattempts]
    exact hcapped key
  · rw [hrest] at hkey
    cases hkey
  · rw [hrest]
    exact List.nodup_nil

theorem Budget.first {job : PushJob} {s : S2State} {log : Nat × PeerId → PairLog}
    {x : Nat × PeerId} {rest : List (Nat × PeerId)} (h : job.Budget ⟨s, log⟩) (ok : Bool)
    (hphase : s.phase = .wave (x :: rest)) :
    job.Budget ⟨job.sendRest rest (if ok then { s with attempts := s.attempts.insert x 1 } else s),
      fun key => job.note key (log key) (.sent x ok)⟩ := by
  obtain ⟨hattempts, -, hrest, hresends, -⟩ := job.sendRest_spec rest
    (if ok then { s with attempts := s.attempts.insert x 1 } else s)
  have hfresh := h.fresh
  have hnodup := h.nodup
  rw [hphase] at hfresh hnodup
  obtain ⟨hx, hnodup⟩ := List.nodup_cons.mp hnodup
  have hzero := hfresh x (List.mem_cons_self ..)
  refine ⟨fun key => ?_, fun key => ?_, fun key hkey => ?_, ?_⟩
  · have hold : (log key).sends + s.phase.resends key ≤ (s.attempts.lookup key).getD 0 :=
      h.counted key
    rw [hattempts, hresends key, note_sent]
    cases ok with
    | false =>
        simp only [Bool.false_eq_true, if_false, and_false]
        omega
    | true =>
        simp only [if_true, and_true]
        rw [Maps.lookup_insert]
        by_cases hkey : key = x
        · subst hkey
          simp only [if_true, Option.getD_some]
          dsimp only at hzero
          omega
        · rw [if_neg hkey, if_neg (Ne.symm hkey)]
          omega
  · rw [hattempts]
    cases ok with
    | false => exact h.capped key
    | true =>
        simp only [if_true]
        rw [Maps.lookup_insert]
        split
        · exact Nat.succ_le_succ (Nat.zero_le _)
        · exact h.capped key
  · rw [hrest] at hkey
    have hne : x ≠ key := fun hxk => hx (hxk ▸ hkey)
    have hold := hfresh key (List.mem_cons_of_mem _ hkey)
    rw [note_sent, if_neg fun hand => hne hand.1]
    exact hold
  · rw [hrest]
    exact hnodup

theorem Budget.read {job : PushJob} {s : S2State} {log : Nat × PeerId → PairLog}
    (h : job.Budget ⟨s, log⟩) (event : SumNetEvent) :
    job.Budget ⟨job.onEvent s event, fun key => job.note key (log key) (.read event)⟩ := by
  have hcounted : ∀ key, (job.note key (log key) (.read event)).sends
      ≤ (s.attempts.lookup key).getD 0 := by
    intro key
    have hold := h.counted key
    rw [note_read]
    exact (Nat.le_add_right _ _).trans hold
  have hheard := job.heard_onEvent s event
  generalize job.onEvent s event = s' at hheard ⊢
  cases hheard with
  | nothing _ => exact .loopHead hcounted h.capped
  | acked _ _ => exact .loopHead hcounted h.capped
  | @refused t error n hack hlook hle =>
      refine ⟨fun key => ?_, fun key => ?_, nofun, List.nodup_nil⟩
      · have hold := hcounted key
        dsimp only
        rw [Maps.lookup_insert]
        by_cases hkey : key = t
        · subst hkey
          rw [hlook] at hold
          simp only [S2Phase.resends, if_true, Option.getD_some] at hold ⊢
          omega
        · simp only [S2Phase.resends, if_neg hkey, if_neg (Ne.symm hkey)]
          exact hold
      · have hold := h.capped key
        dsimp only
        rw [Maps.lookup_insert]
        split
        · simp only [Option.getD_some]
          omega
        · exact hold

theorem Budget.turn {job : PushJob} {b b' : S2Book} {e : S2Entry} (h : job.Budget b)
    (hturn : job.Turn b e b') : job.Budget b' := by
  obtain ⟨s, log⟩ := b
  obtain ⟨s', log'⟩ := b'
  obtain ⟨hstep, hlog⟩ := hturn
  obtain rfl : log' = fun key => job.note key (log key) e := hlog
  cases turned_of_turn hstep with
  | first ok hphase => exact h.first ok hphase
  | @again key ok hphase =>
      dsimp only at hphase
      refine .loopHead (fun k => ?_) h.capped
      have hold : (log k).sends + s.phase.resends k ≤ (s.attempts.lookup k).getD 0 := h.counted k
      rw [hphase] at hold
      simp only [S2Phase.resends] at hold
      rw [note_sent]
      by_cases hk : key = k
      · rw [if_pos hk] at hold
        split
        · exact hold
        · exact (Nat.le_succ _).trans hold
      · rw [if_neg hk] at hold
        rw [if_neg fun hand => hk hand.1]
        exact hold
  | read event hphase => exact h.read event
  | deadline hphase =>
      exact ⟨fun key => (Nat.le_add_right _ _).trans (h.counted key), h.capped, nofun,
        List.nodup_nil⟩

/-- Before the first push every counter is zero. -/
theorem lookup_idle (job : PushJob) (key : Nat × PeerId) :
    (job.idle .empty).attempts.lookup key = if key ∈ job.targets then some 0 else none := by
  unfold idle
  rw [Maps.lookup_const]
  by_cases h : key ∈ job.targets
  · rw [if_pos h, if_pos h]
  · rw [if_neg h, if_neg h]

theorem opened_budget (job : PushJob) : job.Budget job.opened := by
  obtain ⟨hattempts, -, hrest, hresends, -⟩ := job.sendRest_spec job.targets (job.idle .empty)
  have hzero : ∀ key, ((job.idle .empty).attempts.lookup key).getD 0 = 0 := by
    intro key
    rw [lookup_idle]
    split
    · rfl
    · rfl
  refine ⟨fun key => ?_, fun key => ?_, fun _ _ => rfl, ?_⟩
  · show 0 + (job.sendRest job.targets (job.idle .empty)).phase.resends key ≤ _
    rw [hresends key]
    exact Nat.zero_le _
  · show ((job.sendRest job.targets (job.idle .empty)).attempts.lookup key).getD 0 ≤ _
    rw [hattempts, hzero]
    exact Nat.zero_le _
  · show (job.sendRest job.targets (job.idle .empty)).phase.rest.Nodup
    rw [hrest]
    exact job.targets_nodup

/-! ### Every push accounted for -/

omit [AssignmentScore] in
theorem outcome_true {job : PushJob} {key : Nat × PeerId} {event : SumNetEvent}
    (h : job.outcome key event = some true) : job.IsAck event key none := by
  unfold outcome at h
  split at h
  · rename_i peer root i error origin
    split at h
    · rename_i hkey
      obtain ⟨rfl, rfl⟩ := hkey
      obtain rfl : error = none := by simpa using h
      exact ⟨origin, rfl⟩
    · cases h
  · split at h
    · cases h
    · cases h
  · cases h

omit [AssignmentScore] in
theorem outcome_false {job : PushJob} {key : Nat × PeerId} {event : SumNetEvent}
    (h : job.outcome key event = some false) :
    (∃ error, job.IsAck event key (some error)) ∨ job.Fails event key := by
  unfold outcome at h
  split at h
  · rename_i peer root i error origin
    split at h
    · rename_i hkey
      obtain ⟨rfl, rfl⟩ := hkey
      cases error with
      | none => cases h
      | some e => exact Or.inl ⟨e, origin, rfl⟩
    · cases h
  · rename_i peer error origin
    split at h
    · rename_i hkey
      obtain ⟨hkind, rfl⟩ := hkey
      exact Or.inr ⟨error, origin, rfl, hkind⟩
    · cases h
  · cases h

/--
How a planned push stands: the wave has not come to it, or it waits for its answer,
is acknowledged, or failed with its retries used up or as the next to be sent.
-/
def Kept (job : PushJob) (b : S2Book) (key : Nat × PeerId) : Prop :=
  key ∈ b.state.phase.rest ∨
  (b.log key).standing = .outstanding ∨
  Acked b.state.ackedPerChunk key ∧ (b.log key).standing = .acknowledged ∨
  (b.log key).standing = .failed ∧
    ((b.log key).sends = job.pushRetries + 1 ∨ b.state.phase = .retrying key)

/-- The counter of every planned push is the ledger's number. -/
structure Accounted (job : PushJob) (b : S2Book) : Prop where
  tracked : ∀ key ∈ job.targets,
    b.state.attempts.lookup key = some ((b.log key).sends + b.state.phase.resends key)
  planned : ∀ key ∈ b.state.phase.rest, key ∈ job.targets
  kept : ∀ key ∈ job.targets, job.Kept b key
  reported : ∀ f, b.state.phase = .returned (.error f) →
    ∀ i ∈ f.underReplicated, i ∈ job.chunksToPush

theorem mem_chunksToPush_of_audit {job : PushJob} {s : S2State} {f : PushFailure}
    (h : job.audit s = .error f) {i : Nat} (hi : i ∈ f.underReplicated) : i ∈ job.chunksToPush := by
  unfold audit at h
  split at h
  · cases h
  · cases h
    unfold underReplicated at hi
    rw [Finset.mem_sort] at hi
    exact (Finset.mem_filter.mp hi).1

omit [AssignmentScore] in
/-- What reading an event does to the standing of a push. -/
theorem Kept.read {job : PushJob} {s s' : S2State} {log : Nat × PeerId → PairLog}
    {key : Nat × PeerId} {event : SumNetEvent} (h : job.Kept ⟨s, log⟩ key)
    (hphase : s.phase = .waiting)
    (hmono : Acked s.ackedPerChunk key → Acked s'.ackedPerChunk key)
    (hok : job.IsAck event key none → Acked s'.ackedPerChunk key)
    (hbad : job.outcome key event = some false → (log key).standing = .outstanding →
      (log key).sends = job.pushRetries + 1 ∨ s'.phase = .retrying key) :
    job.Kept ⟨s', fun k => job.note k (log k) (.read event)⟩ key := by
  rcases job.note_read_cases key (log key) event with hsame | ⟨hout, ⟨houtcome, hnew⟩ | ⟨houtcome, hnew⟩⟩
  · unfold Kept at h ⊢
    dsimp only at h ⊢
    rw [hphase] at h
    rw [hsame]
    rcases h with hrest | hout | ⟨hacked, hstanding⟩ | ⟨hstanding, hused | hretry⟩
    · cases hrest
    · exact Or.inr (Or.inl hout)
    · exact Or.inr (Or.inr (Or.inl ⟨hmono hacked, hstanding⟩))
    · exact Or.inr (Or.inr (Or.inr ⟨hstanding, Or.inl hused⟩))
    · cases hretry
  · exact Or.inr (Or.inr (Or.inl ⟨hok (outcome_true houtcome), congrArg PairLog.standing hnew⟩))
  · refine Or.inr (Or.inr (Or.inr ⟨congrArg PairLog.standing hnew, ?_⟩))
    · dsimp only
      rw [hnew]
      exact hbad houtcome hout

theorem Accounted.first {job : PushJob} {s : S2State} {log : Nat × PeerId → PairLog}
    {x : Nat × PeerId} {rest : List (Nat × PeerId)} (h : job.Accounted ⟨s, log⟩)
    (hbudget : job.Budget ⟨s, log⟩) (hphase : s.phase = .wave (x :: rest)) :
    job.Accounted ⟨job.sendRest rest { s with attempts := s.attempts.insert x 1 },
      fun key => job.note key (log key) (.sent x true)⟩ := by
  obtain ⟨hattempts, hacks, hrest, hresends, hreturned⟩ := job.sendRest_spec rest
    { s with attempts := s.attempts.insert x 1 }
  have hfresh := hbudget.fresh
  have hplanned := h.planned
  have hnodup := hbudget.nodup
  rw [hphase] at hfresh hplanned hnodup
  have hzero : (log x).sends = 0 := hfresh x (List.mem_cons_self ..)
  refine ⟨fun key hkey => ?_, fun key hkey => ?_, fun key hkey => ?_,
    fun f hf => absurd hf (hreturned f)⟩
  · have hold : s.attempts.lookup key = some ((log key).sends + s.phase.resends key) :=
      h.tracked key hkey
    rw [hattempts, hresends key, note_sent]
    dsimp only
    rw [Maps.lookup_insert]
    by_cases hx : key = x
    · subst hx
      rw [if_pos rfl, hzero]
      simp
    · rw [if_neg hx, hold, hphase, if_neg fun hand => hx hand.1.symm]
      rfl
  · rw [hrest] at hkey
    exact hplanned key (List.mem_cons_of_mem _ hkey)
  · have hold := h.kept key hkey
    unfold Kept at hold ⊢
    dsimp only at hold ⊢
    rw [hrest, hacks]
    rw [hphase] at hold
    by_cases hx : key = x
    · subst hx
      refine Or.inr (Or.inl ?_)
      simp [note]
    · have hnote : job.note key (log key) (.sent x true) = log key := if_neg (Ne.symm hx)
      rw [hnote]
      rcases hold with hrest | hout | hacked | ⟨hstanding, hused | hretry⟩
      · exact Or.inl (List.mem_of_ne_of_mem hx hrest)
      · exact Or.inr (Or.inl hout)
      · exact Or.inr (Or.inr (Or.inl hacked))
      · exact Or.inr (Or.inr (Or.inr ⟨hstanding, Or.inl hused⟩))
      · cases hretry

/-- After the push of a refused chunk is sent again. -/
theorem Accounted.again {job : PushJob} {s : S2State} {log : Nat × PeerId → PairLog}
    {x : Nat × PeerId} (h : job.Accounted ⟨s, log⟩) (hphase : s.phase = .retrying x) :
    job.Accounted ⟨job.loopHead s, fun key => job.note key (log key) (.sent x true)⟩ := by
  obtain ⟨hattempts, hacks, hrest, hresends, hreturned⟩ := job.loopHead_spec s
  refine ⟨fun key hkey => ?_, fun key hkey => ?_, fun key hkey => ?_,
    fun f hf => absurd hf (hreturned f)⟩
  · have hold : s.attempts.lookup key = some ((log key).sends + s.phase.resends key) :=
      h.tracked key hkey
    rw [hphase] at hold
    rw [hattempts, hresends key, note_sent, hold]
    simp [S2Phase.resends]
  · rw [hrest] at hkey
    cases hkey
  · have hold := h.kept key hkey
    unfold Kept at hold ⊢
    dsimp only at hold ⊢
    rw [hacks]
    rw [hphase] at hold
    by_cases hx : key = x
    · subst hx
      refine Or.inr (Or.inl ?_)
      simp [note]
    · have hnote : job.note key (log key) (.sent x true) = log key := if_neg (Ne.symm hx)
      rw [hnote]
      rcases hold with hrest | hout | hacked | ⟨hstanding, hused | hretry⟩
      · cases hrest
      · exact Or.inr (Or.inl hout)
      · exact Or.inr (Or.inr (Or.inl hacked))
      · exact Or.inr (Or.inr (Or.inr ⟨hstanding, Or.inl hused⟩))
      · injection hretry with hxk
        exact absurd hxk.symm hx

/-- Back at the head of the loop after an event that makes nothing be sent again. -/
theorem Accounted.loopHead {job : PushJob} {s : S2State} {log : Nat × PeerId → PairLog}
    {event : SumNetEvent} {acks : Map Nat (Finset PeerId)} (h : job.Accounted ⟨s, log⟩)
    (hphase : s.phase = .waiting)
    (hmono : ∀ key, Acked s.ackedPerChunk key → Acked acks key)
    (hok : ∀ key ∈ job.targets, job.IsAck event key none → Acked acks key)
    (hbad : ∀ key ∈ job.targets, job.outcome key event = some false →
      (log key).standing = .outstanding → (log key).sends = job.pushRetries + 1) :
    job.Accounted ⟨job.loopHead { s with ackedPerChunk := acks },
      fun key => job.note key (log key) (.read event)⟩ := by
  obtain ⟨hattempts, hacks, hrest, hresends, hreturned⟩ :=
    job.loopHead_spec { s with ackedPerChunk := acks }
  refine ⟨fun key hkey => ?_, fun key hkey => ?_, fun key hkey => ?_,
    fun f hf => absurd hf (hreturned f)⟩
  · have hold : s.attempts.lookup key = some ((log key).sends + s.phase.resends key) :=
      h.tracked key hkey
    rw [hphase] at hold
    rw [hattempts, hresends key, note_read]
    exact hold
  · rw [hrest] at hkey
    cases hkey
  · refine (h.kept key hkey).read hphase ?_ ?_ ?_
    · rw [hacks]
      exact hmono key
    · rw [hacks]
      exact hok key hkey
    · intro hfalse hout
      exact Or.inl (hbad key hkey hfalse hout)

theorem Accounted.read {job : PushJob} {s : S2State} {log : Nat × PeerId → PairLog}
    {event : SumNetEvent} (h : job.Accounted ⟨s, log⟩) (hbudget : job.Budget ⟨s, log⟩)
    (hphase : s.phase = .waiting) (hregular : job.Regular ⟨s, log⟩ (.read event)) :
    job.Accounted ⟨job.onEvent s event, fun key => job.note key (log key) (.read event)⟩ := by
  have htracked : ∀ key ∈ job.targets, s.attempts.lookup key = some (log key).sends := by
    intro key hkey
    have hold := h.tracked key hkey
    dsimp only at hold
    rw [hphase] at hold
    exact hold
  -- A counter above the retries is the whole budget.
  have hfull : ∀ key ∈ job.targets, job.pushRetries < (log key).sends →
      (log key).sends = job.pushRetries + 1 := by
    intro key hkey hlt
    have hcap := hbudget.capped key
    dsimp only at hcap
    rw [htracked key hkey, Option.getD_some] at hcap
    omega
  have hheard := job.heard_onEvent s event
  generalize job.onEvent s event = s' at hheard ⊢
  cases hheard with
  | nothing hnothing =>
      refine h.loopHead hphase (fun _ h => h) (fun key hkey hack => ?_)
        fun key hkey hfalse hout => hfull key hkey ?_
      · rcases hnothing key none hack with hnone | ⟨hne, -⟩
        · rw [htracked key hkey] at hnone
          cases hnone
        · exact absurd rfl hne
      · rcases outcome_false hfalse with ⟨error, hack⟩ | hfails
        · rcases hnothing key _ hack with hnone | ⟨-, n, hn, hlt⟩
          · rw [htracked key hkey] at hnone
            cases hnone
          · rw [htracked key hkey] at hn
            cases hn
            exact hlt
        · exact hregular key hkey hfails hout
  | @acked t hack hsome =>
      refine h.loopHead hphase (fun key hold => ?_) (fun key hkey hack' => ?_)
        fun key hkey hfalse hout => hfull key hkey ?_
      · exact hold.add t.1 t.2
      · obtain ⟨rfl, -⟩ := hack.unique hack'
        exact ⟨_, AList.lookup_insert _, Finset.mem_insert_self _ _⟩
      · rcases outcome_false hfalse with ⟨error, hack'⟩ | hfails
        · obtain ⟨-, herror⟩ := hack.unique hack'
          cases herror
        · exact hregular key hkey hfails hout
  | @refused t error n hack hlook hle =>
      have hother : ∀ key, key ≠ t → job.outcome key event ≠ some false := by
        intro key hne hfalse
        rcases outcome_false hfalse with ⟨error', hack'⟩ | ⟨_, _, hfails, -⟩
        · exact hne (hack.unique hack').1
        · obtain ⟨origin, rfl⟩ := hack
          cases hfails
      refine ⟨fun key hkey => ?_, nofun, fun key hkey => ?_, nofun⟩
      · dsimp only
        rw [Maps.lookup_insert, note_read]
        by_cases hx : key = t
        · subst hx
          have hn := hlook.symm.trans (htracked key hkey)
          cases hn
          simp [S2Phase.resends]
        · rw [if_neg hx, htracked key hkey]
          simp [S2Phase.resends, Ne.symm hx]
      · refine (h.kept key hkey).read hphase (fun h => h) (fun hack' => ?_) fun hfalse hout => ?_
        · obtain ⟨-, herror⟩ := hack.unique hack'
          cases herror
        · by_cases hx : key = t
          · exact Or.inr (congrArg S2Phase.retrying hx.symm)
          · exact absurd hfalse (hother key hx)

theorem Accounted.turn {job : PushJob} {b b' : S2Book} {e : S2Entry} (h : job.Accounted b)
    (hbudget : job.Budget b) (hturn : job.RegularTurn b e b') : job.Accounted b' := by
  obtain ⟨s, log⟩ := b
  obtain ⟨s', log'⟩ := b'
  obtain ⟨hregular, hstep, hlog⟩ := hturn
  obtain rfl : log' = fun key => job.note key (log key) e := hlog
  cases turned_of_turn hstep with
  | first ok hphase =>
      obtain rfl : ok = true := hregular
      exact h.first hbudget hphase
  | again ok hphase =>
      obtain rfl : ok = true := hregular
      exact h.again hphase
  | read event hphase => exact h.read hbudget hphase hregular
  | deadline hphase =>
      dsimp only at hphase
      refine ⟨fun key hkey => ?_, nofun, fun key hkey => ?_, fun f hf i hi => ?_⟩
      · have hold := h.tracked key hkey
        dsimp only at hold
        rw [hphase] at hold
        exact hold
      · have hold := h.kept key hkey
        unfold Kept at hold ⊢
        dsimp only at hold
        rw [hphase] at hold
        rcases hold with hrest | hout | hacked | ⟨hstanding, hused | hretry⟩
        · cases hrest
        · exact Or.inr (Or.inl hout)
        · exact Or.inr (Or.inr (Or.inl hacked))
        · exact Or.inr (Or.inr (Or.inr ⟨hstanding, Or.inl hused⟩))
        · cases hretry
      · injection hf with haudit
        exact mem_chunksToPush_of_audit haudit hi

theorem opened_accounted (job : PushJob) : job.Accounted job.opened := by
  obtain ⟨hattempts, -, hrest, hresends, hreturned⟩ := job.sendRest_spec job.targets (job.idle .empty)
  refine ⟨fun key hkey => ?_, fun key hkey => ?_, fun key hkey => ?_,
    fun f hf => absurd hf (hreturned f)⟩
  · show (job.sendRest job.targets (job.idle .empty)).attempts.lookup key
      = some (0 + (job.sendRest job.targets (job.idle .empty)).phase.resends key)
    rw [hattempts, hresends key, lookup_idle, if_pos hkey]
  · change key ∈ (job.sendRest job.targets (job.idle .empty)).phase.rest at hkey
    rw [hrest] at hkey
    exact hkey
  · refine Or.inl ?_
    show key ∈ (job.sendRest job.targets (job.idle .empty)).phase.rest
    rw [hrest]
    exact hkey

theorem run_budget {job : PushJob} {entries : List S2Entry} {b : S2Book}
    (h : Run job.Turn job.opened entries b) : job.Budget b :=
  h.invariant (P := fun _ b => job.Budget b) (fun _ _ _ _ hb hturn => hb.turn hturn) []
    job.opened_budget

theorem run_accounted {job : PushJob} {entries : List S2Entry} {b : S2Book}
    (h : Run job.RegularTurn job.opened entries b) : job.Budget b ∧ job.Accounted b :=
  h.invariant (P := fun _ b => job.Budget b ∧ job.Accounted b)
    (fun _ _ _ _ hb hturn => ⟨hb.1.turn hturn.2, hb.2.turn hb.1 hturn⟩) []
    ⟨job.opened_budget, job.opened_accounted⟩

/-! ### What every run keeps to -/

/-- The push is what the pipeline does next, before it reads or returns. -/
def SendsNext (job : PushJob) (b : S2Book) (key : Nat × PeerId) : Prop :=
  (∃ b', job.Turn b (.sent key true) b') ∧ ∀ e b', job.Turn b e b' → ∃ ok, e = .sent key ok

theorem sendsNext_of_retrying {job : PushJob} {b : S2Book} {key : Nat × PeerId}
    (h : b.state.phase = .retrying key) : job.SendsNext b key := by
  constructor
  · refine ⟨⟨job.loopHead b.state, _⟩, ?_, rfl⟩
    simp [turn, h]
  · intro e b' hturn
    obtain ⟨s, log⟩ := b
    obtain ⟨s', log'⟩ := b'
    cases turned_of_turn hturn.1 with
    | first ok hphase => cases h.symm.trans hphase
    | again ok hphase =>
        cases h.symm.trans hphase
        exact ⟨ok, rfl⟩
    | read event hphase => cases h.symm.trans hphase
    | deadline hphase => cases h.symm.trans hphase

/--
The retry budget is kept: no push goes out more often than it allows, one that failed
goes out again while it allows it, and where a chunk is reported under-replicated none
of its archives was given up early.
-/
structure Retried (job : PushJob) (b : S2Book) : Prop where
  bounded : ∀ key, (b.log key).sends ≤ job.pushRetries + 1
  resent : b.state.phase.rest = [] → ∀ key ∈ job.targets, (b.log key).standing = .failed →
    (b.log key).sends < job.pushRetries + 1 → job.SendsNext b key
  reported : ∀ f, b.state.phase = .returned (.error f) → ∀ i ∈ f.underReplicated,
    i < job.chunkCount → ∀ a ∈ job.assigned i, ∀ peer, job.peers.resolve a = some peer →
      Acked b.state.ackedPerChunk (i, peer) ∨ (b.log (i, peer)).sends = job.pushRetries + 1 ∨
        (b.log (i, peer)).standing = .outstanding

omit [AssignmentScore] in
theorem Budget.bounded {job : PushJob} {b : S2Book} (h : job.Budget b) (key : Nat × PeerId) :
    (b.log key).sends ≤ job.pushRetries + 1 :=
  calc (b.log key).sends ≤ (b.log key).sends + b.state.phase.resends key := Nat.le_add_right _ _
    _ ≤ (b.state.attempts.lookup key).getD 0 := h.counted key
    _ ≤ job.pushRetries + 1 := h.capped key

theorem Accounted.retried {job : PushJob} {b : S2Book} (h : job.Accounted b)
    (hbudget : job.Budget b) : job.Retried b := by
  refine ⟨hbudget.bounded, fun hrest key hkey hfailed hlt => ?_,
    fun f hf i hi hlt a ha peer hpeer => ?_⟩
  · rcases h.kept key hkey with hwave | hout | ⟨-, hok⟩ | ⟨-, hused | hretry⟩
    · rw [hrest] at hwave
      cases hwave
    · cases hfailed.symm.trans hout
    · cases hfailed.symm.trans hok
    · omega
    · exact sendsNext_of_retrying hretry
  · have hkey : (i, peer) ∈ job.targets :=
      mem_targets.mpr ⟨hlt, h.reported f hf i hi, List.mem_filterMap.mpr ⟨a, ha, hpeer⟩⟩
    rcases h.kept _ hkey with hwave | hout | ⟨hacked, -⟩ | ⟨-, hused | hretry⟩
    · rw [hf] at hwave
      cases hwave
    · exact Or.inr (Or.inr hout)
    · exact Or.inl hacked
    · exact Or.inr (Or.inl hused)
    · cases hf.symm.trans hretry

/--
**No push is sent more than `push_retries + 1` times, whatever happens.  As long as no
push fails in the node itself and none that waits for its answer ends in a
`ShardRequestFailed` with retries left, the whole budget is kept:** a refused push is
sent again before anything else, and no archive of a reported chunk is given up early.
-/
theorem s2PushChunks_keeps_retries (job : PushJob) :
    (∀ entries b, Run job.Turn job.opened entries b →
      ∀ key, (b.log key).sends ≤ job.pushRetries + 1) ∧
    ∀ entries b, Run job.RegularTurn job.opened entries b → job.Retried b := by
  refine ⟨fun entries b hrun => (run_budget hrun).bounded, fun entries b hrun => ?_⟩
  obtain ⟨hbudget, haccounted⟩ := run_accounted hrun
  exact haccounted.retried hbudget

end PushJob

/-! #### One archive

One chunk, one archive, two retries: a refused push is sent again, and one that ends in
`ShardRequestFailed` is not, so that the chunk is reported after a single push. -/

def oneArchive : PushJob where
  merkleRoot := Hash.zero
  chunkCount := 1
  snapshot := [0]
  chunksToPush := {0}
  assignmentReplicationFactor := 1
  pushRetries := 2
  peers := ⟨[⟨10, 0⟩].toAList⟩
  discoveryFailure := none

section

variable [AssignmentScore]

theorem oneArchive_loopHead {s : S2State} (hacks : s.ackedPerChunk = ∅) :
    oneArchive.loopHead s = { s with phase := .waiting } := by
  refine if_neg fun hall => ?_
  obtain ⟨peers, hlook, -⟩ := chunksReplicatedIn_iff.mp hall 0 (Finset.mem_singleton_self 0)
  rw [hacks, AList.lookup_empty] at hlook
  cases hlook

/-- Waiting, with so many attempts at the only push. -/
def oneArchiveSent (attempts : Nat) : S2State :=
  { oneArchive.idle .empty with
    phase := .waiting
    attempts := (oneArchive.idle .empty).attempts.insert (0, 10) attempts }

theorem oneArchive_first (htargets : oneArchive.targets = [(0, 10)]) :
    oneArchive.turn oneArchive.opened.state (.sent (0, 10) true) = some (oneArchiveSent 1) := by
  have hstart : oneArchive.opened.state = { oneArchive.idle .empty with phase := .wave [(0, 10)] } := by
    show oneArchive.sendRest oneArchive.targets (oneArchive.idle .empty) = _
    rw [htargets]
    rfl
  rw [hstart]
  exact congrArg some (oneArchive_loopHead rfl)

end

/-- The push is handed over, refused, and handed over again. -/
def refusedPush : List S2Entry :=
  [.sent (0, 10) true,
    .read (.shardReceivedV2 10 (.pushAck Hash.zero 0 (some [])) ⟨10, .v2Push Hash.zero 0⟩),
    .sent (0, 10) true]

theorem refused_push_is_sent_again :
    letI := AssignmentScore.flat
    ∃ b, Run oneArchive.RegularTurn oneArchive.opened refusedPush b ∧
      (b.log (0, 10)).sends = 2 ∧ oneArchive.Retried b := by
  let _ := AssignmentScore.flat
  have htargets : oneArchive.targets = [(0, 10)] := by decide +kernel
  let refused : S2State :=
    { oneArchiveSent 1 with
      phase := .retrying (0, 10)
      attempts := (oneArchiveSent 1).attempts.insert (0, 10) 2 }
  have hread : ∀ origin, oneArchive.turn (oneArchiveSent 1)
      (.read (.shardReceivedV2 10 (.pushAck Hash.zero 0 (some [])) origin)) = some refused := by
    intro origin
    have hlook : (oneArchiveSent 1).attempts.lookup (0, 10) = some 1 := AList.lookup_insert _
    show some (oneArchive.onEvent (oneArchiveSent 1) _) = some refused
    unfold PushJob.onEvent
    dsimp only
    rw [if_neg (show ¬ Hash.zero ≠ oneArchive.merkleRoot from not_not.mpr rfl), hlook]
    rfl
  have hrun : Run oneArchive.RegularTurn oneArchive.opened refusedPush
      ⟨oneArchive.loopHead refused, _⟩ :=
    .cons (t := ⟨oneArchiveSent 1, _⟩) ⟨rfl, oneArchive_first htargets, rfl⟩
      (.cons (t := ⟨refused, _⟩) ⟨fun _ _ ⟨_, _, hfails, _⟩ => (nomatch hfails), hread _, rfl⟩
        (.single ⟨rfl, rfl, rfl⟩))
  exact ⟨_, hrun, rfl, (PushJob.s2PushChunks_keeps_retries oneArchive).2 _ _ hrun⟩

/-- The push is handed over, its request fails, the timer runs out. -/
def failedRequest : List S2Entry :=
  [.sent (0, 10) true, .read (.shardRequestFailed 10 [] ⟨10, .v2Push Hash.zero 0⟩), .deadline]

theorem failed_request_is_not_retried :
    letI := AssignmentScore.flat
    ∃ b, Run oneArchive.Turn oneArchive.opened failedRequest b ∧ ¬ oneArchive.Retried b := by
  let _ := AssignmentScore.flat
  have htargets : oneArchive.targets = [(0, 10)] := by decide +kernel
  have hread : ∀ error origin, oneArchive.turn (oneArchiveSent 1)
      (.read (.shardRequestFailed 10 error origin)) = some (oneArchiveSent 1) :=
    fun error origin => congrArg some (oneArchive_loopHead rfl)
  have hunder : 0 ∈ underReplicated (oneArchiveSent 1).ackedPerChunk oneArchive.chunksToPush
      oneArchive.assignmentReplicationFactor := by
    unfold underReplicated
    rw [Finset.mem_sort, Finset.mem_filter]
    exact ⟨Finset.mem_singleton_self 0, rfl⟩
  obtain ⟨f, haudit, hf⟩ : ∃ f, oneArchive.audit (oneArchiveSent 1) = .error f ∧
      0 ∈ f.underReplicated := by
    unfold PushJob.audit
    split
    · rename_i hnil
      rw [hnil] at hunder
      cases hunder
    · exact ⟨_, rfl, hunder⟩
  refine ⟨⟨{ oneArchiveSent 1 with phase := .returned (oneArchive.audit (oneArchiveSent 1)) }, _⟩,
    .cons (t := ⟨oneArchiveSent 1, _⟩) ⟨oneArchive_first htargets, rfl⟩
      (.cons (t := ⟨oneArchiveSent 1, _⟩) ⟨hread _ _, rfl⟩ (.single ⟨rfl, rfl⟩)), fun h => ?_⟩
  rcases h.reported f (congrArg S2Phase.returned haudit) 0 hf Nat.one_pos 0 (by decide +kernel) 10
    (by decide +kernel) with ⟨peers, hlook, -⟩ | hsends | hout
  · cases hlook
  · exact absurd hsends (by decide)
  · exact absurd hout (by decide)

end Snip
