/-
Programs with two exits.

A stage of a longer program goes on with a value or leaves with an error, and both exits
matter to the caller: what was asked and answered by then is in the log in either case.
So a specification has two parts, one for each exit.  The caller may put the error of a
stage in words of its own.
-/
import Snip.Lib.Dialogue
import Snip.Lib.Steps

namespace Dialogue

variable {σ ε δ δ' α β : Type} {K K' : List ε → α → Prop} {E E' : List ε → δ → Prop}

/-- What holds of the log at the exit that was taken. -/
def AtExit (K : List ε → α → Prop) (E : List ε → δ → Prop) (log : List ε) : Except δ α → Prop
  | .ok a => K log a
  | .error e => E log e

/-- Where the stage goes on, `K` holds; where it leaves, `E`. -/
def Exits (m : ExceptT δ (Dialogue σ ε) α) (K : List ε → α → Prop) (E : List ε → δ → Prop) :
    Prop :=
  Ensures m.run (AtExit K E)

theorem Exits.pure {a : α} (h : K [] a) :
    Exits (Pure.pure a : ExceptT δ (Dialogue σ ε) α) K E :=
  Ensures.pure h

theorem Exits.throw {e : δ} (h : E [] e) :
    Exits (throw e : ExceptT δ (Dialogue σ ε) α) K E :=
  Ensures.pure h

theorem Exits.orStop {result : Except δ α} (h : AtExit K E [] result) :
    Exits (Dialogue.orStop result : ExceptT δ (Dialogue σ ε) α) K E :=
  Ensures.pure h

theorem Exits.mono {m : ExceptT δ (Dialogue σ ε) α} (hm : Exits m K E)
    (hK : ∀ log a, K log a → K' log a) (hE : ∀ log e, E log e → E' log e) : Exits m K' E' := by
  refine Ensures.mono hm ?_
  intro log out hlog
  cases out with
  | ok a => exact hK log a hlog
  | error e => exact hE log e hlog

theorem Exits.and {m : ExceptT δ (Dialogue σ ε) α} (hm : Exits m K E) (hm' : Exits m K' E') :
    Exits m (fun log a => K log a ∧ K' log a) fun log e => E log e ∧ E' log e := by
  intro s
  have h := hm s
  have h' := hm' s
  generalize (m.run s).1 = out at h h' ⊢
  cases out with
  | ok a => exact ⟨h, h'⟩
  | error e => exact ⟨h, h'⟩

/-- Two stages, one after the other: each of them may leave. -/
theorem Exits.bind {m : ExceptT δ (Dialogue σ ε) α} {f : α → ExceptT δ (Dialogue σ ε) β}
    {L : List ε → β → Prop} (hm : Exits m K E) (hE : ∀ log e, E log e → E' log e)
    (hf : ∀ log a, K log a →
      Exits (f a) (fun log' b => L (log ++ log') b) fun log' e => E' (log ++ log') e) :
    Exits (m >>= f) L E' := by
  show Ensures (m.run >>= ExceptT.bindCont f) _
  refine Ensures.bind hm ?_
  intro log out hlog
  cases out with
  | error e =>
      refine Ensures.pure ?_
      rw [List.append_nil]
      exact hE log e hlog
  | ok a =>
      refine Ensures.mono (hf log a hlog) ?_
      intro log' out' hlog'
      cases out' with
      | ok b => exact hlog'
      | error e => exact hlog'

/-- A program that does not leave, as a stage. -/
theorem Exits.lift {p : Dialogue σ ε α} (hp : Ensures p K) :
    Exits (ExceptT.lift p : ExceptT δ (Dialogue σ ε) α) K E := by
  show Ensures (p >>= fun a => Pure.pure (Except.ok a)) _
  refine Ensures.bind hp ?_
  intro log a hlog
  refine Ensures.pure ?_
  rw [List.append_nil]
  exact hlog

/-- A question, whatever the answer is. -/
theorem Exits.ask {question : σ → α × σ} {entry : α → ε} :
    Exits (ExceptT.lift (Dialogue.ask question entry) : ExceptT δ (Dialogue σ ε) α)
      (fun log answer => log = [entry answer]) E := by
  refine Exits.lift ?_
  intro s
  rfl

/-- A question whose error makes the stage leave. -/
theorem Exits.query {γ : Type} {question : σ → Except γ α × σ} {entry : Except γ α → ε}
    {onError : γ → δ} :
    Exits (Dialogue.query question entry onError) (fun log a => log = [entry (.ok a)])
      fun log e => ∃ reason, log = [entry (.error reason)] ∧ e = onError reason := by
  intro s
  show AtExit _ _ [entry (question s).1] ((question s).1.mapError onError)
  cases (question s).1 with
  | ok a => rfl
  | error reason => exact ⟨reason, rfl, rfl⟩

/-- The caller's words for the error of a stage. -/
theorem Exits.adapt {m : ExceptT δ (Dialogue σ ε) α} {f : δ → δ'} {F : List ε → δ' → Prop}
    (hm : Exits m K E) (h : ∀ log e, E log e → F log (f e)) :
    Exits (ExceptT.adapt f m) K F := by
  show Ensures (m.run >>= fun out => Pure.pure (out.mapError f)) _
  refine Ensures.bind hm ?_
  intro log out hlog
  refine Ensures.pure ?_
  rw [List.append_nil]
  cases out with
  | ok a => exact hlog
  | error e => exact h log e hlog

/-! ### Stages without a marked entry -/

section

variable {κ : Type} {mark : ε → Option κ} {m : ExceptT δ (Dialogue σ ε) α}

theorem Gathers.exits (h : Gathers mark m K) :
    Exits m (fun log a => Quiet mark log ∧ K log a) fun log _ => Quiet mark log := by
  refine Ensures.mono h ?_
  intro log out hlog
  cases out with
  | ok a => exact ⟨hlog.1, hlog.2 a rfl⟩
  | error e => exact hlog.1

/-- What holds where the stage goes on, whatever it leaves with. -/
theorem Gathers.goesOn (h : Gathers mark m K) : Exits m K fun _ _ => True :=
  h.exits.mono (fun _ _ hlog => hlog.2) fun _ _ _ => trivial

theorem Exits.gathers (h : Exits m (fun log a => Quiet mark log ∧ K log a)
    fun log _ => Quiet mark log) : Gathers mark m K := by
  refine Ensures.mono h ?_
  intro log out hlog
  cases out with
  | ok a =>
      refine ⟨hlog.1, ?_⟩
      intro a' ha'
      obtain rfl := Except.ok.inj ha'
      exact hlog.2
  | error e => exact ⟨hlog, nofun⟩

/-- The caller's words for the error of a stage. -/
theorem Gathers.adapt (h : Gathers mark m K) (f : δ → δ') :
    Gathers mark (ExceptT.adapt f m) K :=
  (h.exits.adapt fun _ _ hlog => hlog).gathers

/-- A question, whatever the answer is. -/
theorem Gathers.ask {question : σ → α × σ} {entry : α → ε}
    (hentry : ∀ answer, mark (entry answer) = none) :
    Gathers mark (ExceptT.lift (Dialogue.ask question entry) : ExceptT δ (Dialogue σ ε) α)
      fun log answer => log = [entry answer] := by
  intro s
  refine ⟨quiet_cons.mpr ⟨hentry _, quiet_nil⟩, ?_⟩
  intro answer hanswer
  obtain rfl := Except.ok.inj hanswer
  rfl

end

/-! ### Moments

What an environment answers may depend on what it was asked before.  So what a program can
count on is said of moments: a state of the environment with the calls that led there.
-/

/-- A state that the environment gets to, and the calls that led there from the start. -/
structure Moment (step : σ → ε → σ → Prop) (start : σ) where
  past : List ε
  state : σ
  reached : Run step start past state

namespace Moment

variable {step : σ → ε → σ → Prop} {start : σ}

/-- Before anything was asked. -/
def first (step : σ → ε → σ → Prop) (start : σ) : Moment step start := ⟨[], start, .nil start⟩

/-- One call later. -/
def next (h : Moment step start) {e : ε} {s' : σ} (hstep : step h.state e s') :
    Moment step start :=
  ⟨h.past ++ [e], s', h.reached.append (.single hstep)⟩

end Moment

/-! ### Programs that go on

An environment that answers well takes a stage to its value.
-/

section

variable {step : σ → ε → σ → Prop} {start : σ} {h h' h'' : Moment step start}

/-- From the moment `h` the program gets to `h'` with the result `a`. -/
def Gives (m : Dialogue σ ε α) (h : Moment step start) (a : α) (h' : Moment step start) : Prop :=
  ∃ log, m h.state = (a, log, h'.state) ∧ h'.past = h.past ++ log

theorem Gives.pure (a : α) (h : Moment step start) :
    Gives (Pure.pure a : Dialogue σ ε α) h a h :=
  ⟨[], rfl, (List.append_nil _).symm⟩

theorem Gives.bind {m : Dialogue σ ε α} {f : α → Dialogue σ ε β} {a : α} {b : β}
    (hm : Gives m h a h') (hf : Gives (f a) h' b h'') : Gives (m >>= f) h b h'' := by
  obtain ⟨log, hm, hpast⟩ := hm
  obtain ⟨log', hf, hpast'⟩ := hf
  refine ⟨log ++ log', ?_, ?_⟩
  · show ((f (m h.state).1 (m h.state).2.2).1,
      (m h.state).2.1 ++ (f (m h.state).1 (m h.state).2.2).2.1,
      (f (m h.state).1 (m h.state).2.2).2.2) = _
    rw [hm, hf]
  · rw [hpast', hpast, List.append_assoc]

/-- A question with its answer. -/
theorem Gives.ask {question : σ → α × σ} {entry : α → ε} {s' : σ} {answer : α}
    (hanswer : question h.state = (answer, s')) (hstep : step h.state (entry answer) s') :
    Gives (Dialogue.ask question entry) h answer (h.next hstep) := by
  refine ⟨[entry answer], ?_, rfl⟩
  show ((question h.state).1, [entry (question h.state).1], (question h.state).2) = _
  rw [hanswer]
  rfl

/-- What holds of the log of such a program, of which the past is the longer by it. -/
theorem Gives.ensures {m : Dialogue σ ε α} {a : α} {P : List ε → α → Prop} (hm : Gives m h a h')
    (hP : Ensures m P) : ∃ log, h'.past = h.past ++ log ∧ P log a := by
  obtain ⟨log, hm, hpast⟩ := hm
  refine ⟨log, hpast, ?_⟩
  have hlog := hP h.state
  rwa [hm] at hlog

/-- The stage goes on with `a`. -/
def Goes (m : ExceptT δ (Dialogue σ ε) α) (h : Moment step start) (a : α)
    (h' : Moment step start) : Prop :=
  Gives m.run h (.ok a) h'

theorem Goes.pure (a : α) (h : Moment step start) :
    Goes (Pure.pure a : ExceptT δ (Dialogue σ ε) α) h a h :=
  Gives.pure _ h

theorem Goes.bind {m : ExceptT δ (Dialogue σ ε) α} {f : α → ExceptT δ (Dialogue σ ε) β} {a : α}
    {b : β} (hm : Goes m h a h') (hf : Goes (f a) h' b h'') : Goes (m >>= f) h b h'' := by
  obtain ⟨log, hm, hpast⟩ := hm
  obtain ⟨log', hf, hpast'⟩ := hf
  refine ⟨log ++ log', run_bind_ok hm hf, ?_⟩
  rw [hpast', hpast, List.append_assoc]

theorem Goes.lift {p : Dialogue σ ε α} {a : α} (hp : Gives p h a h') :
    Goes (ExceptT.lift p : ExceptT δ (Dialogue σ ε) α) h a h' := by
  show Gives (p >>= fun a => Pure.pure (Except.ok a)) h (.ok a) h'
  exact Gives.bind hp (Gives.pure (Except.ok a) h')

/-- A question with its answer. -/
theorem Goes.ask {question : σ → α × σ} {entry : α → ε} {s' : σ} {answer : α}
    (hanswer : question h.state = (answer, s')) (hstep : step h.state (entry answer) s') :
    Goes (ExceptT.lift (Dialogue.ask question entry) : ExceptT δ (Dialogue σ ε) α) h answer
      (h.next hstep) :=
  Goes.lift (Gives.ask hanswer hstep)

theorem Goes.query {γ : Type} {question : σ → Except γ α × σ} {entry : Except γ α → ε}
    {onError : γ → δ} {s' : σ} {a : α} (hanswer : question h.state = (.ok a, s'))
    (hstep : step h.state (entry (.ok a)) s') :
    Goes (Dialogue.query question entry onError) h a (h.next hstep) := by
  show Gives (Dialogue.ask question entry >>= fun answer =>
    Pure.pure (answer.mapError onError)) h (.ok a) (h.next hstep)
  exact Gives.bind (Gives.ask hanswer hstep) (Gives.pure (Except.ok a) (h.next hstep))

theorem Goes.orStop {result : Except δ α} {a : α} (hresult : result = .ok a)
    (h : Moment step start) : Goes (Dialogue.orStop result : ExceptT δ (Dialogue σ ε) α) h a h := by
  subst hresult
  exact Goes.pure a h

theorem Goes.adapt {m : ExceptT δ (Dialogue σ ε) α} {a : α} (hm : Goes m h a h') (f : δ → δ') :
    Goes (ExceptT.adapt f m) h a h' := by
  show Gives (m.run >>= fun out => Pure.pure (out.mapError f)) h (.ok a) h'
  exact Gives.bind hm (Gives.pure (Except.ok a) h')

theorem Goes.exits {m : ExceptT δ (Dialogue σ ε) α} {a : α} (hm : Goes m h a h')
    (hK : Exits m K E) : ∃ log, h'.past = h.past ++ log ∧ K log a := by
  obtain ⟨log, hpast, hlog⟩ :=
    Gives.ensures (m := m.run) (P := AtExit K E) hm hK
  exact ⟨log, hpast, hlog⟩

theorem Goes.gathers {κ : Type} {mark : ε → Option κ} {m : ExceptT δ (Dialogue σ ε) α} {a : α}
    (hm : Goes m h a h') (hK : Gathers mark m K) :
    ∃ log, h'.past = h.past ++ log ∧ Quiet mark log ∧ K log a :=
  hm.exits hK.exits

end

end Dialogue
