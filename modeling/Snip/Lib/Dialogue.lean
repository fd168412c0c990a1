/-
Programs that talk to an environment.

The environment answers each question from a state of its own that the program never
sees, so its answers may change from one call to the next in any way at all.  What was
asked and answered, oldest first, is the log of the program.  A specification relates the
log to the result, and holds whatever the environment is.
-/
import Mathlib.Data.List.Basic

/-- A program over environments `σ`: its result, its log, and what it leaves behind. -/
def Dialogue (σ ε α : Type) : Type := σ → α × List ε × σ

namespace Dialogue

variable {σ ε α β : Type}

instance : Monad (Dialogue σ ε) where
  pure a := fun s => (a, [], s)
  bind m f := fun s =>
    let (a, log, s) := m s
    let (b, log', s) := f a s
    (b, log ++ log', s)

/-- One question; the log entry tells the answer. -/
def ask (question : σ → α × σ) (entry : α → ε) : Dialogue σ ε α := fun s =>
  let (answer, s) := question s
  (answer, [entry answer], s)

/-- Whatever the environment answers, log and result are related by `P`. -/
def Ensures (m : Dialogue σ ε α) (P : List ε → α → Prop) : Prop :=
  ∀ s, P (m s).2.1 (m s).1

theorem Ensures.pure {P : List ε → α → Prop} {a : α} (h : P [] a) :
    Ensures (Pure.pure a : Dialogue σ ε α) P := by
  intro s
  exact h

theorem Ensures.bind {m : Dialogue σ ε α} {f : α → Dialogue σ ε β} {P : List ε → α → Prop}
    {Q : List ε → β → Prop} (hm : Ensures m P)
    (hf : ∀ log a, P log a → Ensures (f a) fun log' b => Q (log ++ log') b) :
    Ensures (m >>= f) Q := by
  intro s
  exact hf _ _ (hm s) (m s).2.2

theorem Ensures.mono {m : Dialogue σ ε α} {P Q : List ε → α → Prop} (hm : Ensures m P)
    (h : ∀ log a, P log a → Q log a) : Ensures m Q := by
  intro s
  exact h _ _ (hm s)

theorem Ensures.and {m : Dialogue σ ε α} {P Q : List ε → α → Prop} (hP : Ensures m P)
    (hQ : Ensures m Q) : Ensures m fun log a => P log a ∧ Q log a := by
  intro s
  exact ⟨hP s, hQ s⟩

/-- A question first: its entry heads the log, and any answer has to be dealt with. -/
theorem Ensures.ask {question : σ → α × σ} {entry : α → ε} {f : α → Dialogue σ ε β}
    {Q : List ε → β → Prop}
    (hf : ∀ answer, Ensures (f answer) fun log b => Q (entry answer :: log) b) :
    Ensures (Dialogue.ask question entry >>= f) Q := by
  intro s
  exact hf _ _

/-- A question whose answer is always the same. -/
theorem Ensures.ask_known {question : σ → α × σ} {entry : α → ε} {f : α → Dialogue σ ε β}
    {Q : List ε → β → Prop} {answer : α} (hanswer : ∀ s, (question s).1 = answer)
    (hf : Ensures (f answer) fun log b => Q (entry answer :: log) b) :
    Ensures (Dialogue.ask question entry >>= f) Q := by
  intro s
  have hnext := hf (question s).2
  rw [← hanswer s] at hnext
  exact hnext

/-- The same program with its log in other words. -/
def relabel {ε' : Type} (f : ε → ε') (m : Dialogue σ ε α) : Dialogue σ ε' α := fun s =>
  let (a, log, s) := m s
  (a, log.map f, s)

theorem relabel_ask {ε' : Type} (f : ε → ε') (question : σ → α × σ) (entry : α → ε) :
    relabel f (ask question entry) = ask question fun answer => f (entry answer) :=
  rfl

theorem relabel_bind {ε' : Type} (f : ε → ε') (m : Dialogue σ ε α) (g : α → Dialogue σ ε β) :
    relabel f (m >>= g) = relabel f m >>= fun a => relabel f (g a) := by
  funext s
  show (_, ((m s).2.1 ++ _).map f, _) = (_, (m s).2.1.map f ++ _, _)
  rw [List.map_append]

theorem Ensures.relabel {ε' : Type} {f : ε → ε'} {m : Dialogue σ ε α}
    {P : List ε' → α → Prop} (hm : Ensures m fun log a => P (log.map f) a) :
    Ensures (relabel f m) P := by
  intro s
  exact hm s

/-! ### An effect that happens at most once -/

section

variable {κ : Type} {mark : ε → Option κ} {Q : List ε → κ → Prop}

/-- No entry carries a mark. -/
def Quiet (mark : ε → Option κ) (log : List ε) : Prop := ∀ e ∈ log, mark e = none

/-- At most one entry carries a mark, and what stands before it justifies it. -/
def AtMostOnce (mark : ε → Option κ) (Q : List ε → κ → Prop) (log : List ε) : Prop :=
  Quiet mark log ∨ ∃ before entry after k, log = before ++ entry :: after ∧
    Quiet mark before ∧ mark entry = some k ∧ Quiet mark after ∧ Q before k

theorem quiet_nil : Quiet mark [] := by
  intro e he
  cases he

theorem quiet_cons {e : ε} {log : List ε} :
    Quiet mark (e :: log) ↔ mark e = none ∧ Quiet mark log :=
  List.forall_mem_cons

theorem quiet_append {log log' : List ε} :
    Quiet mark (log ++ log') ↔ Quiet mark log ∧ Quiet mark log' :=
  List.forall_mem_append

theorem AtMostOnce.of_quiet {log : List ε} (h : Quiet mark log) : AtMostOnce mark Q log := .inl h

theorem AtMostOnce.mono {Q' : List ε → κ → Prop} {log : List ε} (h : AtMostOnce mark Q log)
    (hQ : ∀ before k, Q before k → Q' before k) : AtMostOnce mark Q' log := by
  rcases h with h | ⟨before, entry, after, k, hlog, hbefore, hmark, hafter, hk⟩
  · exact .inl h
  · exact .inr ⟨before, entry, after, k, hlog, hbefore, hmark, hafter, hQ before k hk⟩

/-- What is put in front of the log counts for the justification. -/
theorem AtMostOnce.append {pre log : List ε} (hpre : Quiet mark pre)
    (h : AtMostOnce mark (fun before k => Q (pre ++ before) k) log) :
    AtMostOnce mark Q (pre ++ log) := by
  rcases h with h | ⟨before, entry, after, k, rfl, hbefore, hmark, hafter, hQ⟩
  · exact .inl (quiet_append.mpr ⟨hpre, h⟩)
  · refine .inr ⟨pre ++ before, entry, after, k, ?_, ?_, hmark, hafter, hQ⟩
    · rw [List.append_assoc]
    · exact quiet_append.mpr ⟨hpre, hbefore⟩

theorem AtMostOnce.cons {e : ε} {log : List ε} (he : mark e = none)
    (h : AtMostOnce mark (fun before k => Q (e :: before) k) log) :
    AtMostOnce mark Q (e :: log) :=
  AtMostOnce.append (quiet_cons.mpr ⟨he, quiet_nil⟩) h

theorem AtMostOnce.append_quiet {log rest : List ε} (h : AtMostOnce mark Q log)
    (hrest : Quiet mark rest) : AtMostOnce mark Q (log ++ rest) := by
  rcases h with h | ⟨before, entry, after, k, rfl, hbefore, hmark, hafter, hQ⟩
  · exact .inl (quiet_append.mpr ⟨h, hrest⟩)
  · refine .inr ⟨before, entry, after ++ rest, k, ?_, hbefore, hmark, ?_, hQ⟩
    · rw [List.append_assoc, List.cons_append]
    · exact quiet_append.mpr ⟨hafter, hrest⟩

theorem filterMap_eq_nil_of_quiet {log : List ε} (h : Quiet mark log) :
    log.filterMap mark = [] :=
  List.filterMap_eq_nil_iff.mpr h

theorem AtMostOnce.length_le {log : List ε} (h : AtMostOnce mark Q log) :
    (log.filterMap mark).length ≤ 1 := by
  rcases h with h | ⟨before, entry, after, k, rfl, hbefore, hmark, hafter, -⟩
  · rw [filterMap_eq_nil_of_quiet h]
    exact Nat.zero_le 1
  · rw [List.filterMap_append, List.filterMap_cons_some hmark, filterMap_eq_nil_of_quiet hbefore,
      filterMap_eq_nil_of_quiet hafter]
    exact Nat.le_refl 1

/-- Wherever a marked entry stands, what is before it justifies it. -/
theorem AtMostOnce.at {before after : List ε} {entry : ε} {k : κ} (hmark : mark entry = some k)
    (h : AtMostOnce mark Q (before ++ entry :: after)) : Q before k := by
  rcases h with h | ⟨before', entry', after', k', heq, hbefore, hmark', hafter, hQ⟩
  · have hnone := h entry (by simp)
    rw [hmark] at hnone
    cases hnone
  · -- the marked entries are one and the same, or one would stand in a quiet part
    rcases List.append_eq_append_iff.mp heq with ⟨mid, rfl, hmid⟩ | ⟨mid, rfl, hmid⟩
    · cases mid with
      | nil =>
          obtain ⟨rfl, -⟩ := List.cons.inj hmid
          rw [hmark] at hmark'
          cases hmark'
          simpa using hQ
      | cons x mid =>
          obtain ⟨rfl, -⟩ := List.cons.inj hmid
          have hnone := hbefore entry (by simp)
          rw [hmark] at hnone
          cases hnone
    · cases mid with
      | nil =>
          obtain ⟨rfl, -⟩ := List.cons.inj hmid
          rw [hmark] at hmark'
          cases hmark'
          simpa using hQ
      | cons x mid =>
          obtain ⟨rfl, rfl⟩ := List.cons.inj hmid
          have hnone := hafter entry (by simp)
          rw [hmark] at hnone
          cases hnone

end

/-! ### Programs that may stop

Every step either goes on with a value or ends the program with an error, and what came
before it stays in the log.
-/

section

variable {δ κ : Type} {mark : ε → Option κ}

/-- A question whose error ends the program. -/
def query {γ : Type} (question : σ → Except γ α × σ) (entry : Except γ α → ε) (onError : γ → δ) :
    ExceptT δ (Dialogue σ ε) α :=
  ExceptT.mk do
    let answer ← ask question entry
    return answer.mapError onError

/-- A value that is known already, or the error that ends the program. -/
def orStop (result : Except δ α) : ExceptT δ (Dialogue σ ε) α := ExceptT.mk (pure result)

/-- Nothing marked happens, and where the program goes on, `K` relates log and value. -/
def Gathers (mark : ε → Option κ) (m : ExceptT δ (Dialogue σ ε) α) (K : List ε → α → Prop) :
    Prop :=
  Ensures m.run fun log out => Quiet mark log ∧ ∀ a, out = .ok a → K log a

/-- At most one marked entry, justified by what stands before it, however the program ends. -/
def Commits (mark : ε → Option κ) (m : ExceptT δ (Dialogue σ ε) α) (Q : List ε → κ → Prop) :
    Prop :=
  Ensures m.run fun log _ => AtMostOnce mark Q log

variable {m : ExceptT δ (Dialogue σ ε) α} {f : α → ExceptT δ (Dialogue σ ε) β}
  {K : List ε → α → Prop}

/-- A step that goes on, and what follows it. -/
theorem run_bind_ok {a : α} {b : Except δ β} {log log' : List ε} {s s' s'' : σ}
    (hm : m.run s = (.ok a, log, s')) (hf : (f a).run s' = (b, log', s'')) :
    (m >>= f).run s = (b, log ++ log', s'') := by
  have hrun : (m >>= f).run s = ((ExceptT.bindCont f (m.run s).1 (m.run s).2.2).1,
      (m.run s).2.1 ++ (ExceptT.bindCont f (m.run s).1 (m.run s).2.2).2.1,
      (ExceptT.bindCont f (m.run s).1 (m.run s).2.2).2.2) := rfl
  rw [hrun, hm]
  have hnext : ExceptT.bindCont f (Except.ok a) s' = (b, log', s'') := hf
  rw [hnext]

theorem Gathers.pure {a : α} (h : K [] a) :
    Gathers mark (Pure.pure a : ExceptT δ (Dialogue σ ε) α) K := by
  refine Ensures.pure ⟨quiet_nil, ?_⟩
  intro a' ha'
  cases ha'
  exact h

theorem Gathers.throw {e : δ} : Gathers mark (throw e : ExceptT δ (Dialogue σ ε) α) K := by
  refine Ensures.pure ⟨quiet_nil, ?_⟩
  intro a ha
  cases ha

theorem Gathers.mono {K' : List ε → α → Prop} (hm : Gathers mark m K)
    (h : ∀ log a, K log a → K' log a) : Gathers mark m K' := by
  refine Ensures.mono hm ?_
  intro log out hlog
  exact ⟨hlog.1, fun a ha => h log a (hlog.2 a ha)⟩

theorem Gathers.bind {K' : List ε → β → Prop} (hm : Gathers mark m K)
    (hf : ∀ log a, K log a → Gathers mark (f a) fun log' b => K' (log ++ log') b) :
    Gathers mark (m >>= f) K' := by
  show Ensures (m.run >>= ExceptT.bindCont f) _
  refine Ensures.bind hm ?_
  intro log out hlog
  cases out with
  | error e =>
      refine Ensures.pure ⟨?_, ?_⟩
      · rw [List.append_nil]
        exact hlog.1
      · intro b hb
        cases hb
  | ok a =>
      refine Ensures.mono (hf log a (hlog.2 a rfl)) ?_
      intro log' out' hlog'
      exact ⟨quiet_append.mpr ⟨hlog.1, hlog'.1⟩, hlog'.2⟩

/-- A query: its answer is in the log, and the program goes on with it. -/
theorem Gathers.query {γ : Type} {question : σ → Except γ α × σ} {entry : Except γ α → ε}
    {onError : γ → δ} (hentry : ∀ answer, mark (entry answer) = none) :
    Gathers mark (Dialogue.query question entry onError) fun log a => log = [entry (.ok a)] := by
  intro s
  show Quiet mark [entry (question s).1] ∧
    ∀ a, (question s).1.mapError onError = .ok a → [entry (question s).1] = [entry (.ok a)]
  refine ⟨quiet_cons.mpr ⟨hentry _, quiet_nil⟩, ?_⟩
  intro a ha
  cases hanswer : (question s).1 with
  | error e =>
      rw [hanswer] at ha
      cases ha
  | ok a' =>
      rw [hanswer] at ha
      cases ha
      rfl

theorem Gathers.orStop {result : Except δ α} :
    Gathers mark (Dialogue.orStop result : ExceptT δ (Dialogue σ ε) α) fun log a =>
      log = [] ∧ result = .ok a := by
  refine Ensures.pure ⟨quiet_nil, ?_⟩
  intro a ha
  exact ⟨rfl, ha⟩

theorem Gathers.lift {p : Dialogue σ ε α} (hp : Ensures p fun log _ => Quiet mark log) :
    Gathers mark (ExceptT.lift p : ExceptT δ (Dialogue σ ε) α) fun _ _ => True := by
  show Ensures (p >>= fun a => Pure.pure (Except.ok a)) _
  refine Ensures.bind hp ?_
  intro log a hlog
  refine Ensures.pure ⟨?_, fun _ _ => trivial⟩
  rw [List.append_nil]
  exact hlog

/-- What was gathered counts for the justification. -/
theorem Gathers.commits {Q : List ε → κ → Prop} (hm : Gathers mark m K)
    (hf : ∀ log a, K log a → Commits mark (f a) fun before k => Q (log ++ before) k) :
    Commits mark (m >>= f) Q := by
  show Ensures (m.run >>= ExceptT.bindCont f) _
  refine Ensures.bind hm ?_
  intro log out hlog
  cases out with
  | error e =>
      refine Ensures.pure ?_
      rw [List.append_nil]
      exact .of_quiet hlog.1
  | ok a =>
      refine Ensures.mono (hf log a (hlog.2 a rfl)) ?_
      intro log' _ hlog'
      exact AtMostOnce.append hlog.1 hlog'

theorem Commits.throw {Q : List ε → κ → Prop} {e : δ} :
    Commits mark (throw e : ExceptT δ (Dialogue σ ε) α) Q :=
  Ensures.pure (.of_quiet quiet_nil)

/-- The marked query itself. -/
theorem Commits.query {γ : Type} {Q : List ε → κ → Prop} {question : σ → Except γ α × σ}
    {entry : Except γ α → ε} {onError : γ → δ} {k : κ}
    (hentry : ∀ answer, mark (entry answer) = some k) (h : Q [] k) :
    Commits mark (Dialogue.query question entry onError) Q := by
  intro s
  exact .inr ⟨[], _, [], k, rfl, quiet_nil, hentry _, quiet_nil, h⟩

theorem Commits.mono {Q Q' : List ε → κ → Prop} (hm : Commits mark m Q)
    (h : ∀ before k, Q before k → Q' before k) : Commits mark m Q' := by
  refine Ensures.mono hm ?_
  intro log _ hlog
  exact hlog.mono h

/-- A program that commits, and after which nothing marked happens any more. -/
theorem Commits.bind {Q : List ε → κ → Prop} (hm : Commits mark m Q)
    (hf : ∀ a, Gathers mark (f a) fun _ _ => True) : Commits mark (m >>= f) Q := by
  show Ensures (m.run >>= ExceptT.bindCont f) _
  refine Ensures.bind hm ?_
  intro log out hlog
  cases out with
  | error e =>
      refine Ensures.pure ?_
      rw [List.append_nil]
      exact hlog
  | ok a =>
      refine Ensures.mono (hf a) ?_
      intro log' _ hlog'
      exact hlog.append_quiet hlog'.1

end

end Dialogue
