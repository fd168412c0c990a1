/-
Machines that answer: a state, and for each input a next state and an answer.

What a machine has been asked and has answered is its transcript.  An invariant that
links state and transcript holds before every entry of every transcript, and the entry
is then the answer of one step from a state that satisfies it.
-/
import Mathlib.Data.List.Basic
import Mathlib.Data.List.Induction
import Mathlib.Data.List.TakeDrop

namespace Transcript

variable {σ ι ο : Type}

/-- The state after the inputs. -/
def final (step : σ → ι → σ × ο) (s : σ) (inputs : List ι) : σ :=
  inputs.foldl (fun s input => (step s input).1) s

/-- The inputs with their answers, oldest first. -/
def answers (step : σ → ι → σ × ο) : σ → List ι → List (ι × ο)
  | _, [] => []
  | s, input :: inputs => (input, (step s input).2) :: answers step (step s input).1 inputs

variable {step : σ → ι → σ × ο} {s : σ}

theorem answers_append : ∀ (inputs inputs' : List ι) (s : σ),
    answers step s (inputs ++ inputs')
      = answers step s inputs ++ answers step (final step s inputs) inputs' := by
  intro inputs inputs'
  induction inputs with
  | nil =>
      intro s
      rfl
  | cons input inputs ih =>
      intro s
      rw [List.cons_append, answers, answers, ih]
      rfl

theorem final_snoc (inputs : List ι) (input : ι) :
    final step s (inputs ++ [input]) = (step (final step s inputs) input).1 := by
  simp [final]

theorem length_answers : ∀ (inputs : List ι) (s : σ), (answers step s inputs).length = inputs.length := by
  intro inputs
  induction inputs with
  | nil =>
      intro s
      rfl
  | cons input inputs ih =>
      intro s
      rw [answers, List.length_cons, List.length_cons, ih]

/-- The invariant rule. -/
theorem invariant {P : List (ι × ο) → σ → Prop} (hnil : P [] s)
    (hstep : ∀ past s input, P past s → P (past ++ [(input, (step s input).2)]) (step s input).1) :
    ∀ inputs, P (answers step s inputs) (final step s inputs) := by
  intro inputs
  induction inputs using List.reverseRecOn with
  | nil => exact hnil
  | append_singleton inputs input ih =>
      rw [answers_append, final_snoc]
      exact hstep _ _ _ ih

theorem answers_take (inputs : List ι) (n : Nat) :
    answers step s (inputs.take n) = (answers step s inputs).take n := by
  conv => rhs; rw [← List.take_append_drop n inputs, answers_append]
  rcases Nat.le_total n inputs.length with h | h
  · rw [List.take_left' (by rw [length_answers, List.length_take, Nat.min_eq_left h])]
  · rw [List.drop_eq_nil_of_le h, List.take_of_length_le h]
    rw [answers, List.append_nil, List.take_of_length_le]
    rw [length_answers]
    exact h

/-- The state before an entry: it satisfies the invariant, and the entry is its answer. -/
theorem invariant_at {P : List (ι × ο) → σ → Prop} (hnil : P [] s)
    (hstep : ∀ past s input, P past s → P (past ++ [(input, (step s input).2)]) (step s input).1)
    {inputs : List ι} {n : Nat} {input : ι} {answer : ο}
    (h : (answers step s inputs)[n]? = some (input, answer)) :
    ∃ t, P ((answers step s inputs).take n) t ∧ (step t input).2 = answer := by
  refine ⟨final step s (inputs.take n), ?_, ?_⟩
  · rw [← answers_take]
    exact invariant hnil hstep _
  · obtain ⟨hn, -⟩ := List.getElem?_eq_some_iff.mp h
    rw [length_answers] at hn
    have hsplit : inputs = inputs.take n ++ inputs[n] :: inputs.drop (n + 1) := by
      rw [List.getElem_cons_drop hn, List.take_append_drop]
    rw [hsplit, answers_append, List.getElem?_append_right] at h
    · rw [length_answers, List.length_take, Nat.min_eq_left (Nat.le_of_lt hn), Nat.sub_self] at h
      cases h
      rfl
    · rw [length_answers, List.length_take]
      omega

end Transcript
