/-
Runs of a system of tasks.

A step relation with labels says which task moves and how.  A run is a list of
labels, so what holds along every interleaving holds along every run.  Two rules:
what each step preserves (together with what it adds to the history) holds at the
end, and a number that each step lowers bounds the length of every run.
-/
import Mathlib.Algebra.GroupWithZero.Nat
import Mathlib.Data.List.Basic
import Mathlib.Algebra.BigOperators.Group.List.Basic

/-- The labels of a list, one after the other, lead from one state to another. -/
inductive Run {σ ℓ : Type} (step : σ → ℓ → σ → Prop) : σ → List ℓ → σ → Prop
  | nil (s : σ) : Run step s [] s
  | cons {s t u : σ} {l : ℓ} {ls : List ℓ} :
      step s l t → Run step t ls u → Run step s (l :: ls) u

namespace Run

variable {σ ℓ : Type} {step : σ → ℓ → σ → Prop} {s t u : σ}

theorem single {l : ℓ} (h : step s l t) : Run step s [l] t := .cons h (.nil t)

theorem append {ls ls' : List ℓ} (h : Run step s ls t) (h' : Run step t ls' u) :
    Run step s (ls ++ ls') u := by
  induction h with
  | nil s => exact h'
  | cons hstep _ ih => exact .cons hstep (ih h')

/-- Steps of one system that are steps of another. -/
theorem mono {step' : σ → ℓ → σ → Prop} {ls : List ℓ} (h : Run step s ls t)
    (hstep : ∀ s l t, step s l t → step' s l t) : Run step' s ls t := by
  induction h with
  | nil s => exact .nil s
  | cons hl _ ih => exact .cons (hstep _ _ _ hl) ih

/-- Where the next state is computed, so is a run. -/
theorem of_foldlM {next : σ → ℓ → Option σ} {ls : List ℓ} (h : ls.foldlM next s = some t) :
    Run (fun s l t => next s l = some t) s ls t := by
  induction ls generalizing s with
  | nil =>
      cases h
      exact .nil _
  | cons l ls ih =>
      rw [List.foldlM_cons] at h
      obtain ⟨u, hu, ht⟩ := Option.bind_eq_some_iff.mp h
      exact .cons hu (ih ht)

/-- The invariant rule, over the labels so far and the state. -/
theorem invariant {P : List ℓ → σ → Prop} {ls : List ℓ} (h : Run step s ls t)
    (hstep : ∀ past s l t, P past s → step s l t → P (past ++ [l]) t) :
    ∀ past, P past s → P (past ++ ls) t := by
  induction h with
  | nil s =>
      intro past hp
      rwa [List.append_nil]
  | cons hl _ ih =>
      intro past hp
      have hnext := ih _ (hstep past _ _ _ hp hl)
      rwa [List.append_assoc] at hnext

/-- The termination rule: `weight` is what a label may put back. -/
theorem length_le {P : σ → Prop} {measure : σ → Nat} {weight : ℓ → Nat} {ls : List ℓ}
    (h : Run step s ls t)
    (hstep : ∀ s l t, P s → step s l t → P t ∧ measure t + 1 ≤ measure s + weight l) (hp : P s) :
    ls.length + measure t ≤ measure s + (ls.map weight).sum := by
  induction h with
  | nil s => simp
  | cons hl _ ih =>
      obtain ⟨hp', hlt⟩ := hstep _ _ _ hp hl
      have hrest := ih hp'
      simp only [List.length_cons, List.map_cons, List.sum_cons]
      omega

end Run
