/-
Tables kept along a run: some steps open a slot, some leave it, the others close it.

What such a table holds can be read off the labels alone.  A slot has a value exactly
when a label opened it with that value and every label since keeps it, so a log answers
for the table and the table for the log.
-/
import Snip.Lib.Steps

namespace Run

variable {σ ℓ κ β : Type} {step : σ → ℓ → σ → Prop} {s t u : σ} {l : ℓ} {ls : List ℓ}

/-! ### The parts of a run -/

/-- A run up to a label, its step, and the rest. -/
theorem split {before after : List ℓ} (h : Run step s (before ++ l :: after) u) :
    ∃ t t', Run step s before t ∧ step t l t' ∧ Run step t' after u := by
  induction before generalizing s with
  | nil =>
      cases h with
      | cons hstep hrest => exact ⟨_, _, .nil _, hstep, hrest⟩
  | cons l' before ih =>
      cases h with
      | cons hstep hrest =>
          obtain ⟨t, t', hbefore, hl, hafter⟩ := ih hrest
          exact ⟨t, t', .cons hstep hbefore, hl, hafter⟩

/-- What every step preserves. -/
theorem preserves {inv : σ → Prop} (h : Run step s ls t)
    (hstep : ∀ s l t, inv s → step s l t → inv t) (hs : inv s) : inv t :=
  h.invariant (P := fun _ => inv) (fun _ s l t => hstep s l t) [] hs

/-! ### Open slots -/

/-- Opened by a label, and kept by every label after it. -/
def Open (opens keeps : ℓ → κ → β → Prop) (ls : List ℓ) (k : κ) (v : β) : Prop :=
  ∃ before l after, ls = before ++ l :: after ∧ opens l k v ∧ ∀ l' ∈ after, keeps l' k v

/-- A table that changes only as the labels say, from states that satisfy an invariant. -/
structure KeepsTable (step : σ → ℓ → σ → Prop) (inv : σ → Prop) (table : σ → κ → Option β)
    (opens keeps : ℓ → κ → β → Prop) : Prop where
  invariant : ∀ s l t, inv s → step s l t → inv t
  changes : ∀ s l t k v, inv s → step s l t →
    (table t k = some v ↔ opens l k v ∨ (table s k = some v ∧ keeps l k v))

variable {opens keeps : ℓ → κ → β → Prop} {k : κ} {v : β}

theorem not_open_nil : ¬ Open opens keeps [] k v := by
  rintro ⟨before, l, after, h, -⟩
  cases before with
  | nil => cases h
  | cons l' before => cases h

theorem open_snoc :
    Open opens keeps (ls ++ [l]) k v ↔ opens l k v ∨ (Open opens keeps ls k v ∧ keeps l k v) := by
  constructor
  · rintro ⟨before, l', after, heq, hopens, hkeeps⟩
    rcases List.eq_nil_or_concat after with rfl | ⟨after', l'', rfl⟩
    · obtain ⟨-, hl⟩ := List.append_inj' heq rfl
      cases hl
      exact Or.inl hopens
    · rw [List.concat_eq_append, ← List.cons_append, ← List.append_assoc] at heq
      obtain ⟨hls, hl⟩ := List.append_inj' heq rfl
      cases hl
      refine Or.inr ⟨⟨before, l', after', hls, hopens, ?_⟩, hkeeps l (by simp)⟩
      intro l'' hmem
      exact hkeeps l'' (by simp [hmem])
  · rintro (hopens | ⟨⟨before, l', after, rfl, hopens, hkeeps⟩, hl⟩)
    · exact ⟨ls, l, [], rfl, hopens, by simp⟩
    · refine ⟨before, l', after ++ [l], by simp, hopens, ?_⟩
      intro l'' hmem
      rcases List.mem_append.mp hmem with hmem | hmem
      · exact hkeeps l'' hmem
      · obtain rfl := List.mem_singleton.mp hmem
        exact hl

/-- The label that opened the slot. -/
theorem Open.opened (h : Open opens keeps ls k v) : ∃ l ∈ ls, opens l k v := by
  obtain ⟨before, l, after, rfl, hopens, -⟩ := h
  exact ⟨l, by simp, hopens⟩

/-- **The log answers for the table.** -/
theorem table_iff {inv : σ → Prop} {table : σ → κ → Option β} (h : Run step s ls t)
    (rule : KeepsTable step inv table opens keeps) (hs : inv s) (hempty : ∀ k, table s k = none)
    (k : κ) (v : β) : table t k = some v ↔ Open opens keeps ls k v := by
  have hrun : inv t ∧ ∀ k v, table t k = some v ↔ Open opens keeps ls k v := by
    refine h.invariant (P := fun past s => inv s ∧
      ∀ k v, table s k = some v ↔ Open opens keeps past k v) ?_ [] ⟨hs, ?_⟩
    · intro past s l t hpast hstep
      obtain ⟨hinv, htable⟩ := hpast
      refine ⟨rule.invariant s l t hinv hstep, ?_⟩
      intro k v
      rw [open_snoc, ← htable k v]
      exact rule.changes s l t k v hinv hstep
    · intro k v
      rw [hempty k]
      refine iff_of_false ?_ not_open_nil
      intro h
      cases h
  exact hrun.2 k v

end Run
