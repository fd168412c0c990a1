/-
Finite maps: what a key is bound to after an insertion or a removal, as one case
distinction on the key.
-/
import Mathlib.Data.List.AList

namespace Maps

variable {κ β : Type} [DecidableEq κ] {m : AList fun _ : κ => β} {k k' : κ} {v w : β}

theorem lookup_insert (m : AList fun _ : κ => β) (k k' : κ) (v : β) :
    (m.insert k v).lookup k' = if k' = k then some v else m.lookup k' := by
  by_cases h : k' = k
  · subst h
    rw [AList.lookup_insert, if_pos rfl]
  · rw [AList.lookup_insert_ne h, if_neg h]

theorem lookup_erase (m : AList fun _ : κ => β) (k k' : κ) :
    (m.erase k).lookup k' = if k' = k then none else m.lookup k' := by
  by_cases h : k' = k
  · subst h
    rw [AList.lookup_erase, if_pos rfl]
  · rw [AList.lookup_erase_ne h, if_neg h]

/-- An insertion, as an update of what is looked up. -/
theorem lookup_insert_eq_update (m : AList fun _ : κ => β) (k : κ) (v : β) :
    (fun k' => (m.insert k v).lookup k') = Function.update (fun k' => m.lookup k') k (some v) := by
  funext k'
  rw [lookup_insert, Function.update_apply]

/-- A removal, as an update of what is looked up. -/
theorem lookup_erase_eq_update (m : AList fun _ : κ => β) (k : κ) :
    (fun k' => (m.erase k).lookup k') = Function.update (fun k' => m.lookup k') k none := by
  funext k'
  rw [lookup_erase, Function.update_apply]

theorem lookup_insert_some :
    (m.insert k v).lookup k' = some w ↔ (k' = k ∧ v = w) ∨ (k' ≠ k ∧ m.lookup k' = some w) := by
  rw [lookup_insert]
  by_cases h : k' = k
  · rw [if_pos h]
    simp [h]
  · rw [if_neg h]
    simp [h]

theorem lookup_erase_some :
    (m.erase k).lookup k' = some w ↔ k' ≠ k ∧ m.lookup k' = some w := by
  rw [lookup_erase]
  by_cases h : k' = k
  · rw [if_pos h]
    simp [h]
  · rw [if_neg h]
    simp [h]

/-- An insertion keeps what is bound bound. -/
theorem isSome_insert (h : (m.lookup k').isSome = true) :
    ((m.insert k v).lookup k').isSome = true := by
  rw [lookup_insert]
  split
  · rfl
  · exact h

/-- The map that gives every key of a list one value. -/
theorem lookup_const (keys : List κ) (v : β) (k : κ) :
    ((keys.map fun key => (⟨key, v⟩ : Sigma fun _ : κ => β)).toAList).lookup k
      = if k ∈ keys then some v else none := by
  induction keys with
  | nil => rfl
  | cons key keys ih =>
      rw [List.map_cons, AList.toAList_cons, lookup_insert, ih]
      by_cases h : k = key
      · simp [h]
      · simp [h]

/-! ### Values -/

/-- The map with every value replaced. -/
def mapValues {γ : Type} (f : κ → β → γ) (m : AList fun _ : κ => β) : AList fun _ : κ => γ where
  entries := m.entries.map fun e => ⟨e.1, f e.1 e.2⟩
  nodupKeys := by
    have hkeys : (m.entries.map fun e => (⟨e.1, f e.1 e.2⟩ : Sigma fun _ : κ => γ)).keys
        = m.entries.keys := by
      simp [List.keys]
    unfold List.NodupKeys
    rw [hkeys]
    exact m.nodupKeys

theorem lookup_mapValues {γ : Type} (f : κ → β → γ) (m : AList fun _ : κ => β) (k : κ) :
    (mapValues f m).lookup k = (m.lookup k).map (f k) := by
  unfold AList.lookup mapValues
  dsimp only
  induction m.entries with
  | nil => rfl
  | cons e entries ih =>
      rw [List.map_cons]
      obtain ⟨k', v⟩ := e
      by_cases h : k = k'
      · subst h
        rw [List.dlookup_cons_eq, List.dlookup_cons_eq]
        rfl
      · rw [List.dlookup_cons_ne _ (⟨k', v⟩ : Sigma fun _ : κ => β) h, ← ih]
        exact List.dlookup_cons_ne _ (⟨k', f k' v⟩ : Sigma fun _ : κ => γ) h

omit [DecidableEq κ] in
/-- The map without the bindings whose value fails the test (`retain`). -/
def filterValues (p : β → Bool) (m : AList fun _ : κ => β) : AList fun _ : κ => β where
  entries := m.entries.filter fun e => p e.2
  nodupKeys := List.NodupKeys.sublist List.filter_sublist m.nodupKeys

theorem lookup_filterValues_some {p : β → Bool} :
    (filterValues p m).lookup k = some v ↔ m.lookup k = some v ∧ p v = true := by
  rw [← Option.mem_def, ← Option.mem_def, AList.mem_lookup_iff, AList.mem_lookup_iff]
  exact List.mem_filter

end Maps
