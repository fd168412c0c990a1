/-
A bounded queue between two tasks.

The bound is a field, so a queue that holds too much cannot be written down.  There
are two ways in: `send?` waits, so it has no next queue while there is no room, and
`trySend` does not wait, so what finds no room is gone.
-/
import Mathlib.Data.List.Basic

/-- A queue of at most `cap` items, oldest first. -/
structure Chan (α : Type) (cap : Nat) where
  items : List α
  bound : items.length ≤ cap

namespace Chan

variable {α : Type} {cap : Nat}

def empty : Chan α cap := ⟨[], Nat.zero_le cap⟩

def send? (c : Chan α cap) (a : α) : Option (Chan α cap) :=
  if h : c.items.length < cap then
    some ⟨c.items ++ [a], by rw [List.length_append]; exact h⟩
  else none

def trySend (c : Chan α cap) (a : α) : Chan α cap := (c.send? a).getD c

def recv? (c : Chan α cap) : Option (α × Chan α cap) :=
  match c with
  | ⟨[], _⟩ => none
  | ⟨a :: items, bound⟩ => some (a, ⟨items, Nat.le_of_succ_le bound⟩)

@[simp] theorem empty_items : (empty : Chan α cap).items = [] := rfl

theorem ext_items {c d : Chan α cap} (h : c.items = d.items) : c = d := by
  cases c
  cases d
  cases h
  rfl

/-! ### Ways in -/

theorem send?_eq_some {c d : Chan α cap} {a : α} (h : c.send? a = some d) :
    c.items.length < cap ∧ d.items = c.items ++ [a] := by
  unfold send? at h
  split at h
  · rename_i hlt
    cases h
    exact ⟨hlt, rfl⟩
  · cases h

theorem send?_eq_none {c : Chan α cap} {a : α} (h : c.send? a = none) : c.items.length = cap := by
  unfold send? at h
  split at h
  · cases h
  · rename_i hfull
    exact Nat.le_antisymm c.bound (Nat.not_lt.mp hfull)

theorem send?_of_lt {c : Chan α cap} (a : α) (h : c.items.length < cap) :
    ∃ d, c.send? a = some d ∧ d.items = c.items ++ [a] := by
  unfold send?
  rw [dif_pos h]
  exact ⟨_, rfl, rfl⟩

theorem trySend_of_lt {c : Chan α cap} (a : α) (h : c.items.length < cap) :
    (c.trySend a).items = c.items ++ [a] := by
  obtain ⟨d, hd, hitems⟩ := send?_of_lt a h
  unfold trySend
  rw [hd]
  exact hitems

theorem trySend_of_full {c : Chan α cap} (a : α) (h : c.items.length = cap) :
    c.trySend a = c := by
  have hnone : c.send? a = none := dif_neg (by omega)
  unfold trySend
  rw [hnone]
  rfl

/-- Whatever the room, nothing but the item gets in, and nothing gets out. -/
theorem trySend_cases (c : Chan α cap) (a : α) :
    (c.trySend a).items = c.items ++ [a] ∨ c.trySend a = c := by
  rcases Nat.lt_or_eq_of_le c.bound with hlt | hfull
  · exact Or.inl (trySend_of_lt a hlt)
  · exact Or.inr (trySend_of_full a hfull)

theorem trySend_length_le (c : Chan α cap) (a : α) :
    (c.trySend a).items.length ≤ c.items.length + 1 := by
  rcases trySend_cases c a with h | h
  · rw [h, List.length_append]
    exact Nat.le_refl _
  · rw [h]
    exact Nat.le_succ _

/-- Of a burst into a queue that nobody reads, what fits is what came first. -/
theorem foldl_trySend_items (l : List α) (c : Chan α cap) :
    (l.foldl trySend c).items = (c.items ++ l).take cap := by
  induction l generalizing c with
  | nil =>
      rw [List.foldl_nil, List.append_nil, List.take_of_length_le c.bound]
  | cons a l ih =>
      rw [List.foldl_cons, ih]
      rcases Nat.lt_or_eq_of_le c.bound with hlt | hfull
      · rw [trySend_of_lt a hlt, List.append_assoc]
        rfl
      · rw [trySend_of_full a hfull, List.take_append_of_le_length (Nat.le_of_eq hfull.symm),
          List.take_append_of_le_length (Nat.le_of_eq hfull.symm)]

/-! ### The way out -/

theorem recv?_eq_some {c d : Chan α cap} {a : α} (h : c.recv? = some (a, d)) :
    c.items = a :: d.items := by
  obtain ⟨items, bound⟩ := c
  cases items with
  | nil => cases h
  | cons b items =>
      cases h
      rfl

theorem recv?_eq_none {c : Chan α cap} (h : c.recv? = none) : c.items = [] := by
  obtain ⟨items, bound⟩ := c
  cases items with
  | nil => rfl
  | cons b items => cases h

theorem recv?_of_cons {c : Chan α cap} {a : α} {items : List α} (h : c.items = a :: items) :
    ∃ d, c.recv? = some (a, d) ∧ d.items = items := by
  obtain ⟨_, bound⟩ := c
  cases h
  exact ⟨_, rfl, rfl⟩

end Chan
