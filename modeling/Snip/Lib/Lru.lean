/-
A cache of bounded size that forgets the entry used longest ago.

Nothing here is about which entry is forgotten.  A user of the cache only relies
on an entry being one that was put there, and that is the rule `Holds` carries
through lookups and insertions.
-/
import Mathlib.Data.List.Basic

/-- Entries with the most recently used one first. -/
structure Lru (κ β : Type) where
  cap : Nat
  entries : List (κ × β)

namespace Lru

variable {κ β : Type}

def empty (cap : Nat) : Lru κ β := ⟨cap, []⟩

/-- Every entry satisfies `P`. -/
def Holds (P : κ → β → Prop) (c : Lru κ β) : Prop :=
  ∀ e ∈ c.entries, P e.1 e.2

theorem holds_empty {P : κ → β → Prop} (cap : Nat) : Holds P (empty cap) := by
  simp [Holds, empty]

variable [DecidableEq κ]

/-- The value of a key, without marking it as used. -/
def peek (c : Lru κ β) (k : κ) : Option β :=
  (c.entries.find? fun e => e.1 = k).map Prod.snd

/-- The cache after a key was used: its entry moves to the front. -/
def touch (c : Lru κ β) (k : κ) : Lru κ β :=
  match c.peek k with
  | none => c
  | some v => { c with entries := (k, v) :: c.entries.filter fun e => e.1 ≠ k }

/-- A value replaces the key's old one, or the oldest entry of a full cache. -/
def put (c : Lru κ β) (k : κ) (v : β) : Lru κ β :=
  { c with entries := ((k, v) :: c.entries.filter fun e => e.1 ≠ k).take c.cap }

variable {P : κ → β → Prop} {c : Lru κ β}

theorem Holds.peek (h : Holds P c) {k : κ} {v : β} (hp : c.peek k = some v) : P k v := by
  simp only [Lru.peek, Option.map_eq_some_iff] at hp
  obtain ⟨e, he, rfl⟩ := hp
  have hk : e.1 = k := by simpa using List.find?_some he
  have := h e (List.mem_of_find?_eq_some he)
  rwa [hk] at this

theorem Holds.touch (h : Holds P c) (k : κ) : Holds P (c.touch k) := by
  unfold Lru.touch
  cases hp : c.peek k with
  | none => exact h
  | some v =>
      intro e he
      rcases List.mem_cons.mp he with rfl | he
      · exact h.peek hp
      · exact h e (List.mem_of_mem_filter he)

theorem Holds.put (h : Holds P c) {k : κ} {v : β} (hv : P k v) : Holds P (c.put k v) := by
  intro e he
  rcases List.mem_cons.mp (List.mem_of_mem_take he) with rfl | he
  · exact hv
  · exact h e (List.mem_of_mem_filter he)

end Lru
