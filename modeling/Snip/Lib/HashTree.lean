/-
Binary hash trees over a list of leaves, for an arbitrary combining operation.

A level is combined two by two from the left; a node left over at the end of an
odd level is combined with itself.  Leaves and inner nodes have one type, and
nothing in a node says at which level it stands, so a root alone does not say how
many leaves are under it.  The three facts a user needs are proved once here.

  * Climbing from a leaf along its own path arrives at the root.
  * Only that leaf and that path do, unless the operation was caught giving one
    value on two different pairs (`Clash`).
  * Two lists *of one length* with one root are one list, with the same escape.

A clash is always named inside an explicit list of pairs: the pairs the tree was
built from, and the pairs the climb went through.  An operation on a finite type
always has some clash somewhere, so a bare existential would say nothing.
-/
import Mathlib.Data.List.Basic
import Mathlib.Data.Nat.Log
import Mathlib.Data.Nat.Size
import Mathlib.Tactic.Ring

namespace HashTree

variable {α : Type*}

/-! ### Trees and climbs -/

/-- Neighbours two by two, the last one of an odd list with itself. -/
def pairs : List α → List (α × α)
  | [] => []
  | [a] => [(a, a)]
  | a :: b :: rest => (a, b) :: pairs rest

/-- The level above. -/
def nextLevel (op : α → α → α) (l : List α) : List α :=
  (pairs l).map fun p => op p.1 p.2

/-- The level `d` steps above. -/
def level (op : α → α → α) : Nat → List α → List α
  | 0, l => l
  | d + 1, l => level op d (nextLevel op l)

/-- The node that `i` is combined with on its level. -/
def sibling (l : List α) (i : Nat) : Option α :=
  let j := if i % 2 = 0 then i + 1 else i - 1
  if j < l.length then l[j]? else l[i]?

/-- The siblings of `i` on the `d` lowest levels, bottom-up. -/
def path (op : α → α → α) : Nat → List α → Nat → Option (List α)
  | 0, _, _ => some []
  | d + 1, l, i => do
      let s ← sibling l i
      let rest ← path op d (nextLevel op l) (i / 2)
      return s :: rest

/-- A node and its sibling in the order they are combined in: even nodes stand left. -/
def ordered (i : Nat) (x s : α) : α × α :=
  if i % 2 = 0 then (x, s) else (s, x)

/-- The value a climb from `x` at index `i` arrives at. -/
def climb (op : α → α → α) : Nat → α → List α → α
  | _, x, [] => x
  | i, x, s :: p => climb op (i / 2) (op (ordered i x s).1 (ordered i x s).2) p

/-- The pairs a climb goes through. -/
def climbPairs (op : α → α → α) : Nat → α → List α → List (α × α)
  | _, _, [] => []
  | i, x, s :: p =>
      ordered i x s :: climbPairs op (i / 2) (op (ordered i x s).1 (ordered i x s).2) p

/-- The pairs combined on the `d` lowest levels. -/
def treePairs (op : α → α → α) : Nat → List α → List (α × α)
  | 0, _ => []
  | d + 1, l => pairs l ++ treePairs op d (nextLevel op l)

/-- Two different pairs of `S` are combined to one value. -/
def Clash (op : α → α → α) (S : List (α × α)) : Prop :=
  ∃ u ∈ S, ∃ v ∈ S, u ≠ v ∧ op u.1 u.2 = op v.1 v.2

variable {op : α → α → α}

theorem Clash.mono {S T : List (α × α)} (h : Clash op S) (hST : ∀ u ∈ S, u ∈ T) :
    Clash op T := by
  obtain ⟨u, hu, v, hv, hne, heq⟩ := h
  exact ⟨u, hST u hu, v, hST v hv, hne, heq⟩

/-! ### One level -/

@[simp] theorem pairs_length (l : List α) : (pairs l).length = (l.length + 1) / 2 := by
  fun_induction pairs l with
  | case1 => simp
  | case2 a => simp
  | case3 a b rest ih =>
      simp only [List.length_cons, ih]
      omega

@[simp] theorem nextLevel_length (l : List α) :
    (nextLevel op l).length = (l.length + 1) / 2 := by
  simp [nextLevel]

theorem sibling_cons_cons (a b : α) (l : List α) (i : Nat) :
    sibling (a :: b :: l) (i + 2) = sibling l i := by
  unfold sibling
  by_cases hi : i % 2 = 0
  · have hi' : (i + 2) % 2 = 0 := by omega
    dsimp only
    rw [if_pos hi, if_pos hi']
    exact if_congr (by rw [List.length_cons, List.length_cons]; omega) rfl rfl
  · obtain ⟨k, rfl⟩ : ∃ k, i = k + 1 := ⟨i - 1, by omega⟩
    have hi' : ¬ (k + 1 + 2) % 2 = 0 := by omega
    dsimp only
    rw [if_neg hi, if_neg hi']
    exact if_congr (by rw [List.length_cons, List.length_cons]; omega) rfl rfl

theorem sibling_isSome {l : List α} {i : Nat} (h : i < l.length) :
    ∃ s, sibling l i = some s := by
  unfold sibling
  by_cases hj : (if i % 2 = 0 then i + 1 else i - 1) < l.length
  · exact ⟨_, by rw [if_pos hj, List.getElem?_eq_getElem hj]⟩
  · exact ⟨_, by rw [if_neg hj, List.getElem?_eq_getElem h]⟩

/-- The pair over `i` holds `i` and its sibling. -/
theorem pairs_getElem? (l : List α) (i : Nat) (x s : α) (hx : l[i]? = some x)
    (hs : sibling l i = some s) : (pairs l)[i / 2]? = some (ordered i x s) := by
  induction l using pairs.induct generalizing i with
  | case1 => simp at hx
  | case2 a =>
      obtain ⟨rfl, rfl⟩ : i = 0 ∧ a = x := by
        rcases i with _ | i
        · simpa using hx
        · simp at hx
      have hsa : a = s := by simpa [sibling] using hs
      simp [pairs, ordered, hsa]
  | case3 a b rest ih =>
      rcases i with _ | _ | i
      · have hxa : a = x := by simpa using hx
        have hsb : b = s := by simpa [sibling] using hs
        simp [pairs, ordered, hxa, hsb]
      · have hxb : b = x := by simpa using hx
        have hsa : a = s := by simpa [sibling] using hs
        simp [pairs, ordered, hxb, hsa]
      · rw [sibling_cons_cons] at hs
        have hrest := ih i (by simpa using hx) hs
        have hdiv : (i + 1 + 1) / 2 = i / 2 + 1 := by omega
        have hord : ordered (i + 1 + 1) x s = ordered i x s := by
          simp [ordered, show (i + 1 + 1) % 2 = i % 2 by omega]
        rw [hdiv, hord]
        simpa [pairs] using hrest

theorem nextLevel_getElem? {l : List α} {i : Nat} {x s : α} (hx : l[i]? = some x)
    (hs : sibling l i = some s) :
    (nextLevel op l)[i / 2]? = some (op (ordered i x s).1 (ordered i x s).2) := by
  simp [nextLevel, pairs_getElem? l i x s hx hs]

theorem ordered_inj {i : Nat} {x s y t : α} (h : ordered i x s = ordered i y t) :
    x = y ∧ s = t := by
  unfold ordered at h
  split at h
  · simpa using h
  · simpa [and_comm] using h

theorem pairs_inj : ∀ {l l' : List α}, l.length = l'.length → pairs l = pairs l' → l = l' := by
  intro l
  induction l using pairs.induct with
  | case1 =>
      intro l' hlen _
      exact (List.length_eq_zero_iff.mp hlen.symm).symm
  | case2 a =>
      intro l' hlen h
      obtain ⟨b, rfl⟩ := List.length_eq_one_iff.mp hlen.symm
      simpa [pairs] using h
  | case3 a b rest ih =>
      intro l' hlen h
      rcases l' with _ | ⟨c, _ | ⟨e, rest'⟩⟩
      · simp at hlen
      · simp at hlen
      · simp only [pairs, List.cons.injEq, Prod.mk.injEq] at h
        obtain ⟨⟨rfl, rfl⟩, h⟩ := h
        rw [ih (by simpa using hlen) h]

/-! ### A climb along a leaf's own path -/

theorem path_isSome (op : α → α → α) : ∀ (d : Nat) (l : List α) (i : Nat), i < l.length →
    ∃ p, path op d l i = some p ∧ p.length = d := by
  intro d
  induction d with
  | zero => intro l i _; exact ⟨[], rfl, rfl⟩
  | succ d ih =>
      intro l i h
      obtain ⟨s, hs⟩ := sibling_isSome h
      obtain ⟨p, hp, hlen⟩ := ih (nextLevel op l) (i / 2) (by simp only [nextLevel_length]; omega)
      exact ⟨s :: p, by simp [path, hs, hp], by simp [hlen]⟩

theorem climb_path (op : α → α → α) : ∀ (d : Nat) (l : List α) (i : Nat) (x : α) (p : List α),
    l[i]? = some x → path op d l i = some p →
    (level op d l)[i / 2 ^ d]? = some (climb op i x p) := by
  intro d
  induction d with
  | zero =>
      intro l i x p hx hp
      obtain rfl : [] = p := by simpa [path] using hp
      simpa [level, climb] using hx
  | succ d ih =>
      intro l i x p hx hp
      simp only [path, Option.bind_eq_bind, Option.bind_eq_some_iff, Option.pure_def,
        Option.some.injEq] at hp
      obtain ⟨s, hs, rest, hrest, rfl⟩ := hp
      have := ih (nextLevel op l) (i / 2) _ rest (nextLevel_getElem? hx hs) hrest
      rwa [Nat.div_div_eq_div_mul, ← pow_succ'] at this

/-! ### Only that leaf and that path climb there -/

/--
**A climb that meets the tree's node above an index started from the tree's own
leaf along the leaf's own path,** or the operation clashed on a pair of the climb
and a pair of the tree.
-/
theorem climb_unique : ∀ (d : Nat) (l : List α) (i : Nat) (h : α) (p : List α),
    i < l.length → p.length = d → (level op d l)[i / 2 ^ d]? = some (climb op i h p) →
    (l[i]? = some h ∧ path op d l i = some p) ∨
      Clash op (climbPairs op i h p ++ treePairs op d l) := by
  intro d
  induction d with
  | zero =>
      intro l i h p _ hp hroot
      obtain rfl := List.length_eq_zero_iff.mp hp
      exact Or.inl ⟨by simpa [level, climb] using hroot, rfl⟩
  | succ d ih =>
      intro l i h p hi hp hroot
      obtain ⟨s, p, rfl⟩ : ∃ s p', p = s :: p' := by
        rcases p with _ | ⟨s, p⟩
        · simp at hp
        · exact ⟨s, p, rfl⟩
      have hi' : i / 2 < (nextLevel op l).length := by rw [nextLevel_length]; omega
      have hroot' : (level op d (nextLevel op l))[i / 2 / 2 ^ d]?
          = some (climb op (i / 2) (op (ordered i h s).1 (ordered i h s).2) p) := by
        rw [Nat.div_div_eq_div_mul, ← pow_succ']
        exact hroot
      rcases ih _ _ _ p hi' (by simpa using hp) hroot' with ⟨hnode, hrest⟩ | hclash
      · obtain ⟨t, ht⟩ := sibling_isSome hi
        have hx : l[i]? = some l[i] := List.getElem?_eq_getElem hi
        have hpair := pairs_getElem? l i _ t hx ht
        rw [nextLevel_getElem? hx ht, Option.some.injEq] at hnode
        by_cases heq : ordered i l[i] t = ordered i h s
        · obtain ⟨hh, rfl⟩ := ordered_inj heq
          exact Or.inl ⟨by rw [hx, hh], by simp [path, ht, hrest]⟩
        · refine Or.inr ⟨_, ?_, _, ?_, heq, hnode⟩
          · simp [treePairs, List.mem_of_getElem? hpair]
          · simp [climbPairs]
      · refine Or.inr (hclash.mono fun u hu => ?_)
        rcases List.mem_append.mp hu with hu | hu
        · simp [climbPairs, hu]
        · simp [treePairs, hu]

/-- Two climbs of one length from one index that arrive at one value, or a clash. -/
theorem climb_inj : ∀ (p q : List α) (i : Nat) (h k : α), p.length = q.length →
    climb op i h p = climb op i k q →
    (h = k ∧ p = q) ∨ Clash op (climbPairs op i h p ++ climbPairs op i k q) := by
  intro p
  induction p with
  | nil =>
      intro q i h k hlen heq
      obtain rfl := List.length_eq_zero_iff.mp hlen.symm
      exact Or.inl ⟨heq, rfl⟩
  | cons s p ih =>
      intro q i h k hlen heq
      rcases q with _ | ⟨t, q⟩
      · simp at hlen
      rcases ih q (i / 2) _ _ (by simpa using hlen) heq with ⟨hnode, rfl⟩ | hclash
      · by_cases hord : ordered i h s = ordered i k t
        · obtain ⟨rfl, rfl⟩ := ordered_inj hord
          exact Or.inl ⟨rfl, rfl⟩
        · exact Or.inr ⟨_, by simp [climbPairs], _, by simp [climbPairs], hord, hnode⟩
      · refine Or.inr (hclash.mono fun u hu => ?_)
        rcases List.mem_append.mp hu with hu | hu
        · simp [climbPairs, hu]
        · simp [climbPairs, hu]

/-! ### Two lists of one length with one root -/

theorem map_op_inj : ∀ {P Q : List (α × α)}, P.length = Q.length →
    P.map (fun p => op p.1 p.2) = Q.map (fun p => op p.1 p.2) → P = Q ∨ Clash op (P ++ Q) := by
  intro P
  induction P with
  | nil =>
      intro Q hlen _
      exact Or.inl (List.length_eq_zero_iff.mp hlen.symm).symm
  | cons u P ih =>
      intro Q hlen h
      rcases Q with _ | ⟨v, Q⟩
      · simp at hlen
      simp only [List.map_cons, List.cons.injEq] at h
      by_cases huv : u = v
      · rcases ih (by simpa using hlen) h.2 with rfl | hclash
        · exact Or.inl (by rw [huv])
        · refine Or.inr (hclash.mono fun w hw => ?_)
          rcases List.mem_append.mp hw with hw | hw
          · simp [hw]
          · simp [hw]
      · exact Or.inr ⟨u, by simp, v, by simp, huv, h.1⟩

/-- **Two lists of one length with one node list above them are one list,** or a clash. -/
theorem level_inj : ∀ (d : Nat) (l l' : List α), l.length = l'.length →
    level op d l = level op d l' → l = l' ∨ Clash op (treePairs op d l ++ treePairs op d l') := by
  intro d
  induction d with
  | zero => intro l l' _ h; exact Or.inl h
  | succ d ih =>
      intro l l' hlen h
      have hlen' : (nextLevel op l).length = (nextLevel op l').length := by
        rw [nextLevel_length, nextLevel_length, hlen]
      rcases ih _ _ hlen' h with hnext | hclash
      · rcases map_op_inj (by simp [hlen]) hnext with hpairs | hclash
        · exact Or.inl (pairs_inj hlen hpairs)
        · refine Or.inr (hclash.mono fun w hw => ?_)
          rcases List.mem_append.mp hw with hw | hw
          · simp [treePairs, hw]
          · simp [treePairs, hw]
      · refine Or.inr (hclash.mono fun w hw => ?_)
        rcases List.mem_append.mp hw with hw | hw
        · simp [treePairs, hw]
        · simp [treePairs, hw]

/-! ### How high the tree is -/

theorem level_length : ∀ (d : Nat) (l : List α),
    (level op d l).length = (l.length + (2 ^ d - 1)) / 2 ^ d := by
  intro d
  induction d with
  | zero => intro l; simp [level]
  | succ d ih =>
      intro l
      have hpos : 0 < 2 ^ d := Nat.two_pow_pos d
      calc (level op (d + 1) l).length
          = ((l.length + 1) / 2 + (2 ^ d - 1)) / 2 ^ d := by
            simp only [level, ih, nextLevel_length]
        _ = ((l.length + 1 + 2 * (2 ^ d - 1)) / 2) / 2 ^ d := by
            congr 1
            omega
        _ = (l.length + (2 ^ (d + 1) - 1)) / 2 ^ (d + 1) := by
            rw [Nat.div_div_eq_div_mul, ← pow_succ']
            congr 1
            rw [pow_succ']
            omega

/-- `⌈log₂ n⌉` steps above `n ≥ 1` leaves stands one node. -/
theorem level_clog_length (op : α → α → α) {l : List α} (h : l ≠ []) :
    (level op (Nat.clog 2 l.length) l).length = 1 := by
  have hpos : 0 < l.length := List.length_pos_iff.mpr h
  have hle : l.length ≤ 2 ^ Nat.clog 2 l.length := Nat.le_pow_clog (by decide) _
  rw [level_length]
  refine Nat.div_eq_of_lt_le ?_ ?_
  · omega
  · omega

theorem clog_nextLevel (op : α → α → α) {l : List α} (h : 1 < l.length) :
    Nat.clog 2 l.length = Nat.clog 2 (nextLevel op l).length + 1 := by
  rw [nextLevel_length]
  exact Nat.clog_of_two_le (by decide) (by omega)

end HashTree
