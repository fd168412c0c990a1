/-
A request that may be sent several times, as its sender sees it.

All the sender can tell is when it sent the request, whether that worked, and what was
answered.  A refusal is followed by another send while there are some left.  From these
signs alone, in their order, `standing_spec` says what an outcome stands for and how often
the request was sent.
-/
import Mathlib.Data.List.Induction

namespace Attempts

variable {ε : Type}

/-- What the sender sees of the request. -/
inductive Sign (ε : Type) where
  | sent (ok : Bool)
  | answered (error : Option ε)
deriving DecidableEq

def Sign.isSent : Sign ε → Bool
  | sent _ => true
  | answered _ => false

/-- Where the request is. -/
inductive Standing (ε : Type) where
  | unsent
  /-- The first send did not work, and there is no second one. -/
  | lost
  | waiting (sends : Nat)
  /-- Refused, and about to be sent again. -/
  | again (sends : Nat) (e : ε)
  | accepted
  | refused (e : ε)

/-- One sign more, where it is possible; `limit` is how often a refusal is met by a send. -/
def Standing.next (limit : Nat) : Standing ε → Sign ε → Option (Standing ε)
  | .unsent, .sent ok => some (if ok then .waiting 1 else .lost)
  | .again n e, .sent ok => some (if ok then .waiting (n + 1) else .refused e)
  | _, .sent _ => none
  | .waiting _, .answered none => some .accepted
  | .waiting n, .answered (some e) => some (if n ≤ limit then .again n e else .refused e)
  -- An answer that nobody waits for.
  | s, .answered _ => some s

/-- The standing after some signs. -/
def Standing.after (limit : Nat) (signs : List (Sign ε)) : Option (Standing ε) :=
  signs.foldlM (Standing.next limit) .unsent

/-- How often the request was sent, or was meant to be. -/
def sends (signs : List (Sign ε)) : Nat := (signs.filter Sign.isSent).length

/-- The second sign comes after the first. -/
def Follows (signs : List (Sign ε)) (first second : Sign ε) : Prop :=
  List.Sublist [first, second] signs

/-- What the signs tell of a standing. -/
def Tells (limit : Nat) (signs : List (Sign ε)) : Standing ε → Prop
  | .unsent => sends signs = 0
  | .lost => sends signs ≤ limit + 1
  | .waiting n => sends signs = n ∧ n ≤ limit + 1 ∧ .sent true ∈ signs
  | .again n e => sends signs = n ∧ n ≤ limit ∧ Follows signs (.sent true) (.answered (some e))
  | .accepted => sends signs ≤ limit + 1 ∧ Follows signs (.sent true) (.answered none)
  | .refused e => sends signs ≤ limit + 1 ∧ Follows signs (.sent true) (.answered (some e)) ∧
      (sends signs = limit + 1 ∨ Follows signs (.answered (some e)) (.sent false))

theorem Follows.snoc {signs : List (Sign ε)} {first second : Sign ε}
    (h : Follows signs first second) (sign : Sign ε) : Follows (signs ++ [sign]) first second :=
  List.Sublist.trans h (List.sublist_append_left _ _)

theorem follows_last {signs : List (Sign ε)} {first : Sign ε} (h : first ∈ signs) (last : Sign ε) :
    Follows (signs ++ [last]) first last :=
  (List.singleton_sublist.mpr h).append (List.Sublist.refl [last])

theorem Follows.right {signs : List (Sign ε)} {first second : Sign ε}
    (h : Follows signs first second) : second ∈ signs :=
  h.subset (List.mem_cons_of_mem _ List.mem_cons_self)

/-- Signs that were read off a log stand in it in their order. -/
theorem Follows.of_filterMap {α : Type} {log : List α} {f : α → Option (Sign ε)}
    {first second : Sign ε} (h : Follows (log.filterMap f) first second) :
    ∃ x y, f x = some first ∧ f y = some second ∧ List.Sublist [x, y] log := by
  obtain ⟨xs, hsub, hmap⟩ := List.sublist_filterMap_iff.mp h
  obtain ⟨before, x, rest, rfl, -, hx, hrest⟩ := List.filterMap_eq_cons_iff.mp hmap.symm
  obtain ⟨middle, y, after, rfl, -, hy, -⟩ := List.filterMap_eq_cons_iff.mp hrest
  refine ⟨x, y, hx, hy, List.Sublist.trans ?_ hsub⟩
  refine List.Sublist.trans ?_ (List.sublist_append_right before _)
  exact ((List.singleton_sublist.mpr List.mem_cons_self).trans
    (List.sublist_append_right middle _)).cons_cons x

@[simp] theorem sends_sent (signs : List (Sign ε)) (ok : Bool) :
    sends (signs ++ [.sent ok]) = sends signs + 1 := by
  simp [sends, List.filter_cons, Sign.isSent]

@[simp] theorem sends_answered (signs : List (Sign ε)) (error : Option ε) :
    sends (signs ++ [.answered error]) = sends signs := by
  simp [sends, Sign.isSent]

@[simp] theorem sends_cons_sent (signs : List (Sign ε)) (ok : Bool) :
    sends (.sent ok :: signs) = sends signs + 1 := by
  simp [sends, List.filter_cons, Sign.isSent]

@[simp] theorem sends_cons_answered (signs : List (Sign ε)) (error : Option ε) :
    sends (.answered error :: signs) = sends signs := by
  simp [sends, Sign.isSent]

/-- An answer that nobody waits for tells nothing new. -/
theorem Tells.unheard {limit : Nat} {signs : List (Sign ε)} {s : Standing ε}
    (h : Tells limit signs s) (hs : ∀ n, s ≠ .waiting n) (error : Option ε) :
    Tells limit (signs ++ [.answered error]) s := by
  cases s with
  | unsent => simpa [Tells] using h
  | lost => simpa [Tells] using h
  | waiting n => exact absurd rfl (hs n)
  | again n e => exact ⟨by simpa using h.1, h.2.1, h.2.2.snoc _⟩
  | accepted => exact ⟨by simpa using h.1, h.2.snoc _⟩
  | refused e =>
      obtain ⟨hcount, hfollows, hend⟩ := h
      refine ⟨by simpa using hcount, hfollows.snoc _, ?_⟩
      rcases hend with hall | hfailed
      · exact Or.inl (by simpa using hall)
      · exact Or.inr (hfailed.snoc _)

/-- The step lemma. -/
theorem Tells.next {limit : Nat} {signs : List (Sign ε)} {s t : Standing ε} {sign : Sign ε}
    (h : Tells limit signs s) (hnext : s.next limit sign = some t) :
    Tells limit (signs ++ [sign]) t := by
  cases sign with
  | sent ok =>
      cases s with
      | unsent =>
          have hzero : sends signs = 0 := h
          cases ok with
          | true =>
              cases hnext
              exact ⟨by simp [hzero], by omega, by simp⟩
          | false =>
              cases hnext
              show sends (signs ++ [.sent false]) ≤ limit + 1
              rw [sends_sent, hzero]
              omega
      | again n e =>
          obtain ⟨hcount, hle, hfollows⟩ := h
          cases ok with
          | true =>
              cases hnext
              exact ⟨by simp [hcount], by omega, by simp⟩
          | false =>
              cases hnext
              refine ⟨by simp [hcount, hle], hfollows.snoc _, Or.inr ?_⟩
              exact follows_last hfollows.right _
      | lost => cases hnext
      | waiting n => cases hnext
      | accepted => cases hnext
      | refused e => cases hnext
  | answered error =>
      cases s with
      | waiting n =>
          obtain ⟨hcount, hle, hsent⟩ := h
          cases error with
          | none =>
              cases hnext
              exact ⟨by simp [hcount, hle], follows_last hsent _⟩
          | some e =>
              cases hnext
              by_cases hmore : n ≤ limit
              · rw [if_pos hmore]
                exact ⟨by simp [hcount], hmore, follows_last hsent _⟩
              · rw [if_neg hmore]
                refine ⟨by simp [hcount, hle], follows_last hsent _, Or.inl ?_⟩
                rw [sends_answered, hcount]
                omega
      | unsent => cases hnext; exact h.unheard nofun _
      | lost => cases hnext; exact h.unheard nofun _
      | again n e => cases hnext; exact h.unheard nofun _
      | accepted => cases hnext; exact h.unheard nofun _
      | refused e => cases hnext; exact h.unheard nofun _

theorem after_snoc (limit : Nat) (signs : List (Sign ε)) (sign : Sign ε) :
    Standing.after limit (signs ++ [sign])
      = (Standing.after limit signs).bind fun s => s.next limit sign := by
  unfold Standing.after
  rw [List.foldlM_append]
  cases List.foldlM (Standing.next limit) Standing.unsent signs with
  | none => rfl
  | some s => simp [List.foldlM_cons]

/-- **What a standing tells of the signs that led to it.** -/
theorem standing_spec {limit : Nat} (signs : List (Sign ε)) :
    ∀ s, Standing.after limit signs = some s → Tells limit signs s := by
  induction signs using List.reverseRecOn with
  | nil =>
      intro s h
      cases h
      show sends ([] : List (Sign ε)) = 0
      rfl
  | append_singleton signs sign ih =>
      intro s h
      rw [after_snoc] at h
      obtain ⟨before, hbefore, hnext⟩ := Option.bind_eq_some_iff.mp h
      exact (ih before hbefore).next hnext

/-- Whatever becomes of it, the request is sent once and then at most `limit` times again. -/
theorem Tells.sends_le {limit : Nat} {signs : List (Sign ε)} {s : Standing ε}
    (h : Tells limit signs s) : sends signs ≤ limit + 1 := by
  cases s with
  | unsent =>
      have hzero : sends signs = 0 := h
      omega
  | lost => exact h
  | waiting n => exact h.1 ▸ h.2.1
  | again n e =>
      have hle := h.2.1
      have hcount := h.1
      omega
  | accepted => exact h.1
  | refused e => exact h.1

end Attempts
