/-
Lists: a partial function over all items, two lists item by item, the pieces between
separators, what is left when one item is taken out, and two items one before the other.
-/
import Mathlib.Data.List.Forall2
import Mathlib.Data.List.Basic

namespace Lists

variable {α β : Type}

/-- A partial function succeeds on a list with what it gives for each item. -/
theorem mapM_eq_some_iff {f : α → Option β} {as : List α} {bs : List β} :
    as.mapM f = some bs ↔ List.Forall₂ (fun a b => f a = some b) as bs := by
  induction as generalizing bs with
  | nil =>
      rw [List.mapM_nil, List.forall₂_nil_left_iff]
      constructor
      · intro h
        exact (Option.some.inj h).symm
      · intro h
        rw [h]
        rfl
  | cons a as ih =>
      rw [List.mapM_cons, List.forall₂_cons_left_iff]
      simp only [Option.bind_eq_bind, Option.bind_eq_some_iff, Option.pure_def, ih]
      constructor
      · rintro ⟨b, hb, rest, hrest, heq⟩
        exact ⟨b, rest, hb, hrest, (Option.some.inj heq).symm⟩
      · rintro ⟨b, rest, hb, hrest, rfl⟩
        exact ⟨b, hb, rest, hrest, rfl⟩

/-- The same for a function that may fail with a reason. -/
theorem mapM_eq_ok_iff {ε : Type} {f : α → Except ε β} {as : List α} {bs : List β} :
    as.mapM f = .ok bs ↔ List.Forall₂ (fun a b => f a = .ok b) as bs := by
  induction as generalizing bs with
  | nil =>
      rw [List.mapM_nil, List.forall₂_nil_left_iff]
      constructor
      · intro h
        exact (Except.ok.inj h).symm
      · intro h
        rw [h]
        rfl
  | cons a as ih =>
      rw [List.mapM_cons, List.forall₂_cons_left_iff]
      cases ha : f a with
      | error e =>
          constructor
          · intro h
            cases h
          · rintro ⟨b, _, hb, -, -⟩
            cases hb
      | ok b =>
          cases hrest : as.mapM f with
          | error e =>
              constructor
              · intro h
                cases h
              · rintro ⟨_, rest, -, htail, -⟩
                rw [← ih, hrest] at htail
                cases htail
          | ok rest =>
              constructor
              · intro h
                cases h
                exact ⟨b, rest, rfl, ih.mp hrest, rfl⟩
              · rintro ⟨_, _, hb, htail, rfl⟩
                rw [← ih, hrest] at htail
                cases hb
                cases htail
                rfl

theorem exists_of_mem_mapM {f : α → Option β} {as : List α} {bs : List β}
    (h : as.mapM f = some bs) {b : β} (hb : b ∈ bs) : ∃ a ∈ as, f a = some b := by
  have hall := mapM_eq_some_iff.mp h
  induction hall with
  | nil => simp at hb
  | cons hab hrest ih =>
      rcases List.mem_cons.mp hb with rfl | hb
      · exact ⟨_, List.mem_cons_self, hab⟩
      · obtain ⟨a, ha, hfa⟩ := ih (mapM_eq_some_iff.mpr hrest) hb
        exact ⟨a, List.mem_cons_of_mem _ ha, hfa⟩

/-- A piece has no separator, and nothing that was not in the list. -/
theorem mem_splitOn [BEq α] [LawfulBEq α] {separator : α} {l piece : List α}
    (h : piece ∈ l.splitOn separator) : separator ∉ piece ∧ ∀ x ∈ piece, x ∈ l := by
  induction l generalizing piece with
  | nil =>
      rw [List.splitOn_nil, List.mem_singleton] at h
      subst h
      simp
  | cons x l ih =>
      rw [List.splitOn_cons_eq_if_modifyHead] at h
      by_cases hx : (x == separator) = true
      · rw [if_pos hx] at h
        rcases List.mem_cons.mp h with rfl | h
        · simp
        · obtain ⟨hout, hin⟩ := ih h
          exact ⟨hout, fun y hy => List.mem_cons_of_mem _ (hin y hy)⟩
      · rw [if_neg hx] at h
        cases hsplit : l.splitOn separator with
        | nil => exact absurd hsplit (List.splitOn_ne_nil separator l)
        | cons first rest =>
            rw [hsplit, List.modifyHead_cons] at h
            rw [hsplit] at ih
            rcases List.mem_cons.mp h with rfl | h
            · obtain ⟨hout, hin⟩ := ih List.mem_cons_self
              refine ⟨?_, ?_⟩
              · rw [List.mem_cons, not_or]
                refine ⟨?_, hout⟩
                intro heq
                exact hx (by simp [heq])
              · intro y hy
                rcases List.mem_cons.mp hy with rfl | hy
                · exact List.mem_cons_self
                · exact List.mem_cons_of_mem _ (hin y hy)
            · obtain ⟨hout, hin⟩ := ih (List.mem_cons_of_mem _ h)
              exact ⟨hout, fun y hy => List.mem_cons_of_mem _ (hin y hy)⟩

theorem forall₂_imp_of_mem {R S : α → β → Prop} {as : List α} {bs : List β}
    (h : List.Forall₂ R as bs) (himp : ∀ a ∈ as, ∀ b, R a b → S a b) : List.Forall₂ S as bs := by
  have hmem : List.Forall₂ (fun a b => a ∈ as ∧ R a b) as bs :=
    (List.forall₂_and_left as bs).mpr ⟨fun a ha => ha, h⟩
  exact hmem.imp fun a b hab => himp a hab.1 b hab.2

/-- Two lists, item by item with properties that agree. -/
theorem forall_iff_of_forall₂ {p : α → Prop} {q : β → Prop} {as : List α} {bs : List β}
    (h : List.Forall₂ (fun a b => p a ↔ q b) as bs) : (∀ a ∈ as, p a) ↔ ∀ b ∈ bs, q b := by
  induction h with
  | nil => simp
  | cons hab _ ih => rw [List.forall_mem_cons, List.forall_mem_cons, hab, ih]

/-- Lists that agree item by item in two respects: each item has one that agrees in both. -/
theorem exists_of_map_eq {γ δ : Type} {f : α → γ} {g : α → δ} {f' : β → γ} {g' : β → δ} :
    ∀ {as : List α} {bs : List β}, as.map f = bs.map f' → as.map g = bs.map g' →
      ∀ a ∈ as, ∃ b ∈ bs, f a = f' b ∧ g a = g' b := by
  intro as
  induction as with
  | nil =>
      intro bs _ _ a ha
      cases ha
  | cons x as ih =>
      intro bs hf hg a ha
      cases bs with
      | nil => cases hf
      | cons y bs =>
          injection hf with hfx hf
          injection hg with hgx hg
          rcases List.mem_cons.mp ha with rfl | ha
          · exact ⟨y, List.mem_cons_self, hfx, hgx⟩
          · obtain ⟨b, hb, hagree⟩ := ih hf hg a ha
            exact ⟨b, List.mem_cons_of_mem _ hb, hagree⟩

/-- An item that leaves a list by its index was there, and the others stay. -/
theorem mem_eraseIdx_or {l : List α} {i : Nat} {x y : α} (hget : l[i]? = some x)
    (hy : y ∈ l) : y = x ∨ y ∈ l.eraseIdx i := by
  obtain ⟨j, hj⟩ := List.mem_iff_getElem?.mp hy
  by_cases hij : j = i
  · subst hij
    exact .inl (Option.some.inj (hj.symm.trans hget))
  · exact .inr (List.mem_eraseIdx_iff_getElem?.mpr ⟨j, hij, hj⟩)

/-- The last of distinct items is in no shorter start of them. -/
theorem length_le_of_getLast_mem {l : List α} (hnodup : l.Nodup) (hne : l ≠ []) {n : Nat}
    (h : l.getLast hne ∈ l.take n) : l.length ≤ n := by
  by_contra hlt
  have hdrop : l.drop n ≠ [] := by
    intro hnil
    rw [List.drop_eq_nil_iff] at hnil
    exact hlt hnil
  have hlast : l.getLast hne ∈ l.drop n := by
    have hsame : (l.drop n).getLast hdrop = l.getLast hne := List.getLast_drop hdrop
    rw [← hsame]
    exact List.getLast_mem hdrop
  rw [← List.take_append_drop n l] at hnodup
  exact (List.nodup_append.mp hnodup).2.2 _ h _ hlast rfl

/-- Item `k` is on the page of `k / size`, where pages have `size` items. -/
theorem mem_page_of_getElem? {l : List α} {k size : Nat} {x : α} (hsize : 0 < size)
    (h : l[k]? = some x) : x ∈ (l.drop (k / size * size)).take size := by
  have hsplit : k / size * size + k % size = k := by
    rw [Nat.mul_comm]
    exact Nat.div_add_mod k size
  refine List.mem_of_getElem? (i := k % size) ?_
  rw [List.getElem?_take_of_lt (Nat.mod_lt k hsize), List.getElem?_drop, hsplit]
  exact h

/-- Two items of a view, one before the other, stand for two items of the list. -/
theorem sublist_pair_of_filterMap {f : α → Option β} {l : List α} {b b' : β}
    (h : List.Sublist [b, b'] (l.filterMap f)) :
    ∃ a a', f a = some b ∧ f a' = some b' ∧ List.Sublist [a, a'] l := by
  induction l with
  | nil => cases h
  | cons x l ih =>
      cases hx : f x with
      | none =>
          rw [List.filterMap_cons_none hx] at h
          obtain ⟨a, a', ha, ha', hsub⟩ := ih h
          exact ⟨a, a', ha, ha', hsub.cons x⟩
      | some c =>
          rw [List.filterMap_cons_some hx] at h
          cases h with
          | cons _ h =>
              obtain ⟨a, a', ha, ha', hsub⟩ := ih h
              exact ⟨a, a', ha, ha', hsub.cons x⟩
          | cons_cons _ h =>
              obtain ⟨a', hmem, ha'⟩ := List.mem_filterMap.mp (List.singleton_sublist.mp h)
              exact ⟨x, a', hx, ha', (List.singleton_sublist.mpr hmem).cons_cons x⟩

/-- What is not in the second part of a list stands in the first. -/
theorem sublist_of_append {l as bs : List α} (h : List.Sublist l (as ++ bs))
    (hnot : ∀ x ∈ l, x ∉ bs) : List.Sublist l as := by
  obtain ⟨l₁, l₂, rfl, h₁, h₂⟩ := List.sublist_append_iff.mp h
  have hnil : l₂ = [] := by
    refine List.eq_nil_iff_forall_not_mem.mpr ?_
    intro x hx
    exact hnot x (List.mem_append_right _ hx) (h₂.subset hx)
  rw [hnil, List.append_nil]
  exact h₁

end Lists
