/-
A file of keyed records that is only ever appended to, and how it is read back.

A key that was written with two different values is not trusted with either: the
reader drops it.  What a reader makes of a file therefore depends on the set of
its lines only, not on their order or on how often one was written, and
`lookup_recover` says exactly what.
-/
import Mathlib.Data.List.AList
import Mathlib.Data.List.Induction

namespace Ledger

variable {κ β : Type} [DecidableEq κ] [DecidableEq β]

/-- What has been read so far. -/
structure Recovery (κ β : Type) where
  records : AList (fun _ : κ => β)
  conflicted : List κ

/-- One more line. -/
def Recovery.readLine (s : Recovery κ β) (line : κ × β) : Recovery κ β :=
  if line.1 ∈ s.conflicted then s
  else
    match s.records.lookup line.1 with
    | some existing =>
        if existing = line.2 then s
        else ⟨s.records.erase line.1, line.1 :: s.conflicted⟩
    | none => ⟨s.records.insert line.1 line.2, s.conflicted⟩

/-- The whole file. -/
def recover (lines : List (κ × β)) : Recovery κ β :=
  lines.foldl Recovery.readLine ⟨∅, []⟩

/-- The records a file stands for. -/
def records (lines : List (κ × β)) : AList (fun _ : κ => β) :=
  (recover lines).records

/-- `s` is what the reader holds after `lines`. -/
structure Reads (lines : List (κ × β)) (s : Recovery κ β) : Prop where
  conflict : ∀ k, k ∈ s.conflicted ↔ ∃ v w, (k, v) ∈ lines ∧ (k, w) ∈ lines ∧ v ≠ w
  record : ∀ k v, s.records.lookup k = some v ↔
    (k, v) ∈ lines ∧ ∀ w, (k, w) ∈ lines → w = v

/-- A key without a record and without a conflict is in no line. -/
theorem Reads.absent {lines : List (κ × β)} {s : Recovery κ β} (h : Reads lines s) {k : κ}
    (hc : k ∉ s.conflicted) (hn : s.records.lookup k = none) : ∀ v, (k, v) ∉ lines := by
  intro v hv
  have hall : ∀ w, (k, w) ∈ lines → w = v := by
    intro w hw
    by_contra hne
    exact hc ((h.conflict k).mpr ⟨w, v, hw, hv, hne⟩)
  rw [(h.record k v).mpr ⟨hv, hall⟩] at hn
  cases hn

theorem reads_readLine {lines : List (κ × β)} {s : Recovery κ β} (h : Reads lines s)
    (line : κ × β) : Reads (lines ++ [line]) (s.readLine line) := by
  obtain ⟨k, v⟩ := line
  unfold Recovery.readLine
  by_cases hc : k ∈ s.conflicted
  · rw [if_pos hc]
    obtain ⟨a, b, ha, hb, hab⟩ := (h.conflict k).mp hc
    refine ⟨fun j => ?_, fun j u => ?_⟩
    · rw [h.conflict j]
      by_cases hj : j = k
      · subst hj
        exact ⟨fun _ => ⟨a, b, by simp [ha], by simp [hb], hab⟩, fun _ => ⟨a, b, ha, hb, hab⟩⟩
      · simp [hj]
    · rw [h.record j u]
      by_cases hj : j = k
      · subst hj
        refine ⟨fun hu => ?_, fun hu => ?_⟩
        · exact absurd ((hu.2 a ha).trans (hu.2 b hb).symm) hab
        · exact absurd ((hu.2 a (by simp [ha])).trans (hu.2 b (by simp [hb])).symm) hab
      · simp [hj]
  rw [if_neg hc]
  cases hl : s.records.lookup k with
  | none =>
      have habs := h.absent hc hl
      refine ⟨fun j => ?_, fun j u => ?_⟩
      · rw [h.conflict j]
        by_cases hj : j = k
        · subst hj
          simp [habs]
        · simp [hj]
      · by_cases hj : j = k
        · subst hj
          simp [habs, eq_comm]
        · rw [AList.lookup_insert_ne hj, h.record j u]
          simp [hj]
  | some e =>
      obtain ⟨he, -⟩ := (h.record k e).mp hl
      dsimp only
      by_cases hev : e = v
      · subst hev
        rw [if_pos rfl]
        have hmem : ∀ x, x ∈ lines ++ [(k, e)] ↔ x ∈ lines := by
          intro x
          simp only [List.mem_append, List.mem_singleton, or_iff_left_iff_imp]
          rintro rfl
          exact he
        refine ⟨fun j => ?_, fun j u => ?_⟩
        · simp only [h.conflict j, hmem]
        · simp only [h.record j u, hmem]
      · rw [if_neg hev]
        refine ⟨fun j => ?_, fun j u => ?_⟩
        · by_cases hj : j = k
          · subst hj
            simp only [List.mem_cons, true_or, true_iff]
            exact ⟨e, v, by simp [he], by simp, hev⟩
          · simp [hj, h.conflict j]
        · by_cases hj : j = k
          · subst hj
            rw [AList.lookup_erase]
            refine iff_of_false (by simp) fun hu => ?_
            exact absurd ((hu.2 e (by simp [he])).trans (hu.2 v (by simp)).symm) hev
          · rw [AList.lookup_erase_ne hj, h.record j u]
            simp [hj]

theorem reads_recover (lines : List (κ × β)) : Reads lines (recover lines) := by
  induction lines using List.reverseRecOn with
  | nil => exact ⟨by simp [recover], by simp [recover]⟩
  | append_singleton lines line ih =>
      rw [recover, List.foldl_concat]
      exact reads_readLine ih line

/-- **A file stands for the keys it gives one value.** -/
theorem lookup_records {lines : List (κ × β)} {k : κ} {v : β} :
    (records lines).lookup k = some v ↔ (k, v) ∈ lines ∧ ∀ w, (k, w) ∈ lines → w = v :=
  (reads_recover lines).record k v

end Ledger
