/-
Text files of lines, where the last line may be torn.

A writer appends a line and its newline; a crash or a failed write leaves any prefix of
that.  A reader takes the lines that end in a newline and nothing else, so a file stands
for its complete lines, whatever follows them.  `Holds` says which lines those are, and
the rules below say what is left of them after a cut, an append that stops anywhere, and
a read.
-/
import Mathlib.Data.List.DropRight
import Snip.Lib.Lists

namespace LineFile

/-- All up to the last newline. -/
def complete (text : List Char) : List Char := text.rdropWhile (· ≠ '\n')

/-- A line without the carriage return before its newline. -/
def stripCr (line : List Char) : List Char :=
  if line.getLast? = some '\r' then line.dropLast else line

/-- The complete lines, without their newlines. -/
def lines (text : List Char) : List (List Char) :=
  (((complete text).splitOn '\n').dropLast).map stripCr

/-- Lines as they are written. -/
def write (ls : List (List Char)) : List Char := ls.flatMap (· ++ ['\n'])

/-- The file has exactly these complete lines. -/
def Holds (ls : List (List Char)) (text : List Char) : Prop :=
  (∀ l ∈ ls, '\n' ∉ l) ∧ ∃ torn, '\n' ∉ torn ∧ text = write ls ++ torn

variable {ls : List (List Char)} {text l : List Char}

theorem write_append (ls ls' : List (List Char)) : write (ls ++ ls') = write ls ++ write ls' :=
  List.flatMap_append

theorem write_singleton (l : List Char) : write [l] = l ++ ['\n'] :=
  List.flatMap_singleton ..

theorem holds_nil : Holds [] [] := ⟨(fun _ h => nomatch h), [], List.not_mem_nil, rfl⟩

theorem holds_write (h : ∀ l ∈ ls, '\n' ∉ l) : Holds ls (write ls) :=
  ⟨h, [], List.not_mem_nil, (List.append_nil _).symm⟩

/-- What is complete ends in a newline, or is nothing. -/
theorem rdropWhile_write (ls : List (List Char)) : (write ls).rdropWhile (· ≠ '\n') = write ls := by
  induction ls using List.reverseRecOn with
  | nil => rfl
  | append_singleton ls l _ =>
      rw [write_append, write_singleton, ← List.append_assoc, List.rdropWhile_concat_neg _ _ _ (by simp)]

theorem Holds.complete_eq (h : Holds ls text) : complete text = write ls := by
  obtain ⟨-, torn, htorn, rfl⟩ := h
  unfold complete
  induction torn using List.reverseRecOn with
  | nil => rw [List.append_nil, rdropWhile_write]
  | append_singleton torn c ih =>
      simp only [List.mem_append, List.mem_singleton, not_or] at htorn
      rw [← List.append_assoc, List.rdropWhile_concat_pos _ _ _ (by simpa using Ne.symm htorn.2)]
      exact ih htorn.1

theorem splitOn_write (h : ∀ l ∈ ls, '\n' ∉ l) : (write ls).splitOn '\n' = ls ++ [[]] := by
  induction ls with
  | nil => rfl
  | cons l ls ih =>
      have hrest := ih fun l' hl' => h l' (List.mem_cons_of_mem _ hl')
      show ((l ++ ['\n']) ++ write ls).splitOn '\n' = _
      rw [List.append_assoc, List.singleton_append,
        List.splitOn_append_cons_self_of_not_mem (h l (List.mem_cons_self ..)), hrest]
      rfl

/-- **A reader finds the lines that the file holds,** unless one ends in a carriage return. -/
theorem Holds.lines_eq_of_getLast (h : Holds ls text) (hcr : ∀ l ∈ ls, l.getLast? ≠ some '\r') :
    lines text = ls := by
  unfold lines
  rw [h.complete_eq, splitOn_write h.1, List.dropLast_concat]
  conv_rhs => rw [← List.map_id ls]
  apply List.map_congr_left
  intro l hl
  unfold stripCr
  rw [if_neg (hcr l hl)]
  rfl

theorem Holds.lines_eq (h : Holds ls text) (hcr : ∀ l ∈ ls, '\r' ∉ l) : lines text = ls := by
  apply h.lines_eq_of_getLast
  intro l hl hlast
  exact hcr l hl (List.mem_of_getLast? hlast)

/-- A line that is read has no newline. -/
theorem not_mem_of_mem_lines (hl : l ∈ lines text) : '\n' ∉ l := by
  obtain ⟨raw, hraw, rfl⟩ := List.mem_map.mp hl
  have hfree := (Lists.mem_splitOn (List.dropLast_subset _ hraw)).1
  unfold stripCr
  split
  · exact fun hmem => hfree (List.dropLast_subset _ hmem)
  · exact hfree

/-- The cut of a torn line keeps the lines. -/
theorem Holds.cut (h : Holds ls text) : Holds ls (complete text) := by
  rw [h.complete_eq]
  exact holds_write h.1

/-- A whole line after the cut. -/
theorem Holds.append (h : Holds ls text) (hl : '\n' ∉ l) :
    Holds (ls ++ [l]) (complete text ++ (l ++ ['\n'])) := by
  rw [h.complete_eq, ← write_singleton, ← write_append]
  apply holds_write
  intro l' hl'
  rcases List.mem_append.mp hl' with hl' | hl'
  · exact h.1 l' hl'
  · rw [List.mem_singleton.mp hl']
    exact hl

/-- **An append that stops leaves the line out, unless all of it was written.** -/
theorem Holds.append_take (h : Holds ls text) (hl : '\n' ∉ l) (n : Nat) :
    Holds ls (complete text ++ (l ++ ['\n']).take n) ∨
      Holds (ls ++ [l]) (complete text ++ (l ++ ['\n']).take n) := by
  by_cases hn : n ≤ l.length
  · refine .inl ⟨h.1, l.take n, fun hmem => hl (List.mem_of_mem_take hmem), ?_⟩
    rw [h.complete_eq, List.take_append_of_le_length hn]
  · refine .inr ?_
    rw [List.take_of_length_le (by rw [List.length_append, List.length_singleton]; omega)]
    exact h.append hl

end LineFile
