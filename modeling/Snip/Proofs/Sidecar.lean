/-
What the sidecar files stand for, whatever a crash or a failed write left of their last
line.

Each file holds lines that were asked for, and every line whose call returned; a torn
line has no newline, so it is none of them.  The map in memory is part of the file's
lines.  That is kept by every call and by every load, and from it a load finds each
record that was acknowledged, nothing that was not asked for, and a file to which what
was lost can be written again.
-/
import Mathlib.Data.List.Dedup
import Snip.Lib.Lists
import Snip.Lib.Steps
import Snip.Blake3
import Snip.Proofs.ContentId
import Snip.Proofs.SumStore
import Snip.Store.Sidecar

namespace Snip

/-! ### The cut -/

theorem complete_append {text rest : Str} (h : '\n' ∉ rest) :
    LineFile.complete (text ++ rest) = LineFile.complete text := by
  unfold LineFile.complete
  induction rest using List.reverseRecOn with
  | nil => rw [List.append_nil]
  | append_singleton rest c ih =>
      simp only [List.mem_append, List.mem_singleton, not_or] at h
      rw [← List.append_assoc, List.rdropWhile_concat_pos _ _ _ (by simpa using Ne.symm h.2)]
      exact ih h.1

theorem complete_concat (text : Str) : LineFile.complete (text ++ ['\n']) = text ++ ['\n'] :=
  List.rdropWhile_concat_neg _ _ _ (by simp)

theorem lastNewline_none {block : Str} (h : lastNewline block = none) : '\n' ∉ block := by
  unfold lastNewline at h
  rw [Option.map_eq_none_iff, List.findIdx?_eq_none_iff] at h
  intro hmem
  simpa using h '\n' (List.mem_reverse.mpr hmem)

theorem lastNewline_some {block : Str} {i : Nat} (h : lastNewline block = some i) :
    block.take (i + 1) = block.take i ++ ['\n'] ∧ '\n' ∉ block.drop (i + 1) := by
  unfold lastNewline at h
  obtain ⟨j, hj, rfl⟩ := Option.map_eq_some_iff.mp h
  obtain ⟨hlt, hat, hbefore⟩ := List.findIdx?_eq_some_iff_getElem.mp hj
  rw [List.length_reverse] at hlt
  rw [List.getElem_reverse] at hat
  refine ⟨?_, ?_⟩
  · rw [List.take_succ_eq_append_getElem (by omega)]
    congr 2
    simpa using hat
  · intro hmem
    obtain ⟨k, hk, hnewline⟩ := List.mem_iff_getElem.mp hmem
    rw [List.length_drop] at hk
    rw [List.getElem_drop] at hnewline
    have hno := hbefore (block.length - 1 - (block.length - 1 - j + 1 + k)) (by omega)
    rw [List.getElem_reverse] at hno
    apply hno
    simp only [decide_eq_true_eq]
    rw [← hnewline]
    congr 1
    omega

theorem lastNewline_lt {block : Str} {i : Nat} (h : lastNewline block = some i) : i < block.length := by
  unfold lastNewline at h
  obtain ⟨j, hj, rfl⟩ := Option.map_eq_some_iff.mp h
  obtain ⟨hlt, -⟩ := List.findIdx?_eq_some_iff_getElem.mp hj
  rw [List.length_reverse] at hlt
  omega

theorem drop_block (text : Str) {start stop : Nat} (h : start ≤ stop) :
    text.drop start = (text.drop start).take (stop - start) ++ text.drop stop := by
  have hrest : text.drop stop = (text.drop start).drop (stop - start) := by
    rw [List.drop_drop]
    congr 1
    omega
  rw [hrest, List.take_append_drop]

/-- The loop finds the last newline before `stop`. -/
theorem take_cutFrom {buffer : Nat} (hbuffer : 0 < buffer) (text : Str) (stop : Nat)
    (hstop : '\n' ∉ text.drop stop) :
    text.take (cutFrom hbuffer text stop) = LineFile.complete text := by
  fun_induction cutFrom hbuffer text stop with
  | case1 =>
      have hempty : LineFile.complete ([] ++ text.drop 0) = LineFile.complete [] := complete_append hstop
      rw [List.nil_append, List.drop_zero] at hempty
      rw [List.take_zero, hempty]
      rfl
  | case2 stop hne start i hi =>
      have hdrop := drop_block text (Nat.sub_le stop buffer)
      have hlt := lastNewline_lt hi
      obtain ⟨htake, hno⟩ := lastNewline_some hi
      have hstart : (text.take start).length = start := by
        rw [List.length_take]
        rw [List.length_take, List.length_drop] at hlt
        omega
      revert hdrop hlt htake hno
      generalize (text.drop start).take (stop - start) = block
      intro hdrop hlt htake hno
      have htext : text = (text.take start ++ block.take i ++ ['\n'])
          ++ (block.drop (i + 1) ++ text.drop stop) := by
        conv_lhs => rw [← List.take_append_drop start text, hdrop, ← List.take_append_drop (i + 1) block,
          htake]
        simp only [List.append_assoc]
      have hkeep : text.take (start + i + 1) = text.take start ++ block.take i ++ ['\n'] := by
        conv_lhs => rw [htext]
        rw [List.take_left']
        simp only [List.length_append, List.length_singleton, hstart, List.length_take]
        omega
      rw [hkeep]
      conv_rhs => rw [htext]
      rw [complete_append, complete_concat]
      simp only [List.mem_append, not_or]
      exact ⟨hno, hstop⟩
  | case3 stop hne start hnone ih =>
      have hblock := lastNewline_none hnone
      have hdrop := drop_block text (Nat.sub_le stop buffer)
      have hfree : '\n' ∉ text.drop start := by
        rw [hdrop, List.mem_append, not_or]
        exact ⟨hblock, hstop⟩
      exact ih hfree

/-- **The cut leaves the complete lines.** -/
theorem cutTornTail_eq (text : Str) : cutTornTail text = LineFile.complete text := by
  unfold cutTornTail
  cases hlast : text.getLast? with
  | none =>
      rw [List.getLast?_eq_none_iff.mp hlast]
      rfl
  | some c =>
      obtain ⟨rest, rfl⟩ := List.getLast?_eq_some_iff.mp hlast
      dsimp only
      by_cases hc : c = '\n'
      · subst hc
        rw [if_pos rfl, complete_concat]
      · rw [if_neg hc]
        apply take_cutFrom
        simpa using Ne.symm hc

/-! ### Lines, written and read -/

/-- A text of letters and digits, such as a content identifier. -/
def PlainText (s : Str) : Prop := s ≠ [] ∧ ∀ c ∈ s, c.isAlphanum = true

private theorem decimalDigit_facts : ∀ d < 10, (Char.ofNat (48 + d)).toNat = 48 + d ∧
    (Char.ofNat (48 + d)).isAlphanum = true := by decide

private theorem hexDigit_isAlphanum : ∀ d < 16, (hexDigit d).isAlphanum = true := by decide

private theorem base32Digit_isAlphanum : ∀ d < 32, (base32Digit d).isAlphanum = true := by decide

theorem formatDecimal_plain (n : Nat) : PlainText (formatDecimal n) := by
  unfold formatDecimal
  split
  · exact ⟨List.cons_ne_nil _ _, List.all_eq_true.mp (by decide)⟩
  · rename_i hn
    refine ⟨?_, ?_⟩
    · simpa using Nat.digits_ne_nil_iff_ne_zero.mpr hn
    · intro c hc
      obtain ⟨d, hd, rfl⟩ := List.mem_map.mp (List.mem_reverse.mp hc)
      exact (decimalDigit_facts d (Nat.digits_lt_base (by norm_num) hd)).2

theorem hexEncode_plain (h : Hash) : PlainText (hexEncode h.bytes) := by
  refine ⟨?_, ?_⟩
  · intro hnil
    have hlen := hexEncode_length h.bytes
    rw [hnil, h.size] at hlen
    cases hlen
  · intro c hc
    obtain ⟨x, -, hx⟩ := List.mem_flatMap.mp hc
    have hlt : x.toNat < 256 := x.toNat_lt
    rcases List.mem_cons.mp hx with rfl | hx
    · exact hexDigit_isAlphanum _ (by omega)
    · rw [List.mem_singleton.mp hx]
      exact hexDigit_isAlphanum _ (by omega)

/-- A content identifier is plain text. -/
theorem cidFromBlake3Hash_plain (h : Hash) : PlainText (cidFromBlake3Hash h) := by
  have hdigits : ∀ (k v : Nat), ∀ c ∈ base32Digits k v, c.isAlphanum = true := by
    intro k
    induction k with
    | zero => exact fun _ _ hc => nomatch hc
    | succ k ih =>
        intro v c hc
        rcases List.mem_append.mp hc with hc | hc
        · exact ih _ c hc
        · rw [List.mem_singleton.mp hc]
          exact base32Digit_isAlphanum _ (Nat.mod_lt _ (by norm_num))
  refine ⟨List.cons_ne_nil _ _, ?_⟩
  intro c hc
  rcases List.mem_cons.mp hc with rfl | hc
  · rfl
  · exact hdigits _ _ c hc

namespace PlainText

variable {s : Str}

theorem not_mem (h : PlainText s) {c : Char} (hc : c.isAlphanum = false) : c ∉ s := by
  intro hmem
  rw [h.2 c hmem] at hc
  cases hc

theorem not_whitespace (h : PlainText s) {c : Char} (hc : c ∈ s) : isWhitespace c = false := by
  have halpha := h.2 c hc
  have hrange : 48 ≤ c.toNat ∧ c.toNat ≤ 122 := by
    have hA : 'A'.val.toNat = 65 := rfl
    have hZ : 'Z'.val.toNat = 90 := rfl
    have ha : 'a'.val.toNat = 97 := rfl
    have hz : 'z'.val.toNat = 122 := rfl
    have h0 : '0'.val.toNat = 48 := rfl
    have h9 : '9'.val.toNat = 57 := rfl
    have hdef : c.isAlphanum = ((decide (c.val ≥ 'A'.val ∧ c.val ≤ 'Z'.val) ||
        (c.val ≥ 'a'.val && c.val ≤ 'z'.val)) || (c.val ≥ '0'.val && c.val ≤ '9'.val)) := rfl
    rw [hdef] at halpha
    simp only [Bool.or_eq_true, decide_eq_true_eq, Bool.and_eq_true, UInt32.le_iff_toNat_le,
      ge_iff_le] at halpha
    unfold Char.toNat
    omega
  unfold isWhitespace
  simp only [Bool.or_eq_false_iff, Bool.and_eq_false_iff, decide_eq_false_iff_not]
  omega

end PlainText

theorem parseU32_formatDecimal {n : Nat} (h : n < 2 ^ 32) : parseU32 (formatDecimal n) = some n := by
  have hplain := formatDecimal_plain n
  have hvalue : (formatDecimal n).foldl (fun n c => 10 * n + (c.toNat - 48)) 0 = n := by
    unfold formatDecimal
    split
    · rename_i hn
      rw [hn]
      rfl
    · have hdigits : ∀ ds : List Nat, (∀ d ∈ ds, d < 10) →
          ((ds.map fun d => Char.ofNat (48 + d)).reverse).foldl (fun n c => 10 * n + (c.toNat - 48)) 0
            = Nat.ofDigits 10 ds := by
        intro ds
        induction ds with
        | nil => exact fun _ => rfl
        | cons d ds ih =>
            intro hds
            have hd := (decimalDigit_facts d (hds d (List.mem_cons_self ..))).1
            rw [List.map_cons, List.reverse_cons, List.foldl_concat,
              ih fun d' hd' => hds d' (List.mem_cons_of_mem _ hd'), hd, Nat.ofDigits_cons]
            omega
      rw [hdigits _ fun d hd => Nat.digits_lt_base (by norm_num) hd, Nat.ofDigits_digits]
  have hdigit : ∀ c ∈ formatDecimal n, 48 ≤ c.toNat ∧ c.toNat ≤ 57 := by
    unfold formatDecimal
    split
    · intro c hc
      rw [List.mem_singleton.mp hc]
      decide
    · intro c hc
      obtain ⟨d, hd, rfl⟩ := List.mem_map.mp (List.mem_reverse.mp hc)
      have hlt := Nat.digits_lt_base (by norm_num) hd
      rw [(decimalDigit_facts d hlt).1]
      omega
  unfold parseU32
  rw [if_neg]
  · dsimp only
    rw [hvalue, if_pos h]
  · rw [not_or]
    refine ⟨hplain.1, ?_⟩
    simp only [List.any_eq_true, not_exists, not_and, Bool.not_eq_eq_eq_not]
    intro c hc
    simpa using hdigit c hc

theorem decodeHexRoot_hexEncode (h : Hash) : decodeHexRoot (hexEncode h.bytes) = some h := by
  unfold decodeHexRoot
  rw [hexEncode_length, h.size, if_neg (by norm_num), hexPairs_hexEncode]
  show Hash.ofBytes? h.bytes = some h
  unfold Hash.ofBytes?
  rw [dif_pos h.size]

/-- A text that can stand as a word of a line. -/
def Word (s : Str) : Prop := s ≠ [] ∧ ∀ c ∈ s, isWhitespace c = false

theorem PlainText.word {s : Str} (h : PlainText s) : Word s :=
  ⟨h.1, fun _ hc => h.not_whitespace hc⟩

theorem Word.not_mem {s : Str} (h : Word s) {c : Char} (hc : isWhitespace c = true) : c ∉ s := by
  intro hmem
  rw [h.2 c hmem] at hc
  cases hc

theorem parseU32_lt {s : Str} {n : Nat} (h : parseU32 s = some n) : n < 2 ^ 32 := by
  unfold parseU32 at h
  split at h
  · cases h
  · dsimp only at h
    split at h
    · rename_i hlt
      cases h
      exact hlt
    · cases h

theorem parseV2HeldLine_some {line : Str} {r : Nat × Str} (h : parseV2HeldLine line = some r) :
    r.1 < 2 ^ 32 ∧ Word r.2 := by
  unfold parseV2HeldLine at h
  split at h
  · rename_i index cid _
    split at h
    · cases h
    · rename_i hcid
      obtain ⟨i, hi, rfl⟩ := Option.map_eq_some_iff.mp h
      rw [not_or] at hcid
      refine ⟨parseU32_lt hi, hcid.1, ?_⟩
      intro c hc
      by_contra hspace
      exact hcid.2 (List.any_eq_true.mpr ⟨c, hc, by simpa using hspace⟩)
  · cases h

/-- **A held line reads back as the record it was written for.** -/
theorem parseV2HeldLine_format {i : Nat} {cid : Str} (hi : i < 2 ^ 32) (hcid : Word cid) :
    parseV2HeldLine (formatV2HeldLine i cid) = some (i, cid) := by
  unfold parseV2HeldLine formatV2HeldLine
  rw [List.splitOn_append_cons_self_of_not_mem ((formatDecimal_plain i).not_mem rfl),
    List.splitOn_eq_singleton (hcid.not_mem rfl)]
  dsimp only
  rw [if_neg, parseU32_formatDecimal hi]
  · rfl
  · rw [not_or]
    refine ⟨hcid.1, ?_⟩
    simp only [List.any_eq_true, not_exists, not_and, Bool.not_eq_true]
    exact hcid.2

theorem mapM_decodeHexRoot (path : List Hash) :
    (path.map fun h => hexEncode h.bytes).mapM decodeHexRoot = some path := by
  refine Lists.mapM_eq_some_iff.mpr (List.forall₂_map_left_iff.mpr (List.forall₂_same.mpr ?_))
  intro h _
  exact decodeHexRoot_hexEncode h

theorem mem_formatPath {path : List Hash} {c : Char} (h : c ∈ formatPath path) :
    c = '-' ∨ c = ',' ∨ c.isAlphanum = true := by
  unfold formatPath at h
  split at h
  · exact .inl (List.mem_singleton.mp h)
  · induction path with
    | nil => cases h
    | cons x path ih =>
        cases path with
        | nil =>
            rw [List.map_singleton, List.intercalate_singleton] at h
            exact .inr (.inr ((hexEncode_plain x).2 c h))
        | cons y path =>
            rw [List.map_cons, List.map_cons, List.intercalate_cons_cons] at h
            rcases List.mem_append.mp h with h | h
            · rcases List.mem_append.mp h with h | h
              · exact .inr (.inr ((hexEncode_plain x).2 c h))
              · exact .inr (.inl (List.mem_singleton.mp h))
            · exact ih (List.cons_ne_nil _ _) h

theorem parse_formatPath {path : List Hash} (h : path.length ≤ maxPushedProofDepth) :
    parsePath (formatPath path) = some path := by
  cases path with
  | nil => rfl
  | cons x path =>
      have hformat : formatPath (x :: path)
          = [','].intercalate ((x :: path).map fun h => hexEncode h.bytes) :=
        if_neg (List.cons_ne_nil _ _)
      have hne : formatPath (x :: path) ≠ ['-'] := by
        intro heq
        have hmem : '-' ∈ formatPath (x :: path) := by
          rw [heq]
          exact List.mem_singleton.mpr rfl
        obtain ⟨c, rest, hc⟩ := List.exists_cons_of_ne_nil (hexEncode_plain x).1
        have hhead : c ∈ hexEncode x.bytes := by
          rw [hc]
          exact List.mem_cons_self ..
        have hfirst : (formatPath (x :: path)).head? = some c := by
          rw [hformat]
          cases path with
          | nil => rw [List.map_singleton, List.intercalate_singleton, hc]; rfl
          | cons y path => rw [List.map_cons, List.map_cons, List.intercalate_cons_cons, hc]; rfl
        rw [heq] at hfirst
        cases hfirst
        have halpha := (hexEncode_plain x).2 '-' hhead
        cases halpha
      unfold parsePath
      rw [if_neg hne, hformat, List.splitOn_intercalate _ _ (by simp), mapM_decodeHexRoot]
      · rw [Option.filter_some, if_pos (decide_eq_true h)]
      · intro l hl
        obtain ⟨y, -, rfl⟩ := List.mem_map.mp hl
        exact (hexEncode_plain y).not_mem rfl

/-- **A proof line reads back as the record it was written for.** -/
theorem parseV2ProofLine_format {i : Nat} {proof : PushedProof} (hi : i < 2 ^ 32)
    (hpath : proof.path.length ≤ maxPushedProofDepth) :
    parseV2ProofLine (formatV2ProofLine i proof) = some (i, proof) := by
  have hspace : ' ' ∉ formatPath proof.path := by
    intro hmem
    rcases mem_formatPath hmem with h | h | h <;> cases h
  unfold parseV2ProofLine formatV2ProofLine
  rw [List.splitOn_append_cons_self_of_not_mem ((formatDecimal_plain i).not_mem rfl),
    List.splitOn_append_cons_self_of_not_mem ((hexEncode_plain _).not_mem rfl),
    List.splitOn_eq_singleton hspace]
  dsimp only
  rw [parseU32_formatDecimal hi, decodeHexRoot_hexEncode, parse_formatPath hpath]
  rfl

/-! ### What a file stands for -/

/-- The text of a file; one that is missing has none. -/
def SidecarFiles.text (f : SidecarFiles) (root : Hash) : Str := (f.texts.lookup root).getD []

/-- **An append touches one file,** and that file has the line afterwards, or has not. -/
theorem SidecarFiles.appendLine_spec (io : AppendIo) (f : SidecarFiles) (root : Hash) {line : Str}
    (hline : '\n' ∉ line) (ls : List Str) (h : LineFile.Holds ls (f.text root)) :
    let out := f.appendLine io root line
    (∀ r, r ≠ root → out.1.text r = f.text r) ∧
      (LineFile.Holds ls (out.1.text root) ∨ LineFile.Holds (ls ++ [line]) (out.1.text root)) ∧
      (out.2 = .ok () → LineFile.Holds (ls ++ [line]) (out.1.text root)) := by
  have hother : ∀ text durable r, r ≠ root →
      SidecarFiles.text ⟨f.texts.insert root text, durable⟩ r = f.text r := by
    intro text durable r hr
    unfold SidecarFiles.text
    rw [AList.lookup_insert_ne hr]
  have hthis : ∀ text durable, SidecarFiles.text ⟨f.texts.insert root text, durable⟩ root = text := by
    intro text durable
    unfold SidecarFiles.text
    rw [AList.lookup_insert]
    rfl
  have hcut : cutTornTail ((f.texts.lookup root).getD []) = LineFile.complete (f.text root) :=
    cutTornTail_eq _
  unfold SidecarFiles.appendLine
  dsimp only
  split
  · exact ⟨fun _ _ => rfl, .inl h, fun hok => by cases hok⟩
  split
  · exact ⟨hother _ _, .inl (by rw [hthis]; exact h), fun hok => by cases hok⟩
  split
  · exact ⟨hother _ _, .inl (by rw [hthis]; exact h), fun hok => by cases hok⟩
  split
  · rw [hthis, hcut]
    exact ⟨hother _ _, h.append_take hline _, fun hok => by cases hok⟩
  · rw [hthis, hcut]
    exact ⟨hother _ _, .inr (h.append hline), fun _ => h.append hline⟩

theorem mem_sortedRecords {β : Type} {m : Map Nat β} {r : Nat × β} :
    r ∈ sortedRecords m ↔ m.lookup r.1 = some r.2 := by
  unfold sortedRecords
  rw [List.mem_mergeSort, List.mem_map]
  constructor
  · rintro ⟨e, he, rfl⟩
    exact AList.mem_lookup_iff.mpr he
  · intro hlook
    exact ⟨⟨r.1, r.2⟩, AList.mem_lookup_iff.mp hlook, rfl⟩

/-- What the lines of a file parse to. -/
theorem mem_parsed {β : Type} {parse : Str → Option (Nat × β)} {text : Str} {r : Nat × β} :
    r ∈ ((LineFile.lines text).map parse).filterMap id ↔
      ∃ line ∈ LineFile.lines text, parse line = some r := by
  simp only [List.mem_filterMap, List.mem_map, id]
  constructor
  · rintro ⟨parsed, ⟨line, hline, rfl⟩, hparsed⟩
    exact ⟨line, hline, hparsed⟩
  · rintro ⟨line, hline, hparsed⟩
    exact ⟨some r, ⟨line, hline, hparsed⟩, rfl⟩

/-- **A load keeps the records that nothing in the file contradicts.** -/
theorem lookup_loadRecords {β : Type} [DecidableEq β] {parse : Str → Option (Nat × β)}
    {format : Nat → β → Str} (rewrites : Bool) {text : Str} {i : Nat} {v : β} :
    (loadRecords parse format rewrites text).1.lookup i = some v ↔
      (∃ line ∈ LineFile.lines text, parse line = some (i, v)) ∧
        ∀ w, (∃ line ∈ LineFile.lines text, parse line = some (i, w)) → w = v := by
  have hrecords : (loadRecords parse format rewrites text).1.lookup i = some v ↔
      (i, v) ∈ ((LineFile.lines text).map parse).filterMap id ∧
        ∀ w, (i, w) ∈ ((LineFile.lines text).map parse).filterMap id → w = v := Ledger.lookup_records
  rw [hrecords]
  simp only [mem_parsed]

/-- **A load finds the lines of a file,** and leaves a file with the same lines. -/
theorem loadRecords_spec {β : Type} [DecidableEq β] {parse : Str → Option (Nat × β)}
    {format : Nat → β → Str} (rewrites : Bool) {text : Str} {rs : List (Nat × β)}
    (h : LineFile.Holds (rs.map fun r => format r.1 r.2) text)
    (hparse : ∀ r ∈ rs, parse (format r.1 r.2) = some r) (hcr : ∀ r ∈ rs, '\r' ∉ format r.1 r.2)
    (huniq : ∀ i v w, (i, v) ∈ rs → (i, w) ∈ rs → v = w) :
    (∀ i v, (loadRecords parse format rewrites text).1.lookup i = some v ↔ (i, v) ∈ rs) ∧
      ∃ rs' : List (Nat × β), LineFile.Holds (rs'.map fun r => format r.1 r.2)
        (loadRecords parse format rewrites text).2 ∧ ∀ r, r ∈ rs' ↔ r ∈ rs := by
  have hlines : LineFile.lines text = rs.map fun r => format r.1 r.2 := by
    apply h.lines_eq
    intro l hl
    obtain ⟨r, hr, rfl⟩ := List.mem_map.mp hl
    exact hcr r hr
  have hparsed : ((LineFile.lines text).map parse).filterMap id = rs := by
    rw [hlines, List.map_map, List.filterMap_map]
    calc rs.filterMap (id ∘ (parse ∘ fun r => format r.1 r.2)) = rs.filterMap some :=
          List.filterMap_congr hparse
      _ = rs := List.filterMap_some
  have hrecords : ∀ i v, (Ledger.recover rs).records.lookup i = some v ↔ (i, v) ∈ rs := by
    intro i v
    have hlookup : (Ledger.recover rs).records.lookup i = some v ↔
        (i, v) ∈ rs ∧ ∀ w, (i, w) ∈ rs → w = v := Ledger.lookup_records
    rw [hlookup]
    exact ⟨fun hv => hv.1, fun hv => ⟨hv, fun w hw => huniq i w v hw hv⟩⟩
  unfold loadRecords
  dsimp only
  rw [hparsed]
  refine ⟨hrecords, ?_⟩
  split
  · refine ⟨sortedRecords (Ledger.recover rs).records, ?_, ?_⟩
    · apply LineFile.holds_write
      intro l hl
      obtain ⟨r, hr, rfl⟩ := List.mem_map.mp hl
      have hmem := (hrecords r.1 r.2).mp (mem_sortedRecords.mp hr)
      exact h.1 _ (List.mem_map.mpr ⟨r, hmem, rfl⟩)
    · intro r
      rw [mem_sortedRecords]
      exact hrecords r.1 r.2
  · exact ⟨rs, h, fun _ => Iff.rfl⟩

/-- An identifier that is loaded is what a line is read as. -/
theorem mem_loadPrivateChunkLines {rewrites : Bool} {text cid : Str} :
    cid ∈ (loadPrivateChunkLines rewrites text).1 ↔
      ∃ line ∈ LineFile.lines text, readPrivateChunk line = some cid := by
  unfold loadPrivateChunkLines
  dsimp only
  rw [List.mem_reverse, List.mem_dedup, List.mem_reverse, List.mem_filterMap]
  simp only [List.mem_map, id, exists_eq_right]

/-- The identifiers of a private file, and the file after. -/
theorem loadPrivateChunkLines_spec (rewrites : Bool) {text : Str} {rs : List Str}
    (h : LineFile.Holds (rs.map id) text) (htext : ∀ cid ∈ rs, LineText cid) :
    (∀ cid, cid ∈ (loadPrivateChunkLines rewrites text).1 ↔ cid ∈ rs) ∧
      ∃ rs' : List Str, LineFile.Holds (rs'.map id) (loadPrivateChunkLines rewrites text).2 ∧
        ∀ r, r ∈ rs' ↔ r ∈ rs := by
  have hlines : LineFile.lines text = rs := by
    rw [List.map_id] at h
    exact h.lines_eq_of_getLast fun l hl => (htext l hl).getLast?
  have hparsed : ((LineFile.lines text).map readPrivateChunk).filterMap id = rs := by
    rw [hlines, List.filterMap_map]
    calc rs.filterMap (id ∘ readPrivateChunk) = rs.filterMap some :=
          List.filterMap_congr fun cid hcid => (htext cid hcid).read
      _ = rs := List.filterMap_some
  have hmem : ∀ cid, cid ∈ rs.reverse.dedup.reverse ↔ cid ∈ rs := by
    intro cid
    rw [List.mem_reverse, List.mem_dedup, List.mem_reverse]
  unfold loadPrivateChunkLines
  dsimp only
  rw [hparsed]
  refine ⟨hmem, ?_⟩
  split
  · refine ⟨rs.reverse.dedup.reverse, ?_, hmem⟩
    rw [List.map_id]
    exact LineFile.holds_write fun l hl => (htext l ((hmem l).mp hl)).noNewline
  · exact ⟨rs, h, fun _ => Iff.rfl⟩

/-! ### What a history keeps -/

/-- A call or a restart, and whether it returned `Ok`. -/
abbrev SidecarEvent := SidecarOp × Bool

namespace SidecarOp

/-- The record that a call is for, by kind of file. -/
def heldRecord : SidecarOp → Option (Hash × (Nat × Str))
  | .held root index cid _ => some (root, (index, cid))
  | _ => none

def proofRecord : SidecarOp → Option (Hash × (Nat × PushedProof))
  | .proof root index p _ => some (root, (index, p))
  | _ => none

/-- The same, for a proof that leads to its root. -/
def soundProof [Blake3] (op : SidecarOp) : Option (Hash × (Nat × PushedProof)) :=
  op.proofRecord.filter fun r => pushedProofVerifies r.1 r.2.1 r.2.2

def privateRecord : SidecarOp → Option (Hash × Str)
  | .privateCid root cid _ => some (root, cid)
  | _ => none

end SidecarOp

section Kept

variable {ρ : Type} (of : SidecarOp → Option (Hash × ρ))

/-- The record was asked for. -/
def Asked (past : List SidecarEvent) (root : Hash) (r : ρ) : Prop :=
  ∃ l ∈ past, of l.1 = some (root, r)

/-- A call for the record returned `Ok`. -/
def Acknowledged (past : List SidecarEvent) (root : Hash) (r : ρ) : Prop :=
  ∃ l ∈ past, of l.1 = some (root, r) ∧ l.2 = true

/--
The files of one kind after a history: each holds lines that were asked for, every
line that was acknowledged, and every record in memory.
-/
def Kept (format : ρ → Str) (memory : Hash → ρ → Prop) (text : Hash → Str)
    (past : List SidecarEvent) : Prop :=
  ∀ root, ∃ rs : List ρ, LineFile.Holds (rs.map format) (text root) ∧
    (∀ r ∈ rs, Asked of past root r) ∧ (∀ r, Acknowledged of past root r → r ∈ rs) ∧
    ∀ r, memory root r → r ∈ rs

variable {of} {format : ρ → Str} {memory memory' : Hash → ρ → Prop} {text text' : Hash → Str}
  {past : List SidecarEvent} {l : SidecarEvent} {root : Hash} {r : ρ}

theorem Asked.later (h : Asked of past root r) (l : SidecarEvent) : Asked of (past ++ [l]) root r := by
  obtain ⟨e, he, hr⟩ := h
  exact ⟨e, List.mem_append_left _ he, hr⟩

theorem asked_last (h : of l.1 = some (root, r)) : Asked of (past ++ [l]) root r :=
  ⟨l, List.mem_append_right _ (List.mem_singleton.mpr rfl), h⟩

theorem acknowledged_append (h : Acknowledged of (past ++ [l]) root r) :
    Acknowledged of past root r ∨ of l.1 = some (root, r) ∧ l.2 = true := by
  obtain ⟨e, he, hr⟩ := h
  rcases List.mem_append.mp he with he | he
  · exact .inl ⟨e, he, hr⟩
  · rw [List.mem_singleton.mp he] at hr
    exact .inr hr

/-- An event that leaves the files as they are, and acknowledges what is in memory at most. -/
theorem Kept.same (h : Kept of format memory text past) (hmemory : ∀ root r, memory' root r → memory root r)
    (hack : ∀ root r, of l.1 = some (root, r) → l.2 = true → memory root r) :
    Kept of format memory' text (past ++ [l]) := by
  intro root
  obtain ⟨rs, hholds, hasked, hacked, hmem⟩ := h root
  refine ⟨rs, hholds, fun r hr => (hasked r hr).later l, ?_, fun r hr => hmem r (hmemory root r hr)⟩
  intro r hr
  rcases acknowledged_append hr with hr | ⟨hof, hok⟩
  · exact hacked r hr
  · exact hmem r (hack root r hof hok)

/-- A call that appends its line, wherever the write stops. -/
theorem Kept.append (h : Kept of format memory text past) {root₀ : Hash} {r₀ : ρ}
    (hof : of l.1 = some (root₀, r₀)) (hother : ∀ root, root ≠ root₀ → text' root = text root)
    (hwritten : ∀ ls, LineFile.Holds ls (text root₀) →
      (LineFile.Holds ls (text' root₀) ∨ LineFile.Holds (ls ++ [format r₀]) (text' root₀)) ∧
      (l.2 = true → LineFile.Holds (ls ++ [format r₀]) (text' root₀)))
    (hmemory : ∀ root r, memory' root r → memory root r ∨ l.2 = true ∧ root = root₀ ∧ r = r₀) :
    Kept of format memory' text' (past ++ [l]) := by
  intro root
  obtain ⟨rs, hholds, hasked, hacked, hmem⟩ := h root
  have hold : ∀ r ∈ rs, Asked of (past ++ [l]) root r := fun r hr => (hasked r hr).later l
  by_cases hroot : root = root₀
  · subst hroot
    obtain ⟨hsome, hok⟩ := hwritten _ hholds
    have hmore : LineFile.Holds (rs.map format ++ [format r₀]) (text' root) →
        ∃ rs' : List ρ, LineFile.Holds (rs'.map format) (text' root) ∧
          (∀ r ∈ rs', Asked of (past ++ [l]) root r) ∧
          (∀ r, Acknowledged of (past ++ [l]) root r → r ∈ rs') ∧ ∀ r, memory' root r → r ∈ rs' := by
      intro hnew
      refine ⟨rs ++ [r₀], by rwa [List.map_append], ?_, ?_, ?_⟩
      · intro r hr
        rcases List.mem_append.mp hr with hr | hr
        · exact hold r hr
        · rw [List.mem_singleton.mp hr]
          exact asked_last hof
      · intro r hr
        rcases acknowledged_append hr with hr | ⟨hr, -⟩
        · exact List.mem_append_left _ (hacked r hr)
        · rw [hof] at hr
          cases hr
          exact List.mem_append_right _ (List.mem_singleton.mpr rfl)
      · intro r hr
        rcases hmemory root r hr with hr | ⟨-, -, rfl⟩
        · exact List.mem_append_left _ (hmem r hr)
        · exact List.mem_append_right _ (List.mem_singleton.mpr rfl)
    by_cases hack : l.2 = true
    · exact hmore (hok hack)
    · rcases hsome with hsame | hnew
      · refine ⟨rs, hsame, hold, ?_, ?_⟩
        · intro r hr
          rcases acknowledged_append hr with hr | ⟨-, htrue⟩
          · exact hacked r hr
          · exact absurd htrue hack
        · intro r hr
          rcases hmemory root r hr with hr | ⟨htrue, -⟩
          · exact hmem r hr
          · exact absurd htrue hack
      · exact hmore hnew
  · refine ⟨rs, by rw [hother root hroot]; exact hholds, hold, ?_, ?_⟩
    · intro r hr
      rcases acknowledged_append hr with hr | ⟨hr, -⟩
      · exact hacked r hr
      · rw [hof] at hr
        cases hr
        exact absurd rfl hroot
    · intro r hr
      rcases hmemory root r hr with hr | ⟨-, heq, -⟩
      · exact hmem r hr
      · exact absurd heq hroot

/-- A call that gets as far as its append. -/
theorem Kept.appended {files files' : SidecarFiles} {io : AppendIo} {result : Except StoreError Unit}
    {root₀ : Hash} {r₀ : ρ} (h : Kept of format memory files.text past)
    (hof : of l.1 = some (root₀, r₀)) (hline : '\n' ∉ format r₀)
    (hout : files.appendLine io root₀ (format r₀) = (files', result))
    (hok : l.2 = true ↔ result = .ok ())
    (hmemory : ∀ root r, memory' root r → memory root r ∨ result = .ok () ∧ root = root₀ ∧ r = r₀) :
    Kept of format memory' files'.text (past ++ [l]) := by
  have hspec := files.appendLine_spec io root₀ hline
  rw [hout] at hspec
  obtain ⟨rs, hholds, -⟩ := h root₀
  refine h.append hof (hspec _ hholds).1 ?_ ?_
  · exact fun ls hls => ⟨(hspec ls hls).2.1, fun htrue => (hspec ls hls).2.2 (hok.mp htrue)⟩
  · intro root r hr
    rcases hmemory root r hr with hr | ⟨hresult, hrest⟩
    · exact .inl hr
    · exact .inr ⟨hok.mpr hresult, hrest⟩

/-- A restart that reads what the files hold, and leaves files with the same lines. -/
theorem Kept.reload (h : Kept of format memory text past) (l : SidecarEvent)
    (memory' : Hash → ρ → Prop) (text' : Hash → Str) (hof : of l.1 = none)
    (hload : ∀ root (rs : List ρ), LineFile.Holds (rs.map format) (text root) →
      (∀ r ∈ rs, Asked of past root r) →
      (∀ r, memory' root r ↔ r ∈ rs) ∧
        ∃ rs' : List ρ, LineFile.Holds (rs'.map format) (text' root) ∧ ∀ r, r ∈ rs' ↔ r ∈ rs) :
    Kept of format memory' text' (past ++ [l]) ∧
      (∀ root r, Acknowledged of past root r → memory' root r) ∧
      ∀ root r, memory' root r → Asked of past root r := by
  refine ⟨?_, ?_, ?_⟩
  · intro root
    obtain ⟨rs, hholds, hasked, hacked, -⟩ := h root
    obtain ⟨hmemory, rs', hholds', hsame⟩ := hload root rs hholds hasked
    refine ⟨rs', hholds', fun r hr => (hasked r ((hsame r).mp hr)).later l, ?_,
      fun r hr => (hsame r).mpr ((hmemory r).mp hr)⟩
    intro r hr
    rcases acknowledged_append hr with hr | ⟨hr, -⟩
    · exact (hsame r).mpr (hacked r hr)
    · rw [hof] at hr
      cases hr
  · intro root r hr
    obtain ⟨rs, hholds, hasked, hacked, -⟩ := h root
    exact ((hload root rs hholds hasked).1 r).mpr (hacked r hr)
  · intro root r hr
    obtain ⟨rs, hholds, hasked, -⟩ := h root
    exact hasked r (((hload root rs hholds hasked).1 r).mp hr)

end Kept

/-! ### Every call and every restart -/

/-- The line of a record, by kind of file. -/
def heldLine (r : Nat × Str) : Str := formatV2HeldLine r.1 r.2

def proofLine (r : Nat × PushedProof) : Str := formatV2ProofLine r.1 r.2

/-- The values of a call are ones that a line of the file can carry, whole or torn. -/
def SidecarOp.Carried : SidecarOp → Prop
  | .held _ index cid _ => index < 2 ^ 32 ∧ Word cid ∧ Ascii cid
  | .proof _ index _ _ => index < 2 ^ 32
  | .privateCid _ cid _ => LineText cid ∧ Ascii cid
  | .load _ => True

/-- All calls for one index carry one value, and all calls for one private identifier one root. -/
structure Consistent (past : List SidecarEvent) : Prop where
  carried : ∀ l ∈ past, l.1.Carried
  held : ∀ root i v w, Asked SidecarOp.heldRecord past root (i, v) →
    Asked SidecarOp.heldRecord past root (i, w) → v = w
  proofs : ∀ root i v w, Asked SidecarOp.proofRecord past root (i, v) →
    Asked SidecarOp.proofRecord past root (i, w) → v = w
  privates : ∀ root root' cid, Asked SidecarOp.privateRecord past root cid →
    Asked SidecarOp.privateRecord past root' cid → root = root'

theorem Consistent.init {past : List SidecarEvent} {l : SidecarEvent} (h : Consistent (past ++ [l])) :
    Consistent past where
  carried e he := h.carried e (List.mem_append_left _ he)
  held root i v w hv hw := h.held root i v w (hv.later l) (hw.later l)
  proofs root i v w hv hw := h.proofs root i v w (hv.later l) (hw.later l)
  privates root root' cid hv hw := h.privates root root' cid (hv.later l) (hw.later l)

theorem Consistent.held_carried {past : List SidecarEvent} (h : Consistent past) {root : Hash}
    {r : Nat × Str} (hr : Asked SidecarOp.heldRecord past root r) : r.1 < 2 ^ 32 ∧ Word r.2 := by
  obtain ⟨⟨op, ok⟩, hl, hof⟩ := hr
  have hcarried := h.carried _ hl
  cases op <;> cases hof
  exact ⟨hcarried.1, hcarried.2.1⟩

theorem Consistent.proof_carried {past : List SidecarEvent} (h : Consistent past) {root : Hash}
    {r : Nat × PushedProof} (hr : Asked SidecarOp.proofRecord past root r) : r.1 < 2 ^ 32 := by
  obtain ⟨⟨op, ok⟩, hl, hof⟩ := hr
  have hcarried := h.carried _ hl
  cases op <;> cases hof
  exact hcarried

theorem Consistent.private_carried {past : List SidecarEvent} (h : Consistent past) {root : Hash}
    {cid : Str} (hr : Asked SidecarOp.privateRecord past root cid) : LineText cid := by
  obtain ⟨⟨op, ok⟩, hl, hof⟩ := hr
  have hcarried := h.carried _ hl
  cases op <;> cases hof
  exact hcarried.1

theorem heldLine_not_mem {i : Nat} {cid : Str} (h : Word cid) {c : Char}
    (hc : isWhitespace c = true) (hspace : c ≠ ' ') : c ∉ heldLine (i, cid) := by
  unfold heldLine formatV2HeldLine
  rw [List.mem_append, List.mem_cons, not_or, not_or]
  exact ⟨(formatDecimal_plain i).word.not_mem hc, hspace, h.not_mem hc⟩

theorem proofLine_not_mem (r : Nat × PushedProof) {c : Char} (hc : c.isAlphanum = false)
    (hspace : c ≠ ' ') (hdash : c ≠ '-') (hcomma : c ≠ ',') : c ∉ proofLine r := by
  unfold proofLine formatV2ProofLine
  rw [List.mem_append, List.mem_cons, List.mem_append, List.mem_cons]
  rintro (h | h | h | h | h)
  · exact (formatDecimal_plain _).not_mem hc h
  · exact hspace h
  · exact (hexEncode_plain _).not_mem hc h
  · exact hspace h
  · rcases mem_formatPath h with h | h | h
    · exact hdash h
    · exact hcomma h
    · rw [hc] at h
      cases h

theorem soundProof_some [Blake3] {op : SidecarOp} {root : Hash} {r : Nat × PushedProof} :
    op.soundProof = some (root, r) ↔
      op.proofRecord = some (root, r) ∧ pushedProofVerifies root r.1 r.2 = true := by
  unfold SidecarOp.soundProof
  rw [Option.filter_eq_some_iff]

theorem Asked.of_sound [Blake3] {past : List SidecarEvent} {root : Hash} {r : Nat × PushedProof}
    (h : Asked SidecarOp.soundProof past root r) :
    Asked SidecarOp.proofRecord past root r ∧ pushedProofVerifies root r.1 r.2 = true := by
  obtain ⟨l, hl, hof⟩ := h
  obtain ⟨hrecord, hsound⟩ := soundProof_some.mp hof
  exact ⟨⟨l, hl, hrecord⟩, hsound⟩

/-- What a history keeps of the three kinds of files. -/
structure Sidecars.Inv [Blake3] (s : Sidecars) (past : List SidecarEvent) : Prop where
  held : Kept SidecarOp.heldRecord heldLine (fun root r => s.heldRecord root r.1 = some r.2)
    s.heldFiles.text past
  proofs : Kept SidecarOp.soundProof proofLine (fun root r => s.proofRecord root r.1 = some r.2)
    s.proofFiles.text past
  privates : Kept SidecarOp.privateRecord id (fun root cid => s.privateCidToRoot.lookup cid = some root)
    s.privateFiles.text past
  /-- A proof that was acknowledged was checked. -/
  checked : ∀ root r, Acknowledged SidecarOp.proofRecord past root r →
    pushedProofVerifies root r.1 r.2 = true

/-- What a map of maps has after an insertion. -/
theorem nested_insert {β : Type} {m : Map Hash (Map Nat β)} {root root' : Hash} {index i : Nat} {v w : β}
    (h : ((m.insert root (((m.lookup root).getD ∅).insert index v)).lookup root').bind
      (fun records => records.lookup i) = some w) :
    (m.lookup root').bind (fun records => records.lookup i) = some w ∨
      root' = root ∧ i = index ∧ w = v := by
  rw [Maps.lookup_insert] at h
  split at h
  · rename_i hroot
    rw [Option.bind_some, Maps.lookup_insert_some] at h
    rcases h with ⟨hi, hv⟩ | ⟨-, h⟩
    · exact .inr ⟨hroot, hi, hv.symm⟩
    · left
      rw [hroot]
      cases hmap : m.lookup root with
      | none =>
          rw [hmap] at h
          cases h
      | some records =>
          rw [hmap] at h
          exact h
  · exact .inl h

/-- One call or restart, with whether it returns `Ok`. -/
def Sidecars.Step [Blake3] (s : Sidecars) (l : SidecarEvent) (t : Sidecars) : Prop :=
  (s.apply l.1).1 = t ∧ (l.2 = true ↔ (s.apply l.1).2 = .ok ())

namespace Sidecars

variable [Blake3] {s t : Sidecars} {past : List SidecarEvent} {ok : Bool}

theorem checked_append {l : SidecarEvent} (h : s.Inv past)
    (hl : ∀ root r, l.1.proofRecord = some (root, r) → l.2 = true →
      pushedProofVerifies root r.1 r.2 = true) :
    ∀ root r, Acknowledged SidecarOp.proofRecord (past ++ [l]) root r →
      pushedProofVerifies root r.1 r.2 = true := by
  intro root r hr
  rcases acknowledged_append hr with hr | ⟨hof, hok⟩
  · exact h.checked root r hr
  · exact hl root r hof hok

theorem Inv.held_step (h : s.Inv past) {root : Hash} {index : Nat} {cid : Str} {io : AppendIo}
    (hword : Word cid) (hstep : Step s (.held root index cid io, ok) t) :
    t.Inv (past ++ [(.held root index cid io, ok)]) := by
  obtain ⟨rfl, hok⟩ := hstep
  change (ok = true ↔ (s.recordV2HeldIndex io root index cid).2 = .ok ()) at hok
  show Inv (s.recordV2HeldIndex io root index cid).1 _
  revert hok
  unfold recordV2HeldIndex
  -- The other two kinds of files are not touched.
  have hproofs := h.proofs.same (l := (.held root index cid io, ok)) (fun _ _ hr => hr)
    (fun _ _ hof _ => nomatch hof)
  have hprivates := h.privates.same (l := (.held root index cid io, ok)) (fun _ _ hr => hr)
    (fun _ _ hof _ => nomatch hof)
  have hchecked := checked_append h (l := (.held root index cid io, ok)) (fun _ _ hof _ => nomatch hof)
  cases hrecord : s.heldRecord root index with
  | some existing =>
      dsimp only
      split
      · rename_i heq
        intro _
        refine ⟨h.held.same (fun _ _ hr => hr) ?_, hproofs, hprivates, hchecked⟩
        intro root' r hof _
        cases hof
        rw [hrecord, heq]
      · intro hok
        refine ⟨h.held.same (fun _ _ hr => hr) ?_, hproofs, hprivates, hchecked⟩
        intro root' r _ htrue
        cases hok.mp htrue
  | none =>
      have hline : '\n' ∉ heldLine (index, cid) := heldLine_not_mem hword rfl (by decide)
      cases hout : s.heldFiles.appendLine io root (formatV2HeldLine index cid) with
      | mk files result =>
          cases result with
          | error e =>
              intro hok
              exact ⟨h.held.appended rfl hline hout hok fun _ _ hr => .inl hr, hproofs, hprivates, hchecked⟩
          | ok u =>
              intro hok
              refine ⟨h.held.appended rfl hline hout hok ?_, hproofs, hprivates, hchecked⟩
              intro root' r hr
              rcases nested_insert hr with hr | ⟨hroot, hi, hv⟩
              · exact .inl hr
              · exact .inr ⟨rfl, hroot, Prod.ext hi hv⟩

theorem Inv.proof_step (h : s.Inv past) {root : Hash} {index : Nat} {proof : PushedProof}
    {io : AppendIo} (hstep : Step s (.proof root index proof io, ok) t) :
    t.Inv (past ++ [(.proof root index proof io, ok)]) := by
  obtain ⟨rfl, hok⟩ := hstep
  change (ok = true ↔ (s.recordV2PushedProof io root index proof).2 = .ok ()) at hok
  show Inv (s.recordV2PushedProof io root index proof).1 _
  revert hok
  unfold recordV2PushedProof
  have hheld := h.held.same (l := (.proof root index proof io, ok)) (fun _ _ hr => hr)
    (fun _ _ hof _ => nomatch hof)
  have hprivates := h.privates.same (l := (.proof root index proof io, ok)) (fun _ _ hr => hr)
    (fun _ _ hof _ => nomatch hof)
  cases hrecord : s.proofRecord root index with
  | some existing =>
      dsimp only
      split
      · rename_i heq
        intro _
        -- What is in memory was asked for and checked.
        have hsound : pushedProofVerifies root index proof = true := by
          obtain ⟨rs, -, hasked, -, hmem⟩ := h.proofs root
          have hin := hmem (index, proof) (hrecord.trans (congrArg some heq))
          exact (hasked _ hin).of_sound.2
        refine ⟨hheld, h.proofs.same (fun _ _ hr => hr) ?_, hprivates, checked_append h ?_⟩
        · intro root' r hof _
          cases (soundProof_some.mp hof).1
          rw [hrecord, heq]
        · intro root' r hof _
          cases hof
          exact hsound
      · intro hok
        have hfalse : ¬ ok = true := fun htrue => nomatch hok.mp htrue
        exact ⟨hheld, h.proofs.same (fun _ _ hr => hr) fun _ _ _ htrue => absurd htrue hfalse, hprivates,
          checked_append h fun _ _ _ htrue => absurd htrue hfalse⟩
  | none =>
      dsimp only
      split
      · intro hok
        have hfalse : ¬ ok = true := fun htrue => nomatch hok.mp htrue
        exact ⟨hheld, h.proofs.same (fun _ _ hr => hr) fun _ _ _ htrue => absurd htrue hfalse, hprivates,
          checked_append h fun _ _ _ htrue => absurd htrue hfalse⟩
      · rename_i hverifies
        have hsound : pushedProofVerifies root index proof = true := by simpa using hverifies
        have hof : SidecarOp.soundProof (.proof root index proof io) = some (root, (index, proof)) :=
          soundProof_some.mpr ⟨rfl, hsound⟩
        have hchecked := checked_append h (l := (.proof root index proof io, ok)) (by
          intro root' r hr _
          cases hr
          exact hsound)
        have hline : '\n' ∉ proofLine (index, proof) :=
          proofLine_not_mem _ rfl (by decide) (by decide) (by decide)
        cases hout : s.proofFiles.appendLine io root (formatV2ProofLine index proof) with
        | mk files result =>
            cases result with
            | error e =>
                intro hok
                exact ⟨hheld, h.proofs.appended hof hline hout hok fun _ _ hr => .inl hr, hprivates,
                  hchecked⟩
            | ok u =>
                intro hok
                refine ⟨hheld, h.proofs.appended hof hline hout hok ?_, hprivates, hchecked⟩
                intro root' r hr
                rcases nested_insert hr with hr | ⟨hroot, hi, hv⟩
                · exact .inl hr
                · exact .inr ⟨rfl, hroot, Prod.ext hi hv⟩

theorem Inv.private_step (h : s.Inv past) {root : Hash} {cid : Str} {io : AppendIo}
    (htext : LineText cid) (hstep : Step s (.privateCid root cid io, ok) t) :
    t.Inv (past ++ [(.privateCid root cid io, ok)]) := by
  obtain ⟨rfl, hok⟩ := hstep
  change (ok = true ↔ (s.recordPrivateChunkCid io root cid).2 = .ok ()) at hok
  show Inv (s.recordPrivateChunkCid io root cid).1 _
  revert hok
  unfold recordPrivateChunkCid
  have hheld := h.held.same (l := (.privateCid root cid io, ok)) (fun _ _ hr => hr)
    (fun _ _ hof _ => nomatch hof)
  have hproofs := h.proofs.same (l := (.privateCid root cid io, ok)) (fun _ _ hr => hr)
    (fun _ _ hof _ => nomatch hof)
  have hchecked := checked_append h (l := (.privateCid root cid io, ok)) (fun _ _ hof _ => nomatch hof)
  cases hrecord : s.privateCidToRoot.lookup cid with
  | some existing =>
      dsimp only
      split
      · rename_i heq
        intro _
        refine ⟨hheld, hproofs, h.privates.same (fun _ _ hr => hr) ?_, hchecked⟩
        intro root' r hof _
        cases hof
        rw [hrecord, heq]
      · intro hok
        refine ⟨hheld, hproofs, h.privates.same (fun _ _ hr => hr) ?_, hchecked⟩
        intro root' r _ htrue
        cases hok.mp htrue
  | none =>
      dsimp only
      cases hout : s.privateFiles.appendLine io root cid with
      | mk files result =>
          cases result with
          | error e =>
              intro hok
              exact ⟨hheld, hproofs, h.privates.appended rfl htext.noNewline hout hok
                fun _ _ hr => .inl hr, hchecked⟩
          | ok u =>
              intro hok
              refine ⟨hheld, hproofs, h.privates.appended rfl htext.noNewline hout hok ?_, hchecked⟩
              intro root' r hr
              rcases Maps.lookup_insert_some.mp hr with ⟨hcid, hroot⟩ | ⟨-, hr⟩
              · exact .inr ⟨rfl, hroot.symm, hcid⟩
              · exact .inl hr

omit [Blake3] in
/-- A file after a load, and its records. -/
theorem text_mapValues {α : Type} (f : Hash → Str → α × Str) (files : SidecarFiles) (root : Hash) :
    SidecarFiles.text ⟨Maps.mapValues (fun _ r => r.2) (Maps.mapValues f files.texts), []⟩ root
      = (((files.texts.lookup root).map fun text => (f root text).2).getD []) := by
  unfold SidecarFiles.text
  rw [Maps.lookup_mapValues, Maps.lookup_mapValues, Option.map_map]
  rfl

omit [Blake3] in
theorem records_mapValues {β : Type} [DecidableEq β] (f : Hash → Str → Map Nat β × Str)
    (files : SidecarFiles) (root : Hash) (i : Nat) :
    ((Maps.mapValues (fun _ r => r.1) (Maps.mapValues f files.texts)).lookup root).bind
        (fun records => records.lookup i)
      = (files.texts.lookup root).bind fun text => (f root text).1.lookup i := by
  rw [Maps.lookup_mapValues, Maps.lookup_mapValues]
  cases files.texts.lookup root with
  | none => rfl
  | some text => rfl

omit [Blake3] in
/-- The records and the file of one root after a load, whether the file was there or not. -/
theorem loadFile_spec {β : Type} [DecidableEq β] (parse : Hash → Str → Option (Nat × β))
    (format : Nat → β → Str) (rewrites : Hash → Bool) (files : SidecarFiles) (root : Hash)
    {rs : List (Nat × β)}
    (h : LineFile.Holds (rs.map fun r => format r.1 r.2) (files.text root))
    (hparse : ∀ r ∈ rs, parse root (format r.1 r.2) = some r) (hcr : ∀ r ∈ rs, '\r' ∉ format r.1 r.2)
    (huniq : ∀ i v w, (i, v) ∈ rs → (i, w) ∈ rs → v = w) :
    let f := fun root text => loadRecords (parse root) format (rewrites root) text
    (∀ r : Nat × β, ((Maps.mapValues (fun _ r => r.1) (Maps.mapValues f files.texts)).lookup root).bind
        (fun records => records.lookup r.1) = some r.2 ↔ r ∈ rs) ∧
      ∃ rs' : List (Nat × β), LineFile.Holds (rs'.map fun r => format r.1 r.2)
        (SidecarFiles.text ⟨Maps.mapValues (fun _ r => r.2) (Maps.mapValues f files.texts), []⟩ root) ∧
        ∀ r, r ∈ rs' ↔ r ∈ rs := by
  intro f
  have hspec := loadRecords_spec (rewrites root) h hparse hcr huniq
  rw [text_mapValues]
  cases hfile : files.texts.lookup root with
  | none =>
      -- A file that is missing holds no lines.
      have htext : files.text root = [] := by
        unfold SidecarFiles.text
        rw [hfile]
        rfl
      have hempty : rs = [] := by
        have hlines := h.lines_eq fun l hl => by
          obtain ⟨r, hr, rfl⟩ := List.mem_map.mp hl
          exact hcr r hr
        rw [htext] at hlines
        exact List.map_eq_nil_iff.mp hlines.symm
      subst hempty
      refine ⟨?_, [], LineFile.holds_nil, fun _ => Iff.rfl⟩
      intro r
      rw [records_mapValues, hfile]
      exact iff_of_false (fun h => nomatch h) List.not_mem_nil
  | some text =>
      have htext : files.text root = text := by
        unfold SidecarFiles.text
        rw [hfile]
        rfl
      rw [htext] at hspec
      refine ⟨?_, hspec.2⟩
      intro r
      rw [records_mapValues, hfile]
      exact hspec.1 r.1 r.2

omit [Blake3] in
theorem lookup_insertAll (root : Hash) (cid : Str) : ∀ (cids : List Str) (acc : Map Str Hash),
    (cids.foldl (fun acc cid => acc.insert cid root) acc).lookup cid
      = if cid ∈ cids then some root else acc.lookup cid := by
  intro cids
  induction cids with
  | nil => exact fun acc => rfl
  | cons c cids ih =>
      intro acc
      rw [List.foldl_cons, ih, Maps.lookup_insert]
      by_cases hc : cid = c
      · subst hc
        simp
      · simp [hc]

omit [Blake3] in
/-- The map that a load builds gives an identifier a root that has it in its file. -/
theorem lookup_privates (cidsOf : Hash → List Str) (cid : Str) :
    ∀ (roots : List Hash) (acc : Map Str Hash) (root : Hash),
      (roots.foldl (fun acc root => (cidsOf root).foldl (fun acc cid => acc.insert cid root) acc)
          acc).lookup cid = some root →
      acc.lookup cid = some root ∨ root ∈ roots ∧ cid ∈ cidsOf root := by
  intro roots
  induction roots with
  | nil => exact fun acc root h => .inl h
  | cons r roots ih =>
      intro acc root h
      rw [List.foldl_cons] at h
      rcases ih _ root h with h | ⟨hmem, hcid⟩
      · rw [lookup_insertAll] at h
        split at h
        · rename_i hcid
          cases h
          exact .inr ⟨List.mem_cons_self .., hcid⟩
        · exact .inl h
      · exact .inr ⟨List.mem_cons_of_mem _ hmem, hcid⟩

omit [Blake3] in
theorem lookup_privates_of_mem (cidsOf : Hash → List Str) {cid : Str} {root : Hash}
    (hcid : cid ∈ cidsOf root) (huniq : ∀ r, cid ∈ cidsOf r → r = root) :
    ∀ (roots : List Hash) (acc : Map Str Hash), root ∈ roots ∨ acc.lookup cid = some root →
      (roots.foldl (fun acc root => (cidsOf root).foldl (fun acc cid => acc.insert cid root) acc)
          acc).lookup cid = some root := by
  intro roots
  induction roots with
  | nil =>
      intro acc h
      rcases h with h | h
      · cases h
      · exact h
  | cons r roots ih =>
      intro acc h
      rw [List.foldl_cons]
      by_cases hr : r = root
      · subst hr
        exact ih _ (.inr (by rw [lookup_insertAll, if_pos hcid]))
      · have hno : cid ∉ cidsOf r := fun hmem => hr (huniq r hmem)
        apply ih
        rcases h with h | h
        · exact .inl ((List.mem_cons.mp h).resolve_left fun heq => hr heq.symm)
        · exact .inr (by rw [lookup_insertAll, if_neg hno]; exact h)

omit [Blake3] in
/-- The identifiers and the file of one root after a load. -/
theorem loadPrivateFile_spec (rewrites : Hash → Bool) (files : SidecarFiles) (root : Hash)
    {rs : List Str} (h : LineFile.Holds (rs.map id) (files.text root))
    (htext : ∀ cid ∈ rs, LineText cid) :
    let privates := Maps.mapValues (fun root text => loadPrivateChunkLines (rewrites root) text)
      files.texts
    (∀ cid, cid ∈ (((privates.lookup root).map Prod.fst).getD []) ↔ cid ∈ rs) ∧
      ∃ rs' : List Str, LineFile.Holds (rs'.map id)
        (SidecarFiles.text ⟨Maps.mapValues (fun _ r => r.2) privates, []⟩ root) ∧
        ∀ r, r ∈ rs' ↔ r ∈ rs := by
  intro privates
  have hspec := loadPrivateChunkLines_spec (rewrites root) h htext
  have hlookup : privates.lookup root
      = (files.texts.lookup root).map fun text => loadPrivateChunkLines (rewrites root) text :=
    Maps.lookup_mapValues ..
  have hfiles : SidecarFiles.text ⟨Maps.mapValues (fun _ r => r.2) privates, []⟩ root
      = ((files.texts.lookup root).map
        fun text => (loadPrivateChunkLines (rewrites root) text).2).getD [] := text_mapValues ..
  rw [hlookup, hfiles]
  cases hfile : files.texts.lookup root with
  | none =>
      have hempty : rs = [] := by
        have hlines := h.lines_eq_of_getLast fun l hl => by
          rw [List.map_id] at hl
          exact (htext l hl).getLast?
        unfold SidecarFiles.text at hlines
        rw [hfile, List.map_id] at hlines
        exact hlines.symm
      subst hempty
      exact ⟨fun _ => Iff.rfl, [], LineFile.holds_nil, fun _ => Iff.rfl⟩
  | some text =>
      have hsame : files.text root = text := by
        unfold SidecarFiles.text
        rw [hfile]
        rfl
      rw [hsame] at hspec
      exact hspec

/-- **A restart finds in each file what the file holds.** -/
theorem Inv.load (h : s.Inv past) (hcons : Consistent past) (io : LoadIo) :
    (s.load io).Inv (past ++ [(.load io, true)]) ∧
      (∀ root r, Acknowledged SidecarOp.heldRecord past root r →
        (s.load io).heldRecord root r.1 = some r.2) ∧
      (∀ root r, (s.load io).heldRecord root r.1 = some r.2 →
        Asked SidecarOp.heldRecord past root r) ∧
      (∀ root r, Acknowledged SidecarOp.soundProof past root r →
        (s.load io).proofRecord root r.1 = some r.2) ∧
      (∀ root r, (s.load io).proofRecord root r.1 = some r.2 →
        Asked SidecarOp.soundProof past root r) ∧
      (∀ root cid, Acknowledged SidecarOp.privateRecord past root cid →
        (s.load io).privateCidToRoot.lookup cid = some root) ∧
      (∀ root cid, (s.load io).privateCidToRoot.lookup cid = some root →
        Asked SidecarOp.privateRecord past root cid) := by
  have hheld := h.held.reload (.load io, true)
    (fun root r => (s.load io).heldRecord root r.1 = some r.2) (s.load io).heldFiles.text rfl (by
      intro root rs hholds hasked
      exact loadFile_spec (fun _ => parseV2HeldLine) formatV2HeldLine io.rewritesHeld s.heldFiles root
        hholds
        (fun r hr => parseV2HeldLine_format (hcons.held_carried (hasked r hr)).1
          (hcons.held_carried (hasked r hr)).2)
        (fun r hr => heldLine_not_mem (hcons.held_carried (hasked r hr)).2 rfl (by decide))
        (fun i v w hv hw => hcons.held root i v w (hasked _ hv) (hasked _ hw)))
  have hproofs := h.proofs.reload (.load io, true)
    (fun root r => (s.load io).proofRecord root r.1 = some r.2) (s.load io).proofFiles.text rfl (by
      intro root rs hholds hasked
      refine loadFile_spec (fun root line => (parseV2ProofLine line).filter
          fun r => pushedProofVerifies root r.1 r.2) formatV2ProofLine io.rewritesProofs s.proofFiles root
        hholds ?_ (fun r _ => proofLine_not_mem r rfl (by decide) (by decide) (by decide))
        (fun i v w hv hw => hcons.proofs root i v w (hasked _ hv).of_sound.1 (hasked _ hw).of_sound.1)
      intro r hr
      obtain ⟨hraw, hsound⟩ := (hasked r hr).of_sound
      have hdepth : r.2.path.length ≤ maxPushedProofDepth := by
        unfold pushedProofVerifies at hsound
        simp only [Bool.and_eq_true, decide_eq_true_eq] at hsound
        exact hsound.1.1
      rw [parseV2ProofLine_format (hcons.proof_carried hraw) hdepth, Option.filter_some, if_pos hsound])
  have hprivates := h.privates.reload (.load io, true)
    (fun root cid => (s.load io).privateCidToRoot.lookup cid = some root) (s.load io).privateFiles.text rfl (by
      intro root rs hholds hasked
      let privates := Maps.mapValues (fun root text => loadPrivateChunkLines (io.rewritesPrivate root) text)
        s.privateFiles.texts
      let cidsOf : Hash → List Str := fun root => ((privates.lookup root).map Prod.fst).getD []
      have hfile := loadPrivateFile_spec io.rewritesPrivate s.privateFiles root hholds
        fun cid hcid => hcons.private_carried (hasked cid hcid)
      have hasks : ∀ r cid, cid ∈ cidsOf r → Asked SidecarOp.privateRecord past r cid := by
        intro r cid hcid
        obtain ⟨rs, hholds, hasked, -⟩ := h.privates r
        have hspec := loadPrivateFile_spec io.rewritesPrivate s.privateFiles r hholds
          fun cid hcid => hcons.private_carried (hasked cid hcid)
        exact hasked cid ((hspec.1 cid).mp hcid)
      have huniq : ∀ cid r r', cid ∈ cidsOf r → cid ∈ cidsOf r' → r = r' :=
        fun cid r r' hr hr' => hcons.privates r r' cid (hasks r cid hr) (hasks r' cid hr')
      have hroots : ∀ r cid, cid ∈ cidsOf r → r ∈ (io.order.filter fun r => r ∈ privates.keys) ++
          privates.keys.filter fun r => r ∉ io.order := by
        intro r cid hcid
        have hkey : r ∈ privates.keys := by
          by_contra hno
          have hnone : privates.lookup r = none := AList.lookup_eq_none.mpr fun h => hno (AList.mem_keys.mp h)
          simp only [cidsOf, hnone] at hcid
          cases hcid
        by_cases horder : r ∈ io.order
        · exact List.mem_append_left _ (List.mem_filter.mpr ⟨horder, decide_eq_true hkey⟩)
        · exact List.mem_append_right _ (List.mem_filter.mpr ⟨hkey, decide_eq_true horder⟩)
      refine ⟨fun cid => ?_, hfile.2⟩
      rw [← hfile.1 cid]
      constructor
      · intro hlook
        rcases lookup_privates cidsOf cid _ ∅ root hlook with hnone | ⟨-, hcid⟩
        · cases hnone
        · exact hcid
      · intro hcid
        exact lookup_privates_of_mem cidsOf hcid (fun r hr => huniq cid r root hr hcid) _ ∅
          (.inl (hroots root cid hcid)))
  refine ⟨⟨hheld.1, hproofs.1, hprivates.1, ?_⟩, hheld.2.1, hheld.2.2, hproofs.2.1, hproofs.2.2,
    hprivates.2.1, hprivates.2.2⟩
  exact checked_append (s := s) h fun _ _ hof _ => nomatch hof

/-- **Every call and every restart keeps it.** -/
theorem Inv.step (h : s.Inv past) {l : SidecarEvent} (hcons : Consistent (past ++ [l]))
    (hstep : Step s l t) : t.Inv (past ++ [l]) := by
  have hcarried := hcons.carried l (List.mem_append_right _ (List.mem_singleton.mpr rfl))
  obtain ⟨op, ok⟩ := l
  cases op with
  | held root index cid io => exact h.held_step hcarried.2.1 hstep
  | proof root index proof io => exact h.proof_step hstep
  | privateCid root cid io => exact h.private_step hcarried.1 hstep
  | load io =>
      obtain ⟨rfl, hok⟩ := hstep
      obtain rfl : ok = true := hok.mpr rfl
      exact (h.load hcons.init io).1

theorem Inv.fresh : Inv fresh [] := by
  have hnone : ∀ {ρ : Type} (of : SidecarOp → Option (Hash × ρ)) (format : ρ → Str)
      (memory : Hash → ρ → Prop), (∀ root r, ¬ memory root r) →
      Kept of format memory (fun _ => []) [] := by
    intro ρ of format memory hmem root
    refine ⟨[], LineFile.holds_nil, (fun _ h => nomatch h), ?_, fun r hr => absurd hr (hmem root r)⟩
    rintro r ⟨l, hl, -⟩
    cases hl
  refine ⟨hnone _ _ _ (fun _ _ h => nomatch h), hnone _ _ _ (fun _ _ h => nomatch h),
    hnone _ _ _ (fun _ _ h => nomatch h), ?_⟩
  rintro root r ⟨l, hl, -⟩
  cases hl

theorem Inv.run {ls : List SidecarEvent} (hrun : Run Step Sidecars.fresh ls s) (hcons : Consistent ls) :
    s.Inv ls := by
  have hall := hrun.invariant (P := fun past s => Consistent past → s.Inv past)
    (fun past s l t h hstep hcons => (h hcons.init).step hcons hstep) [] (fun _ => Inv.fresh)
  exact hall hcons

end Sidecars

/-! ### What a load can find

No line is ever read as anything but these, so a record of another text is lost by a load,
though the call for it may have returned. -/

section
variable [Blake3] (s : Sidecars) (io : LoadIo) {root : Hash} {i : Nat} {cid : Str}

theorem Sidecars.heldRecord_load (h : (s.load io).heldRecord root i = some cid) :
    i < 2 ^ 32 ∧ Word cid := by
  have hrecord : (s.load io).heldRecord root i = (s.heldFiles.texts.lookup root).bind fun text =>
      (loadRecords parseV2HeldLine formatV2HeldLine (io.rewritesHeld root) text).1.lookup i :=
    Sidecars.records_mapValues ..
  rw [hrecord, Option.bind_eq_some_iff] at h
  obtain ⟨text, -, hlook⟩ := h
  obtain ⟨⟨line, -, hparse⟩, -⟩ := (lookup_loadRecords _).mp hlook
  exact parseV2HeldLine_some hparse

theorem Sidecars.privateCidToRoot_load (h : (s.load io).privateCidToRoot.lookup cid = some root) :
    LineText cid := by
  rcases Sidecars.lookup_privates _ cid _ ∅ root h with hnone | ⟨-, hcid⟩
  · cases hnone
  rw [Maps.lookup_mapValues] at hcid
  cases hfile : s.privateFiles.texts.lookup root with
  | none =>
      rw [hfile] at hcid
      cases hcid
  | some text =>
      rw [hfile] at hcid
      obtain ⟨line, hline, hread⟩ := mem_loadPrivateChunkLines.mp hcid
      exact lineText_of_read (LineFile.not_mem_of_mem_lines hline) hread

end

/-! ### Records and restarts -/

theorem SidecarFiles.appendLine_done (f : SidecarFiles) (root : Hash) (line : Str) :
    (f.appendLine .done root line).2 = .ok () := by
  unfold SidecarFiles.appendLine AppendIo.done
  simp

/--
**A restart finds what was acknowledged, nothing that was not asked for, and takes what
was lost again,** after every history of calls, failures, crashes and restarts in which
the calls do not contradict each other.
-/
theorem sidecars_survive_restart [Blake3] (ls : List SidecarEvent) (s : Sidecars)
    (hrun : Run Sidecars.Step Sidecars.fresh ls s) (hcons : Consistent ls) (io : LoadIo) :
    (∀ root r, Acknowledged SidecarOp.heldRecord ls root r →
      (s.load io).heldRecord root r.1 = some r.2) ∧
    (∀ root r, (s.load io).heldRecord root r.1 = some r.2 → Asked SidecarOp.heldRecord ls root r) ∧
    (∀ root r, Asked SidecarOp.heldRecord ls root r →
      ((s.load io).recordV2HeldIndex .done root r.1 r.2).2 = .ok ()) ∧
    (∀ root r, Acknowledged SidecarOp.proofRecord ls root r →
      (s.load io).proofRecord root r.1 = some r.2) ∧
    (∀ root r, (s.load io).proofRecord root r.1 = some r.2 → Asked SidecarOp.proofRecord ls root r) ∧
    (∀ root r, Asked SidecarOp.proofRecord ls root r → pushedProofVerifies root r.1 r.2 = true →
      ((s.load io).recordV2PushedProof .done root r.1 r.2).2 = .ok ()) ∧
    (∀ root cid, Acknowledged SidecarOp.privateRecord ls root cid →
      (s.load io).privateCidToRoot.lookup cid = some root) ∧
    (∀ root cid, (s.load io).privateCidToRoot.lookup cid = some root →
      Asked SidecarOp.privateRecord ls root cid) ∧
    (∀ root cid, Asked SidecarOp.privateRecord ls root cid →
      ((s.load io).recordPrivateChunkCid .done root cid).2 = .ok ()) := by
  have hinv := Sidecars.Inv.run hrun hcons
  obtain ⟨-, hheld, hheldAsked, hproof, hproofAsked, hprivate, hprivateAsked⟩ := hinv.load hcons io
  refine ⟨hheld, hheldAsked, ?_, ?_, ?_, ?_, hprivate, hprivateAsked, ?_⟩
  · intro root r hr
    unfold Sidecars.recordV2HeldIndex
    cases hrecord : (s.load io).heldRecord root r.1 with
    | some existing =>
        have hsame := hcons.held root r.1 existing r.2 (hheldAsked root (r.1, existing) hrecord) hr
        dsimp only
        rw [if_pos hsame]
    | none =>
        have hdone := (s.load io).heldFiles.appendLine_done root (formatV2HeldLine r.1 r.2)
        dsimp only
        split
        · rename_i hout
          rw [hout] at hdone
          exact hdone
        · rfl
  · rintro root r ⟨l, hl, hof, hok⟩
    have hsound := hinv.checked root r ⟨l, hl, hof, hok⟩
    exact hproof root r ⟨l, hl, soundProof_some.mpr ⟨hof, hsound⟩, hok⟩
  · exact fun root r hr => (hproofAsked root r hr).of_sound.1
  · intro root r hr hsound
    unfold Sidecars.recordV2PushedProof
    cases hrecord : (s.load io).proofRecord root r.1 with
    | some existing =>
        have hsame := hcons.proofs root r.1 existing r.2
          (hproofAsked root (r.1, existing) hrecord).of_sound.1 hr
        dsimp only
        rw [if_pos hsame]
    | none =>
        have hdone := (s.load io).proofFiles.appendLine_done root (formatV2ProofLine r.1 r.2)
        dsimp only
        rw [hsound, if_neg (by decide)]
        split
        · rename_i hout
          rw [hout] at hdone
          exact hdone
        · rfl
  · intro root cid hcid
    unfold Sidecars.recordPrivateChunkCid
    cases hrecord : (s.load io).privateCidToRoot.lookup cid with
    | some existing =>
        have hsame := hcons.privates existing root cid (hprivateAsked existing cid hrecord) hcid
        dsimp only
        rw [if_pos hsame]
    | none =>
        have hdone := (s.load io).privateFiles.appendLine_done root cid
        dsimp only
        split
        · rename_i hout
          rw [hout] at hdone
          exact hdone
        · rfl

/-! #### A torn line

Chunk 2 of a file is recorded under `cid`, and the write stops after `2 ci`, which would
read as chunk 2 under `ci`.  The store is opened again, the call is made again, and this
time it returns. -/

/-- The history. -/
def tornHistory : List SidecarEvent :=
  [(.held Hash.zero 2 ['c', 'i', 'd'] ⟨true, true, true, some 4, true⟩, false),
    (.load ⟨[], fun _ => false, fun _ => false, fun _ => false⟩, true),
    (.held Hash.zero 2 ['c', 'i', 'd'] .done, true)]

theorem tornHistory_held {root : Hash} {i : Nat} {v : Str}
    (h : Asked SidecarOp.heldRecord tornHistory root (i, v)) : v = ['c', 'i', 'd'] := by
  obtain ⟨l, hl, hof⟩ := h
  simp only [tornHistory, List.mem_cons, List.not_mem_nil, or_false] at hl
  rcases hl with rfl | rfl | rfl <;> cases hof <;> rfl

theorem tornHistory_consistent : Consistent tornHistory := by
  have hword : Word ['c', 'i', 'd'] ∧ Ascii ['c', 'i', 'd'] :=
    ⟨⟨List.cons_ne_nil _ _, by simp [isWhitespace]⟩, by simp [Ascii]⟩
  refine ⟨?_, ?_, ?_, ?_⟩
  · intro l hl
    simp only [tornHistory, List.mem_cons, List.not_mem_nil, or_false] at hl
    rcases hl with rfl | rfl | rfl
    · exact ⟨by norm_num, hword⟩
    · trivial
    · exact ⟨by norm_num, hword⟩
  · intro root i v w hv hw
    rw [tornHistory_held hv, tornHistory_held hw]
  · rintro root i v w ⟨l, hl, hof⟩ -
    simp only [tornHistory, List.mem_cons, List.not_mem_nil, or_false] at hl
    rcases hl with rfl | rfl | rfl <;> cases hof
  · rintro root root' cid ⟨l, hl, hof⟩ -
    simp only [tornHistory, List.mem_cons, List.not_mem_nil, or_false] at hl
    rcases hl with rfl | rfl | rfl <;> cases hof

/-- The record is found after another restart. -/
theorem torn_line_is_recovered :
    letI := Blake3.reference
    ∃ s, Run Sidecars.Step Sidecars.fresh tornHistory s ∧
      (s.load ⟨[], fun _ => true, fun _ => true, fun _ => true⟩).heldRecord Hash.zero 2
        = some ['c', 'i', 'd'] := by
  generalize Blake3.reference = b
  have hrun : ∃ s, Run Sidecars.Step Sidecars.fresh tornHistory s :=
    ⟨_, .cons ⟨rfl, iff_of_false (fun h => nomatch h) (fun h => nomatch h)⟩
      (.cons ⟨rfl, iff_of_true rfl rfl⟩ (.cons ⟨rfl, iff_of_true rfl rfl⟩ (.nil _)))⟩
  obtain ⟨s, hs⟩ := hrun
  refine ⟨s, hs, ?_⟩
  obtain ⟨hheld, -⟩ := sidecars_survive_restart tornHistory s hs tornHistory_consistent
    ⟨[], fun _ => true, fun _ => true, fun _ => true⟩
  exact hheld Hash.zero (2, ['c', 'i', 'd'])
    ⟨_, List.mem_cons_of_mem _ (List.mem_cons_of_mem _ (List.mem_singleton.mpr rfl)), rfl, rfl⟩

/-! #### A text that is no word

The two calls return, and no load finds what they were for. -/

/-- The calls, one for each kind of identifier. -/
def spacedCalls : List SidecarEvent :=
  [(.held Hash.zero 0 ['a', ' ', 'b'] .done, true), (.privateCid Hash.zero [' ', 'a'] .done, true)]

theorem spaced_cids_are_lost :
    letI := Blake3.reference
    ∃ s, Run Sidecars.Step Sidecars.fresh spacedCalls s ∧
      Acknowledged SidecarOp.heldRecord spacedCalls Hash.zero (0, ['a', ' ', 'b']) ∧
      Acknowledged SidecarOp.privateRecord spacedCalls Hash.zero [' ', 'a'] ∧
      ∀ io, (s.load io).heldRecord Hash.zero 0 ≠ some ['a', ' ', 'b'] ∧
        (s.load io).privateCidToRoot.lookup [' ', 'a'] ≠ some Hash.zero := by
  generalize Blake3.reference = b
  have hrun : ∃ s, Run Sidecars.Step Sidecars.fresh spacedCalls s :=
    ⟨_, .cons ⟨rfl, iff_of_true rfl rfl⟩ (.cons ⟨rfl, iff_of_true rfl rfl⟩ (.nil _))⟩
  obtain ⟨s, hs⟩ := hrun
  refine ⟨s, hs, ⟨_, List.mem_cons_self .., rfl, rfl⟩,
    ⟨_, List.mem_cons_of_mem _ (List.mem_singleton.mpr rfl), rfl, rfl⟩, fun io => ⟨?_, ?_⟩⟩
  · intro hrecord
    obtain ⟨-, hword⟩ := s.heldRecord_load io hrecord
    exact absurd (hword.2 ' ' (by decide)) (by decide)
  · intro hrecord
    have htext := s.privateCidToRoot_load io hrecord
    exact absurd htext.trimmed (by decide)

end Snip
