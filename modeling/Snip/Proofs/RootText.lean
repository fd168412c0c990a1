/-
Which texts are read as a root.

Byte by byte or on characters the parsers accept the same: a byte outside ASCII is refused
wherever the pieces cut it.  Of the ASCII texts they take those whose 32 pairs are lower-case
digits, and those where a plus sign stands for a leading zero, because `from_str_radix`
reads a sign.  So a root has one spelling exactly where no byte has a leading zero.
-/
import Snip.Node.RootText
import Snip.Proofs.ContentId

namespace Snip

/-! ### Digits -/

/-- `0..=9` and `a..=f`. -/
def IsLowerHex (c : Char) : Prop := 48 ≤ c.toNat ∧ c.toNat ≤ 57 ∨ 97 ≤ c.toNat ∧ c.toNat ≤ 102

theorem hexValue_lt {c : Char} {d : Nat} (h : hexValue c = some d) : d < 16 := by
  unfold hexValue at h
  split at h
  · simp only [Option.some.injEq] at h
    omega
  · split at h
    · simp only [Option.some.injEq] at h
      omega
    · split at h
      · simp only [Option.some.injEq] at h
        omega
      · simp at h

theorem hexValue_ascii {c : Char} {d : Nat} (h : hexValue c = some d) : c.toNat < 128 := by
  by_contra hbig
  unfold hexValue at h
  rw [if_neg (by omega), if_neg (by omega), if_neg (by omega)] at h
  simp at h

/-- A lower-case digit has a value, and is how it is written. -/
theorem hexValue_of_lower {c : Char} (h : IsLowerHex c) :
    ∃ d, d < 16 ∧ hexValue c = some d ∧ hexDigit d = c := by
  unfold hexValue hexDigit
  rcases h with h | h
  · refine ⟨c.toNat - 48, by omega, if_pos h, ?_⟩
    rw [if_pos (by omega), show 48 + (c.toNat - 48) = c.toNat by omega]
    exact Char.ofNat_toNat c
  · refine ⟨c.toNat - 87, by omega, ?_, ?_⟩
    · rw [if_neg (by omega), if_pos h]
    · rw [if_neg (by omega), show 87 + (c.toNat - 87) = c.toNat by omega]
      exact Char.ofNat_toNat c

theorem lower_of_hexValue {c : Char} {d : Nat} (h : hexValue c = some d)
    (hupper : ¬(65 ≤ c.toNat ∧ c.toNat ≤ 90)) : IsLowerHex c := by
  by_contra hlower
  unfold IsLowerHex at hlower
  unfold hexValue at h
  rw [if_neg (by omega), if_neg (by omega), if_neg (by omega)] at h
  simp at h

/-! ### One piece of two bytes -/

theorem u8FromDigits_cons {value d : Nat} {c : Char} (rest : Str) (hdigit : hexValue c = some d)
    (hfits : 16 * value + d < 256) :
    u8FromDigits value (c :: rest) = u8FromDigits (16 * value + d) rest := by
  rw [u8FromDigits, hdigit]
  exact if_pos hfits

theorem u8FromDigits_none {value : Nat} {c : Char} (rest : Str) (hdigit : hexValue c = none) :
    u8FromDigits value (c :: rest) = none := by
  rw [u8FromDigits, hdigit]

theorem u8FromDigits_single {value : Nat} (hsmall : value < 16) (c : Char) :
    u8FromDigits value [c] = (hexValue c).map fun d => UInt8.ofNat (16 * value + d) := by
  cases hdigit : hexValue c with
  | none => rw [u8FromDigits_none _ hdigit, Option.map_none]
  | some d =>
      have hd := hexValue_lt hdigit
      rw [u8FromDigits_cons _ hdigit (by omega), Option.map_some, u8FromDigits]

/-- On two characters `from_str_radix` reads two digits, or a sign and one digit. -/
theorem u8FromStrRadix16_pair (a b : Char) : u8FromStrRadix16 [a, b] = byteFromHex a b := by
  unfold byteFromHex
  by_cases hsign : a = '+'
  · subst hsign
    show u8FromDigits 0 [b] = _
    rw [if_pos rfl, u8FromDigits_single (by omega)]
    simp
  · have hdigits : u8FromStrRadix16 [a, b] = u8FromDigits 0 [a, b] := by
      unfold u8FromStrRadix16
      split <;> simp_all
    rw [if_neg hsign, hdigits]
    cases ha : hexValue a with
    | none => rw [u8FromDigits_none _ ha, Option.bind_eq_bind, Option.bind_none]
    | some x =>
        have hx := hexValue_lt ha
        rw [u8FromDigits_cons _ ha (by omega), Nat.mul_zero, Nat.zero_add,
          u8FromDigits_single hx]
        cases hb : hexValue b with
        | none => rfl
        | some y => rfl

/-! ### ASCII texts -/

/-- No character needs more than one byte. -/
def IsAscii (s : Str) : Prop := ∀ c ∈ s, c.toNat < 128

theorem utf8EncodeChar_ascii {c : Char} (h : c.toNat < 128) :
    String.utf8EncodeChar c = [UInt8.ofNat c.toNat] := by
  have hsmall : c.val.toNat ≤ 127 := by
    have hval : c.toNat = c.val.toNat := rfl
    omega
  exact if_pos hsmall

theorem utf8_cons_ascii {c : Char} (h : c.toNat < 128) (s : Str) :
    utf8 (c :: s) = UInt8.ofNat c.toNat :: utf8 s := by
  unfold utf8
  rw [List.flatMap_cons, utf8EncodeChar_ascii h, List.singleton_append]

theorem toNat_ofNat_ascii {c : Char} (h : c.toNat < 128) :
    (UInt8.ofNat c.toNat).toNat = c.toNat := by
  rw [UInt8.toNat_ofNat']
  exact Nat.mod_eq_of_lt (by omega)

theorem strFromUtf8_ascii {a b : Char} (ha : a.toNat < 128) (hb : b.toNat < 128) :
    strFromUtf8 [UInt8.ofNat a.toNat, UInt8.ofNat b.toNat] = some [a, b] := by
  rw [strFromUtf8, toNat_ofNat_ascii ha, toNat_ofNat_ascii hb, if_pos ⟨ha, hb⟩, Char.ofNat_toNat,
    Char.ofNat_toNat]

theorem utf8_length_ascii {s : Str} (h : IsAscii s) : (utf8 s).length = s.length := by
  induction s with
  | nil => rfl
  | cons c s ih =>
      have hs : IsAscii s := fun d hd => h d (List.mem_cons_of_mem c hd)
      rw [utf8_cons_ascii (h c List.mem_cons_self), List.length_cons, List.length_cons, ih hs]

theorem utf8_any_upper_ascii {s : Str} (h : IsAscii s) :
    ((utf8 s).any fun b => 65 ≤ b.toNat && b.toNat ≤ 90)
      = s.any fun c => 65 ≤ c.toNat && c.toNat ≤ 90 := by
  induction s with
  | nil => rfl
  | cons c s ih =>
      have hs : IsAscii s := fun d hd => h d (List.mem_cons_of_mem c hd)
      have hc := h c List.mem_cons_self
      rw [utf8_cons_ascii hc, List.any_cons, List.any_cons, ih hs, toNat_ofNat_ascii hc]

/-- The byte of a piece. -/
def pieceByte (chunk : Bytes) : Option UInt8 := (strFromUtf8 chunk).bind u8FromStrRadix16

theorem pieceByte_ascii {a b : Char} (ha : a.toNat < 128) (hb : b.toNat < 128) :
    pieceByte [UInt8.ofNat a.toNat, UInt8.ofNat b.toNat] = byteFromHex a b := by
  unfold pieceByte
  rw [strFromUtf8_ascii ha hb, Option.bind_some, u8FromStrRadix16_pair]

/-- Two characters at a time, as the pieces are cut; the length must be even. -/
theorem pieces_ascii : ∀ {s : Str}, IsAscii s → s.length % 2 = 0 →
    (chunksOfTwo (utf8 s)).mapM pieceByte = hexPairs s := by
  intro s
  induction s using hexPairs.induct with
  | case1 =>
      intro _ _
      rfl
  | case2 c =>
      intro _ hodd
      simp at hodd
  | case3 a b rest ih =>
      intro h heven
      have ha := h a List.mem_cons_self
      have hb := h b (by simp)
      have hrest : IsAscii rest := fun c hc => h c (by simp [hc])
      have hlength : rest.length % 2 = 0 := by
        rw [List.length_cons, List.length_cons] at heven
        omega
      rw [utf8_cons_ascii ha, utf8_cons_ascii hb, chunksOfTwo, List.mapM_cons, ih hrest hlength,
        pieceByte_ascii ha hb]
      rfl

/-! ### Other texts -/

theorem utf8EncodeChar_not_ascii {c : Char} (h : ¬c.toNat < 128) :
    ∃ b ∈ String.utf8EncodeChar c, 128 ≤ b.toNat := by
  have hbig : ¬c.val.toNat ≤ 127 := by
    have hval : c.toNat = c.val.toNat := rfl
    omega
  have hhigh : ∀ n m, n < 64 → m = n + 128 → 128 ≤ (UInt8.ofNat m).toNat := by
    intro n m hn hm
    rw [UInt8.toNat_ofNat', Nat.mod_eq_of_lt (by omega)]
    omega
  -- the last byte is a continuation byte, however many there are
  refine ⟨UInt8.ofNat (c.val.toNat % 64 + 128), ?_,
    hhigh (c.val.toNat % 64) _ (Nat.mod_lt _ (by omega)) rfl⟩
  unfold String.utf8EncodeChar
  dsimp only
  rw [if_neg hbig]
  split
  · simp
  · split
    · simp
    · simp

/-- A single character outside ASCII is no number. -/
theorem u8FromStrRadix16_not_ascii {c : Char} (h : ¬c.toNat < 128) :
    u8FromStrRadix16 [c] = none := by
  have hdigit : hexValue c = none := by
    cases hvalue : hexValue c with
    | none => rfl
    | some d => exact absurd (hexValue_ascii hvalue) h
  unfold u8FromStrRadix16
  split
  · rfl
  · rfl
  · rfl
  · rename_i hsign _ heq
    simp only [List.cons.injEq] at heq
    rw [heq.1] at h
    exact absurd (by decide) h
  · exact u8FromDigits_none _ hdigit

theorem toNat_charOfNat {n : Nat} (h : n < 55296) : (Char.ofNat n).toNat = n := by
  have hvalid : n.isValidChar := .inl h
  unfold Char.ofNat
  rw [dif_pos hvalid]
  rfl

/-- A piece with a byte outside ASCII is not read, even if it is a character. -/
theorem ascii_of_pieceByte {a b : UInt8} {byte : UInt8} (h : pieceByte [a, b] = some byte) :
    a.toNat < 128 ∧ b.toNat < 128 := by
  by_contra hbig
  unfold pieceByte at h
  rw [strFromUtf8, if_neg hbig] at h
  by_cases hrange : 194 ≤ a.toNat ∧ a.toNat < 224 ∧ 128 ≤ b.toNat ∧ b.toNat < 192
  · have hcode : ¬(Char.ofNat ((a.toNat - 192) * 64 + (b.toNat - 128))).toNat < 128 := by
      rw [toNat_charOfNat (by omega)]
      omega
    rw [if_pos hrange, Option.bind_some, u8FromStrRadix16_not_ascii hcode] at h
    cases h
  · rw [if_neg hrange] at h
    cases h

theorem ascii_of_pieces : ∀ {bytes out : Bytes}, bytes.length % 2 = 0 →
    (chunksOfTwo bytes).mapM pieceByte = some out → ∀ b ∈ bytes, b.toNat < 128 := by
  intro bytes
  induction bytes using chunksOfTwo.induct with
  | case1 =>
      intro _ _ _ b hb
      cases hb
  | case2 a =>
      intro _ hodd
      simp at hodd
  | case3 a b rest ih =>
      intro out heven h
      rw [chunksOfTwo, List.mapM_cons] at h
      simp only [Option.bind_eq_bind, Option.bind_eq_some_iff] at h
      obtain ⟨byte, hbyte, more, hmore, -⟩ := h
      obtain ⟨ha, hb⟩ := ascii_of_pieceByte hbyte
      have hlength : rest.length % 2 = 0 := by
        rw [List.length_cons, List.length_cons] at heven
        omega
      intro x hx
      rcases List.mem_cons.mp hx with rfl | hx
      · exact ha
      · rcases List.mem_cons.mp hx with rfl | hx
        · exact hb
        · exact ih hlength hmore x hx

theorem ascii_of_hexPairs : ∀ {s : Str} {out : Bytes}, hexPairs s = some out → IsAscii s := by
  intro s
  induction s using hexPairs.induct with
  | case1 =>
      intro _ _ c hc
      cases hc
  | case2 a =>
      intro _ h
      cases h
  | case3 a b rest ih =>
      intro out h
      rw [hexPairs] at h
      simp only [Option.bind_eq_bind, Option.bind_eq_some_iff] at h
      obtain ⟨byte, hbyte, more, hmore, -⟩ := h
      have hboth : a.toNat < 128 ∧ b.toNat < 128 := by
        unfold byteFromHex at hbyte
        by_cases hsign : a = '+'
        · rw [if_pos hsign, Option.map_eq_some_iff] at hbyte
          obtain ⟨d, hd, -⟩ := hbyte
          exact ⟨by rw [hsign]; decide, hexValue_ascii hd⟩
        · rw [if_neg hsign] at hbyte
          simp only [Option.bind_eq_bind, Option.bind_eq_some_iff] at hbyte
          obtain ⟨x, hx, y, hy, -⟩ := hbyte
          exact ⟨hexValue_ascii hx, hexValue_ascii hy⟩
      intro c hc
      rcases List.mem_cons.mp hc with rfl | hc
      · exact hboth.1
      · rcases List.mem_cons.mp hc with rfl | hc
        · exact hboth.2
        · exact ih hmore c hc

theorem pieces_of_not_ascii {s : Str} (h : ¬IsAscii s) (heven : (utf8 s).length % 2 = 0) :
    (chunksOfTwo (utf8 s)).mapM pieceByte = none := by
  cases hout : (chunksOfTwo (utf8 s)).mapM pieceByte with
  | none => rfl
  | some out =>
      refine absurd ?_ h
      intro c hc
      by_contra hbig
      obtain ⟨b, hb, hhigh⟩ := utf8EncodeChar_not_ascii hbig
      have hlow := ascii_of_pieces heven hout b (List.mem_flatMap.mpr ⟨c, hc, hb⟩)
      omega

theorem hexPairs_of_not_ascii {s : Str} (h : ¬IsAscii s) : hexPairs s = none := by
  cases hout : hexPairs s with
  | none => rfl
  | some out => exact absurd (ascii_of_hexPairs hout) h

/-- **Byte by byte and on characters, the same texts are read as the same roots.** -/
theorem rootFromHex_eq (s : Str) : rootFromHex s = hexTo32 s := by
  unfold rootFromHex hexTo32
  by_cases hascii : IsAscii s
  · rw [utf8_length_ascii hascii, utf8_any_upper_ascii hascii]
    by_cases hlength : s.length = 64
    · have hpieces := pieces_ascii hascii (by rw [hlength])
      unfold pieceByte at hpieces
      rw [hpieces]
    · rw [if_pos hlength, if_pos hlength]
  · rw [hexPairs_of_not_ascii hascii]
    by_cases hlength : (utf8 s).length = 64
    · have hpieces := pieces_of_not_ascii hascii (by rw [hlength])
      unfold pieceByte at hpieces
      rw [hpieces]
      simp
    · rw [if_pos hlength]
      simp

/-! ### The texts that are read -/

/-- No character is one of `A..=Z`. -/
def NoUpper (s : Str) : Prop := ∀ c ∈ s, ¬(65 ≤ c.toNat ∧ c.toNat ≤ 90)

/-- Pairs of lower-case digits, where the first of a pair may be a plus sign. -/
def SignedPairs : Str → Prop
  | [] => True
  | [_] => False
  | a :: b :: rest => (a = '+' ∨ IsLowerHex a) ∧ IsLowerHex b ∧ SignedPairs rest

/-- 32 pairs, at least one of them with a sign. -/
structure SignedSpelling (s : Str) : Prop where
  length : s.length = 64
  pairs : SignedPairs s
  signed : '+' ∈ s

theorem not_upper_of_lower {c : Char} (h : IsLowerHex c) : ¬(65 ≤ c.toNat ∧ c.toNat ≤ 90) := by
  unfold IsLowerHex at h
  omega

theorem noUpper_cons {c : Char} {s : Str} :
    NoUpper (c :: s) ↔ ¬(65 ≤ c.toNat ∧ c.toNat ≤ 90) ∧ NoUpper s :=
  List.forall_mem_cons

/-- A root is read where there are 64 characters without upper case, and every pair is read. -/
theorem hexTo32_eq_some {s : Str} {root : Hash} :
    hexTo32 s = some root ↔ s.length = 64 ∧ NoUpper s ∧ hexPairs s = some root.bytes := by
  have hupper : (s.any fun c => 65 ≤ c.toNat && c.toNat ≤ 90) = false ↔ NoUpper s := by
    rw [List.any_eq_false]
    simp [NoUpper]
  unfold hexTo32
  by_cases hlength : s.length = 64
  · by_cases hno : NoUpper s
    · rw [if_neg (by simpa using hlength), hupper.mpr hno, if_neg (by simp)]
      constructor
      · intro h
        obtain ⟨bytes, hpairs, hbytes⟩ := Option.bind_eq_some_iff.mp h
        unfold Hash.ofBytes? at hbytes
        split at hbytes
        · cases hbytes
          exact ⟨hlength, hno, hpairs⟩
        · cases hbytes
      · rintro ⟨-, -, hpairs⟩
        rw [hpairs, Option.bind_some, Hash.ofBytes?, dif_pos root.size]
    · have hany : (s.any fun c => 65 ≤ c.toNat && c.toNat ≤ 90) = true := by
        by_contra hfalse
        exact hno (hupper.mp (by simpa using hfalse))
      rw [if_neg (by simpa using hlength), if_pos hany]
      simp [hno]
  · rw [if_pos hlength]
    simp [hlength]

/-- A pair that is read: a sign for a leading zero, or the two digits of the byte. -/
theorem byteFromHex_cases {a b : Char} {x : UInt8} (h : byteFromHex a b = some x)
    (ha : ¬(65 ≤ a.toNat ∧ a.toNat ≤ 90)) (hb : ¬(65 ≤ b.toNat ∧ b.toNat ≤ 90)) :
    IsLowerHex b ∧ (a = '+' ∧ x.toNat < 16 ∨ a ≠ '+' ∧ IsLowerHex a ∧
      a = hexDigit (x.toNat / 16) ∧ b = hexDigit (x.toNat % 16)) := by
  unfold byteFromHex at h
  by_cases hsign : a = '+'
  · rw [if_pos hsign] at h
    obtain ⟨d, hd, rfl⟩ := Option.map_eq_some_iff.mp h
    have hlt := hexValue_lt hd
    refine ⟨lower_of_hexValue hd hb, .inl ⟨hsign, ?_⟩⟩
    rw [UInt8.toNat_ofNat', Nat.mod_eq_of_lt (by omega)]
    exact hlt
  · rw [if_neg hsign] at h
    simp only [Option.bind_eq_bind, Option.bind_eq_some_iff] at h
    obtain ⟨p, hp, q, hq, hx⟩ := h
    have hlow := lower_of_hexValue hp ha
    have hlow' := lower_of_hexValue hq hb
    obtain ⟨p', -, hp', hdigit⟩ := hexValue_of_lower hlow
    obtain ⟨q', -, hq', hdigit'⟩ := hexValue_of_lower hlow'
    have hplt := hexValue_lt hp
    have hqlt := hexValue_lt hq
    rw [hp, Option.some.injEq] at hp'
    rw [hq, Option.some.injEq] at hq'
    subst hp'
    subst hq'
    have hvalue : x.toNat = 16 * p + q := by
      cases hx
      rw [UInt8.toNat_ofNat', Nat.mod_eq_of_lt (by omega)]
    refine ⟨hlow', .inr ⟨hsign, hlow, ?_, ?_⟩⟩
    · rw [hvalue, ← hdigit]
      congr 1
      omega
    · rw [hvalue, ← hdigit']
      congr 1
      omega

/-- What is read is spelled in pairs, and without a sign it is the rendering of the bytes. -/
theorem hexPairs_eq_some : ∀ {s : Str} {out : Bytes}, NoUpper s → hexPairs s = some out →
    SignedPairs s ∧ ('+' ∉ s → s = hexEncode out) ∧
      ((∀ x ∈ out, 16 ≤ x.toNat) → '+' ∉ s) := by
  intro s
  induction s using hexPairs.induct with
  | case1 =>
      intro out _ h
      cases h
      exact ⟨trivial, fun _ => rfl, fun _ => by simp⟩
  | case2 a =>
      intro out _ h
      cases h
  | case3 a b rest ih =>
      intro out hno h
      rw [noUpper_cons, noUpper_cons] at hno
      obtain ⟨ha, hb, hrest⟩ := hno
      rw [hexPairs] at h
      simp only [Option.bind_eq_bind, Option.bind_eq_some_iff] at h
      obtain ⟨x, hx, more, hmore, heq⟩ := h
      cases heq
      obtain ⟨hpairs, hplain, hlarge⟩ := ih hrest hmore
      obtain ⟨hlow, hcase⟩ := byteFromHex_cases hx ha hb
      have hbplus : b ≠ '+' := by
        rintro rfl
        unfold IsLowerHex at hlow
        revert hlow
        decide
      rcases hcase with ⟨hsign, hsmall⟩ | ⟨hsign, hlow', hadigit, hbdigit⟩
      · refine ⟨⟨.inl hsign, hlow, hpairs⟩, ?_, ?_⟩
        · intro hnot
          exact absurd (by simp [hsign]) hnot
        · intro hall
          have := hall x List.mem_cons_self
          omega
      · refine ⟨⟨.inr hlow', hlow, hpairs⟩, ?_, ?_⟩
        · intro hnot
          have hnot' : '+' ∉ rest := fun hmem => hnot (by simp [hmem])
          rw [hplain hnot', hadigit, hbdigit]
          rfl
        · intro hall hmem
          have hnot := hlarge fun y hy => hall y (List.mem_cons_of_mem x hy)
          rcases List.mem_cons.mp hmem with heq | hmem
          · exact hsign heq.symm
          · rcases List.mem_cons.mp hmem with heq | hmem
            · exact hbplus heq.symm
            · exact hnot hmem

/-- Every text of such pairs is read. -/
theorem SignedPairs.read : ∀ {s : Str}, SignedPairs s →
    NoUpper s ∧ ∃ out, hexPairs s = some out ∧ s.length = 2 * out.length := by
  intro s
  induction s using hexPairs.induct with
  | case1 =>
      intro _
      refine ⟨?_, [], rfl, rfl⟩
      intro c hc
      cases hc
  | case2 a =>
      intro h
      exact h.elim
  | case3 a b rest ih =>
      intro h
      obtain ⟨ha, hb, hrest⟩ := h
      obtain ⟨hno, out, hout, hlength⟩ := ih hrest
      have hupper : ¬(65 ≤ a.toNat ∧ a.toNat ≤ 90) := by
        rcases ha with rfl | ha
        · decide
        · exact not_upper_of_lower ha
      obtain ⟨q, -, hq, -⟩ := hexValue_of_lower hb
      have hbyte : ∃ x, byteFromHex a b = some x := by
        unfold byteFromHex
        by_cases hsign : a = '+'
        · rw [if_pos hsign, hq]
          exact ⟨_, rfl⟩
        · obtain ⟨p, -, hp, -⟩ := hexValue_of_lower (ha.resolve_left hsign)
          rw [if_neg hsign, hp, hq]
          exact ⟨_, rfl⟩
      obtain ⟨x, hx⟩ := hbyte
      refine ⟨noUpper_cons.mpr ⟨hupper, noUpper_cons.mpr ⟨not_upper_of_lower hb, hno⟩⟩,
        x :: out, ?_, ?_⟩
      · rw [hexPairs, hx, hout]
        rfl
      · rw [List.length_cons, List.length_cons, List.length_cons, hlength]
        omega

/-! ### One spelling for a root -/

theorem plus_not_mem_hexEncode (b : Bytes) : '+' ∉ hexEncode b := by
  have hdigit : ∀ d < 16, hexDigit d ≠ '+' := by decide
  intro h
  obtain ⟨x, -, hx⟩ := List.mem_flatMap.mp h
  have hlt : x.toNat < 256 := x.toNat_lt
  rcases List.mem_cons.mp hx with heq | hx
  · exact hdigit (x.toNat / 16) (by omega) heq.symm
  · exact hdigit (x.toNat % 16) (by omega) (List.mem_singleton.mp hx).symm

/-- The bytes with a sign in place of each leading zero. -/
def signedEncode (b : Bytes) : Str :=
  b.flatMap fun x =>
    [if x.toNat < 16 then '+' else hexDigit (x.toNat / 16), hexDigit (x.toNat % 16)]

theorem hexDigit_lower : ∀ d < 16, IsLowerHex (hexDigit d) ∧ hexValue (hexDigit d) = some d := by
  unfold IsLowerHex
  decide

theorem signedEncode_spec (b : Bytes) :
    SignedPairs (signedEncode b) ∧ hexPairs (signedEncode b) = some b ∧
      (signedEncode b).length = 2 * b.length := by
  induction b with
  | nil => exact ⟨trivial, rfl, rfl⟩
  | cons x b ih =>
      obtain ⟨hpairs, hread, hlength⟩ := ih
      have hlt : x.toNat < 256 := x.toNat_lt
      have hlow := hexDigit_lower (x.toNat % 16) (by omega)
      have hcons : signedEncode (x :: b) = (if x.toNat < 16 then '+' else hexDigit (x.toNat / 16))
          :: hexDigit (x.toNat % 16) :: signedEncode b := rfl
      have hlength' : (signedEncode (x :: b)).length = 2 * (x :: b).length := by
        rw [hcons, List.length_cons, List.length_cons, List.length_cons, hlength]
        omega
      refine ⟨?_, ?_, hlength'⟩
      · rw [hcons]
        by_cases hsmall : x.toNat < 16
        · rw [if_pos hsmall]
          exact ⟨.inl rfl, hlow.1, hpairs⟩
        · rw [if_neg hsmall]
          exact ⟨.inr (hexDigit_lower (x.toNat / 16) (by omega)).1, hlow.1, hpairs⟩
      · have hbyte : byteFromHex (if x.toNat < 16 then '+' else hexDigit (x.toNat / 16))
            (hexDigit (x.toNat % 16)) = some x := by
          by_cases hsmall : x.toNat < 16
          · rw [if_pos hsmall, byteFromHex, if_pos rfl, hlow.2, Option.map_some,
              Nat.mod_eq_of_lt hsmall, UInt8.ofNat_toNat]
          · rw [if_neg hsmall]
            exact byteFromHex_hexDigit x
        rw [hcons, hexPairs, hbyte, hread]
        rfl

theorem plus_mem_signedEncode {b : Bytes} {x : UInt8} (hx : x ∈ b) (hsmall : x.toNat < 16) :
    '+' ∈ signedEncode b := by
  refine List.mem_flatMap.mpr ⟨x, hx, ?_⟩
  simp [hsmall]

theorem hexTo32_signedEncode (root : Hash) : hexTo32 (signedEncode root.bytes) = some root := by
  obtain ⟨hpairs, hread, hlength⟩ := signedEncode_spec root.bytes
  rw [root.size] at hlength
  exact hexTo32_eq_some.mpr ⟨hlength, hpairs.read.1, hread⟩

/-- A request for a manifest resolves as its text is read. -/
theorem resolveRoot_manifest (hex : Str) (manifestIndex : ManifestIndex) :
    resolveRoot (manifestRequestPrefix ++ hex) manifestIndex = parseHexTo32 hex := by
  have htext : manifestRequestPrefix.isPrefixOf? (manifestRequestPrefix ++ hex) = some hex := rfl
  unfold resolveRoot parseHexTo32
  rw [htext, rootFromHex_eq]

/-- Both parsers read the text alike, and as the root whose rendering it is. -/
structure CanonicalAt (s : Str) : Prop where
  agree : Serve.hexTo32 s = parseHexTo32 s
  rendering : ∀ root, Serve.hexTo32 s = some root ↔ s = hexEncode root.bytes

/-- The root can be asked for by exactly one identifier. -/
def OneSpelling (manifestIndex : ManifestIndex) (root : Hash) : Prop :=
  ∃! hex, resolveRoot (manifestRequestPrefix ++ hex) manifestIndex = some root

theorem canonicalAt_iff (s : Str) : CanonicalAt s ↔ ¬SignedSpelling s := by
  constructor
  · intro hcanonical hsigned
    obtain ⟨hno, out, hout, hlength⟩ := hsigned.pairs.read
    have hsize : out.length = 32 := by
      have := hsigned.length
      omega
    have hread : Serve.hexTo32 s = some ⟨out, hsize⟩ := by
      unfold Serve.hexTo32
      rw [rootFromHex_eq]
      exact hexTo32_eq_some.mpr ⟨hsigned.length, hno, hout⟩
    have hplus := hsigned.signed
    rw [(hcanonical.rendering _).mp hread] at hplus
    exact plus_not_mem_hexEncode _ hplus
  · intro hunsigned
    refine ⟨rfl, ?_⟩
    intro root
    unfold Serve.hexTo32
    rw [rootFromHex_eq]
    constructor
    · intro h
      obtain ⟨hlength, hno, hread⟩ := hexTo32_eq_some.mp h
      obtain ⟨hpairs, hplain, -⟩ := hexPairs_eq_some hno hread
      exact hplain fun hplus => hunsigned ⟨hlength, hpairs, hplus⟩
    · intro h
      rw [h]
      exact hexTo32_hexEncode root

theorem oneSpelling_iff (manifestIndex : ManifestIndex) (root : Hash) :
    OneSpelling manifestIndex root ↔ ∀ x ∈ root.bytes, 16 ≤ x.toNat := by
  have hresolve : ∀ hex, resolveRoot (manifestRequestPrefix ++ hex) manifestIndex = some root ↔
      hexTo32 hex = some root := by
    intro hex
    rw [resolveRoot_manifest, parseHexTo32, rootFromHex_eq]
  unfold OneSpelling
  simp only [hresolve]
  constructor
  · rintro ⟨hex, -, hunique⟩ x hx
    by_contra hsmall
    -- with a sign and without one
    have hsigned := hunique _ (hexTo32_signedEncode root)
    have hplain := hunique _ (hexTo32_hexEncode root)
    have hplus := plus_mem_signedEncode hx (Nat.not_le.mp hsmall)
    rw [hsigned, ← hplain] at hplus
    exact plus_not_mem_hexEncode _ hplus
  · intro hall
    refine ⟨hexEncode root.bytes, hexTo32_hexEncode root, ?_⟩
    intro hex hhex
    obtain ⟨-, hno, hread⟩ := hexTo32_eq_some.mp hhex
    obtain ⟨-, hplain, hlarge⟩ := hexPairs_eq_some hno hread
    exact hplain (hlarge hall)

/-- **A root has a second spelling where a plus sign can stand for a leading zero.** -/
theorem root_spelling_canonical_iff (s : Str) (manifestIndex : ManifestIndex) (root : Hash) :
    (CanonicalAt s ↔ ¬SignedSpelling s) ∧
      (OneSpelling manifestIndex root ↔ ∀ x ∈ root.bytes, 16 ≤ x.toNat) :=
  ⟨canonicalAt_iff s, oneSpelling_iff manifestIndex root⟩

/-- The root of zeros, with a sign for the first of them. -/
def signedZero : Str := '+' :: List.replicate 63 '0'

/-- Both parsers take it, though it is not the rendering of the root. -/
theorem signed_zero_accepted :
    parseHexTo32 signedZero = some Hash.zero ∧ signedZero ≠ hexEncode Hash.zero.bytes ∧
      ¬∀ s, CanonicalAt s := by
  have hread : rootFromHex signedZero = some Hash.zero := by decide
  have hother : signedZero ≠ hexEncode Hash.zero.bytes := by decide
  refine ⟨hread, hother, ?_⟩
  intro h
  exact hother (((h signedZero).rendering Hash.zero).mp hread)

end Snip
