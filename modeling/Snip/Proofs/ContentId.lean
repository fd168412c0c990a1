/-
Names that lose nothing: a root written in hex is read back, two digests with one
content identifier are one digest, and the bytes of a number spell the number.
-/
import Mathlib.Data.List.Induction
import Snip.Basic
import Snip.Store.Assignment

namespace Snip

/-! ### Hexadecimal -/

private theorem hexDigit_facts : ∀ d < 16, hexDigit d ≠ '+' ∧ hexValue (hexDigit d) = some d ∧
    ¬ (65 ≤ (hexDigit d).toNat ∧ (hexDigit d).toNat ≤ 90) := by
  decide

theorem byteFromHex_hexDigit (x : UInt8) :
    byteFromHex (hexDigit (x.toNat / 16)) (hexDigit (x.toNat % 16)) = some x := by
  have hx : x.toNat < 256 := x.toNat_lt
  have hhi : x.toNat / 16 < 16 := by omega
  have hlo : x.toNat % 16 < 16 := by omega
  have hval : 16 * (x.toNat / 16) + x.toNat % 16 = x.toNat := by omega
  simp only [byteFromHex, if_neg (hexDigit_facts _ hhi).1, (hexDigit_facts _ hhi).2.1,
    (hexDigit_facts _ hlo).2.1, Option.bind_eq_bind, Option.bind_some, hval]
  simp

theorem hexPairs_hexEncode (b : Bytes) : hexPairs (hexEncode b) = some b := by
  induction b with
  | nil => rfl
  | cons x b ih =>
      have ih' : hexPairs (List.flatMap
          (fun x => [hexDigit (x.toNat / 16), hexDigit (x.toNat % 16)]) b) = some b := ih
      simp [hexEncode, hexPairs, byteFromHex_hexDigit, ih']

theorem hexEncode_length (b : Bytes) : (hexEncode b).length = 2 * b.length := by
  induction b with
  | nil => rfl
  | cons x b ih =>
      simp only [hexEncode, List.flatMap_cons, List.length_append, List.length_cons,
        List.length_nil] at ih ⊢
      omega

/-- **A root is read back from the hex text it was written as.** -/
theorem hexTo32_hexEncode (h : Hash) : hexTo32 (hexEncode h.bytes) = some h := by
  have hlen : (hexEncode h.bytes).length = 64 := by rw [hexEncode_length, h.size]
  have hlower : ((hexEncode h.bytes).any fun c => 65 ≤ c.toNat && c.toNat ≤ 90) = false := by
    rw [List.any_eq_false]
    intro c hc
    obtain ⟨x, -, hx⟩ := List.mem_flatMap.mp hc
    have hlt : x.toNat < 256 := x.toNat_lt
    have hhi := (hexDigit_facts (x.toNat / 16) (by omega)).2.2
    have hlo := (hexDigit_facts (x.toNat % 16) (by omega)).2.2
    simp only [List.mem_cons, List.not_mem_nil, or_false] at hx
    rcases hx with rfl | rfl
    · simpa using hhi
    · simpa using hlo
  unfold hexTo32
  rw [if_neg (by simpa using hlen), hlower]
  simp [hexPairs_hexEncode, Hash.ofBytes?, h.size]

/-! ### Content identifiers -/

private theorem base32Digit_inj : ∀ a < 32, ∀ b < 32, base32Digit a = base32Digit b → a = b := by
  decide

@[simp] theorem base32Digits_length (k v : Nat) : (base32Digits k v).length = k := by
  induction k generalizing v with
  | zero => rfl
  | succ k ih => simp [base32Digits, ih]

theorem base32Digits_inj : ∀ (k v w : Nat), v < 32 ^ k → w < 32 ^ k →
    base32Digits k v = base32Digits k w → v = w := by
  intro k
  induction k with
  | zero =>
      intro v w hv hw _
      omega
  | succ k ih =>
      intro v w hv hw h
      obtain ⟨hhigh, hlow⟩ := List.append_inj' h rfl
      have hmod : v % 32 = w % 32 :=
        base32Digit_inj _ (Nat.mod_lt _ (by decide)) _ (Nat.mod_lt _ (by decide)) (by simpa using hlow)
      rw [pow_succ] at hv hw
      have hdiv : v / 32 = w / 32 :=
        ih _ _ (Nat.div_lt_of_lt_mul (by omega)) (Nat.div_lt_of_lt_mul (by omega)) hhigh
      omega

theorem beValue_append (b : Bytes) (x : UInt8) : beValue (b ++ [x]) = beValue b * 256 + x.toNat := by
  simp [beValue]

theorem beValue_lt (b : Bytes) : beValue b < 256 ^ b.length := by
  induction b using List.reverseRecOn with
  | nil => simp [beValue]
  | append_singleton b x ih =>
      have hx : x.toNat < 256 := x.toNat_lt
      rw [beValue_append, List.length_append, List.length_singleton, pow_succ]
      omega

theorem beValue_inj : ∀ (b c : Bytes), b.length = c.length → beValue b = beValue c → b = c := by
  intro b
  induction b using List.reverseRecOn with
  | nil =>
      intro c hlen _
      exact (List.length_eq_zero_iff.mp hlen.symm).symm
  | append_singleton b x ih =>
      intro c hlen h
      induction c using List.reverseRecOn with
      | nil => simp at hlen
      | append_singleton c y _ =>
          have hx : x.toNat < 256 := x.toNat_lt
          have hy : y.toNat < 256 := y.toNat_lt
          rw [beValue_append, beValue_append] at h
          have hxy : x = y := UInt8.toNat_inj.mp (by omega)
          rw [ih c (by simpa using hlen) (by omega), hxy]

theorem base32Lower_inj {b c : Bytes} (hlen : b.length = c.length)
    (h : base32Lower b = base32Lower c) : b = c := by
  unfold base32Lower at h
  rw [hlen] at h
  set k := (8 * c.length + 4) / 5 with hk
  set pad := 5 * k - 8 * c.length with hpad
  have hbound : ∀ d : Bytes, d.length = c.length → beValue d * 2 ^ pad < 32 ^ k := by
    intro d hd
    calc beValue d * 2 ^ pad < 256 ^ c.length * 2 ^ pad := by
          rw [← hd]
          exact Nat.mul_lt_mul_of_pos_right (beValue_lt d) (Nat.two_pow_pos _)
      _ = 2 ^ (8 * c.length + pad) := by
          rw [pow_add, pow_mul]
          rfl
      _ = 2 ^ (5 * k) := by
          congr 1
          omega
      _ = 32 ^ k := by
          rw [pow_mul]
          rfl
  have hval := base32Digits_inj k _ _ (hbound b hlen) (hbound c rfl) h
  exact beValue_inj b c hlen (Nat.eq_of_mul_eq_mul_right (Nat.two_pow_pos _) hval)

/-- **A content identifier names one digest.** -/
theorem cidFromBlake3Hash_inj {a b : Hash} (h : cidFromBlake3Hash a = cidFromBlake3Hash b) :
    a = b := by
  have h32 : ([0x01, 0x55, 0x1e, 0x20] ++ a.bytes : Bytes) = [0x01, 0x55, 0x1e, 0x20] ++ b.bytes :=
    base32Lower_inj (by simp [a.size, b.size]) (List.cons.inj h).2
  exact Hash.ext (List.append_cancel_left h32)

/-! ### The bytes of a number -/

theorem beValue_cons (x : UInt8) (b : Bytes) :
    beValue (x :: b) = x.toNat * 256 ^ b.length + beValue b := by
  induction b using List.reverseRecOn with
  | nil => simp [beValue]
  | append_singleton b y ih =>
      rw [← List.cons_append, beValue_append, beValue_append, ih, List.length_append,
        List.length_singleton, pow_succ]
      ring

theorem beBytes_succ (k n : Nat) :
    beBytes (k + 1) n = UInt8.ofNat (n / 256 ^ k % 256) :: beBytes k n := by
  simp [beBytes, List.range_succ]

theorem beBytes_length (k n : Nat) : (beBytes k n).length = k := by
  simp [beBytes]

theorem beValue_beBytes (k n : Nat) : beValue (beBytes k n) = n % 256 ^ k := by
  induction k with
  | zero => simp [beBytes, beValue, Nat.mod_one]
  | succ k ih =>
      have hbyte : (UInt8.ofNat (n / 256 ^ k % 256)).toNat = n / 256 ^ k % 256 := by
        simp [UInt8.toNat_ofNat']
      rw [beBytes_succ, beValue_cons, beBytes_length, ih, hbyte, Nat.pow_succ, Nat.mod_mul]
      ring

end Snip
