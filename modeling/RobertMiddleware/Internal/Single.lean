import Mathlib.Algebra.Order.Floor.Semifield
import Mathlib.Data.Nat.Log
import Mathlib.Data.Rat.Floor
import Mathlib.Tactic.Linarith
import Mathlib.Tactic.Positivity

/-!
# Binary32 numbers as words

A single-precision number is its 32-bit word: one sign bit, eight exponent bits, twenty-three
fraction bits. Programs copy such words without looking at them, so the word is the primary
datum; the number it stands for is read from the three fields when a program computes with it.

Infinities and NaNs are words like the others. `toRat` is meaningful on finite words only; the
comparisons with a rational follow IEEE 754 on all words, so a NaN compares false.

## Main results

* `Single.trunc_nonneg_iff`, `trunc_lt_iff` — how the number lies to its integer part
* `Single.trunc_ofNat`, `toRat_ofNat` — small natural numbers are represented exactly
* `Single.trunc_ofInt` — and so are small integers; larger ones are rounded
-/

/-- A binary32 word. -/
structure Single where
  /-- Sign, exponent and fraction, high bits first. -/
  bits : BitVec 32
deriving DecidableEq

namespace Single

instance : Inhabited Single := ⟨⟨0⟩⟩

/-! ### The fields -/

/-- The sign bit. -/
def sign (s : Single) : Bool := 2 ^ 31 ≤ s.bits.toNat

/-- The biased exponent. -/
def exponent (s : Single) : ℕ := s.bits.toNat / 2 ^ 23 % 256

/-- The stored part of the significand. -/
def fraction (s : Single) : ℕ := s.bits.toNat % 2 ^ 23

/-- The significand, with the leading bit that normal numbers do not store. -/
def significand (s : Single) : ℕ :=
  if s.exponent = 0 then s.fraction else 2 ^ 23 + s.fraction

def isNaN (s : Single) : Bool := s.exponent = 255 && s.fraction ≠ 0

def isInf (s : Single) : Bool := s.exponent = 255 && s.fraction = 0

/-! ### The number -/

/-- The number a finite word stands for. Subnormals have the exponent of the smallest normals. -/
def toRat (s : Single) : ℚ :=
  let e := max s.exponent 1
  let m : ℚ := if 150 ≤ e then s.significand * 2 ^ (e - 150) else s.significand / 2 ^ (150 - e)
  if s.sign then -m else m

/-- The integer part of the absolute value. Words with exponent `255` come out beyond every
machine integer, which is what an out-of-range test needs. -/
def magnitude (s : Single) : ℕ :=
  let e := max s.exponent 1
  if 150 ≤ e then s.significand * 2 ^ (e - 150) else s.significand / 2 ^ (150 - e)

/-- The number rounded towards zero. -/
def trunc (s : Single) : ℤ := if s.sign then -s.magnitude else s.magnitude

/-- `s ≤ q`, as IEEE 754 compares. -/
def leRat (s : Single) (q : ℚ) : Bool :=
  if s.isNaN then false else if s.isInf then s.sign else s.toRat ≤ q

/-- `s < q`, as IEEE 754 compares. -/
def ltRat (s : Single) (q : ℚ) : Bool :=
  if s.isNaN then false else if s.isInf then s.sign else s.toRat < q

/-- `q < s`, as IEEE 754 compares. -/
def gtRat (s : Single) (q : ℚ) : Bool :=
  if s.isNaN then false else if s.isInf then !s.sign else q < s.toRat

/-- The word stands for a number. -/
def Finite (s : Single) : Prop := s.exponent ≠ 255

instance (s : Single) : Decidable s.Finite := inferInstanceAs (Decidable (_ ≠ _))

theorem Finite.isNaN {s : Single} (h : s.Finite) : s.isNaN = false := by
  simp [Single.isNaN, show s.exponent ≠ 255 from h]

theorem Finite.isInf {s : Single} (h : s.Finite) : s.isInf = false := by
  simp [Single.isInf, show s.exponent ≠ 255 from h]

theorem Finite.ltRat_iff {s : Single} (h : s.Finite) (q : ℚ) : s.ltRat q = true ↔ s.toRat < q := by
  simp [ltRat, h.isNaN, h.isInf]

/-! ### The integer part -/

/-- The absolute value. -/
def absRat (s : Single) : ℚ :=
  if 150 ≤ max s.exponent 1 then s.significand * 2 ^ (max s.exponent 1 - 150)
  else s.significand / 2 ^ (150 - max s.exponent 1)

theorem toRat_eq (s : Single) : s.toRat = if s.sign then -s.absRat else s.absRat := rfl

theorem absRat_nonneg (s : Single) : 0 ≤ s.absRat := by
  rw [absRat]
  split <;> positivity

/-- The integer part of the absolute value is its floor. -/
theorem magnitude_eq_floor (s : Single) : s.magnitude = ⌊s.absRat⌋₊ := by
  rw [magnitude, absRat]
  split
  · norm_cast
  · have hpow : (2 : ℚ) ^ (150 - max s.exponent 1) = (2 ^ (150 - max s.exponent 1) : ℕ) := by
      norm_cast
    rw [hpow, Nat.floor_div_natCast, Nat.floor_natCast]

theorem magnitude_bounds (s : Single) :
    (s.magnitude : ℚ) ≤ s.absRat ∧ s.absRat < s.magnitude + 1 := by
  rw [magnitude_eq_floor]
  exact ⟨Nat.floor_le s.absRat_nonneg, Nat.lt_floor_add_one s.absRat⟩

theorem magnitude_of_absRat_eq_zero {s : Single} (h : s.absRat = 0) : s.magnitude = 0 := by
  rw [magnitude_eq_floor, h, Nat.floor_zero]

/-- The number lies between its integer part and the next integer away from zero. -/
theorem trunc_le_toRat {s : Single} (h : 0 ≤ s.toRat) :
    (s.trunc : ℚ) ≤ s.toRat ∧ s.toRat < s.trunc + 1 := by
  obtain ⟨hle, hlt⟩ := s.magnitude_bounds
  have habs := s.absRat_nonneg
  rw [toRat_eq] at h ⊢
  rw [trunc]
  cases hsign : s.sign with
  | false => simpa using ⟨hle, hlt⟩
  | true =>
    -- a negative word that is not below zero is zero
    rw [hsign, if_pos rfl] at h
    have hzero : s.absRat = 0 := le_antisymm (neg_nonneg.mp h) habs
    simp [hzero, magnitude_of_absRat_eq_zero hzero]

theorem toRat_le_trunc {s : Single} (h : s.toRat ≤ 0) :
    (s.trunc : ℚ) - 1 < s.toRat ∧ s.toRat ≤ s.trunc := by
  obtain ⟨hle, hlt⟩ := s.magnitude_bounds
  have habs := s.absRat_nonneg
  rw [toRat_eq] at h ⊢
  rw [trunc]
  cases hsign : s.sign with
  | true =>
    push_cast
    constructor <;> simp only [if_true] <;> linarith
  | false =>
    rw [hsign, if_neg Bool.false_ne_true] at h
    have hzero : s.absRat = 0 := le_antisymm h habs
    simp [hzero, magnitude_of_absRat_eq_zero hzero]

/-- The fraction below zero is cut off. -/
theorem trunc_nonneg_iff (s : Single) : 0 ≤ s.trunc ↔ -1 < s.toRat := by
  rcases le_total 0 s.toRat with hpos | hneg
  · have hlt := (trunc_le_toRat hpos).2
    have hcast : (-1 : ℚ) < (s.trunc : ℚ) := by linarith
    have hint : -1 < s.trunc := by exact_mod_cast hcast
    refine iff_of_true (by omega) (by linarith)
  · obtain ⟨hlo, hhi⟩ := toRat_le_trunc hneg
    constructor
    · intro htrunc
      have hcast : (0 : ℚ) ≤ (s.trunc : ℚ) := by exact_mod_cast htrunc
      linarith
    · intro htrunc
      have hcast : (-1 : ℚ) < (s.trunc : ℚ) := by linarith
      have hint : -1 < s.trunc := by exact_mod_cast hcast
      omega

/-- Against a positive integer the fraction does not matter. -/
theorem trunc_lt_iff (s : Single) {n : ℤ} (hn : 0 < n) : s.trunc < n ↔ s.toRat < n := by
  rcases le_total 0 s.toRat with hpos | hneg
  · obtain ⟨hlo, hhi⟩ := trunc_le_toRat hpos
    constructor
    · intro hlt
      have hcast : (s.trunc : ℚ) + 1 ≤ n := by exact_mod_cast hlt
      linarith
    · intro hlt
      have hcast : (s.trunc : ℚ) < n := by linarith
      exact_mod_cast hcast
  · obtain ⟨hlo, hhi⟩ := toRat_le_trunc hneg
    have hn' : (0 : ℚ) < n := by exact_mod_cast hn
    refine iff_of_true ?_ (by linarith)
    have hcast : (s.trunc : ℚ) < 1 := by linarith
    have hint : s.trunc < 1 := by exact_mod_cast hcast
    omega

/-! ### Natural numbers -/

/-- The word of a natural number below `2 ^ 24`. -/
def ofNat (n : ℕ) : Single :=
  if n = 0 then ⟨0⟩
  else ⟨BitVec.ofNat 32 ((127 + Nat.log2 n) * 2 ^ 23 + (n * 2 ^ (23 - Nat.log2 n) - 2 ^ 23))⟩

/-- The significand of a normal number, scaled to 24 bits, lies between two powers of two. -/
theorem scaled_bounds {n : ℕ} (h0 : n ≠ 0) (h : n < 2 ^ 24) :
    Nat.log2 n ≤ 23 ∧ 2 ^ 23 ≤ n * 2 ^ (23 - Nat.log2 n) ∧
      n * 2 ^ (23 - Nat.log2 n) < 2 ^ 24 := by
  have hlog : Nat.log2 n < 24 := (Nat.log2_lt h0).mpr h
  have hlo : 2 ^ Nat.log2 n ≤ n := Nat.log2_self_le h0
  have hhi : n < 2 ^ (Nat.log2 n + 1) := Nat.lt_log2_self
  refine ⟨by omega, ?_, ?_⟩
  · calc 2 ^ 23 = 2 ^ Nat.log2 n * 2 ^ (23 - Nat.log2 n) := by rw [← pow_add]; congr 1; omega
      _ ≤ n * 2 ^ (23 - Nat.log2 n) := Nat.mul_le_mul_right _ hlo
  · calc n * 2 ^ (23 - Nat.log2 n) < 2 ^ (Nat.log2 n + 1) * 2 ^ (23 - Nat.log2 n) :=
          Nat.mul_lt_mul_of_pos_right hhi (Nat.two_pow_pos _)
      _ = 2 ^ 24 := by rw [← pow_add]; congr 1; omega

theorem toNat_bits_ofNat {n : ℕ} (h0 : n ≠ 0) (h : n < 2 ^ 24) :
    (ofNat n).bits.toNat =
      (127 + Nat.log2 n) * 2 ^ 23 + (n * 2 ^ (23 - Nat.log2 n) - 2 ^ 23) := by
  obtain ⟨hlog, hlo, hhi⟩ := scaled_bounds h0 h
  rw [ofNat, if_neg h0, BitVec.toNat_ofNat, Nat.mod_eq_of_lt]
  omega

theorem sign_ofNat {n : ℕ} (h : n < 2 ^ 24) : (ofNat n).sign = false := by
  rcases eq_or_ne n 0 with rfl | h0
  · decide
  · obtain ⟨hlog, hlo, hhi⟩ := scaled_bounds h0 h
    rw [sign, toNat_bits_ofNat h0 h]
    exact decide_eq_false (by omega)

theorem absRat_ofNat {n : ℕ} (h : n < 2 ^ 24) : (ofNat n).absRat = n := by
  rcases eq_or_ne n 0 with rfl | h0
  · decide +kernel
  obtain ⟨hlog, hlo, hhi⟩ := scaled_bounds h0 h
  have hbits := toNat_bits_ofNat h0 h
  have hexp : (ofNat n).exponent = 127 + Nat.log2 n := by rw [exponent, hbits]; omega
  have hsig : (ofNat n).significand = n * 2 ^ (23 - Nat.log2 n) := by
    rw [significand, if_neg (by omega), fraction, hbits]; omega
  rw [absRat, hexp, hsig, show max (127 + Nat.log2 n) 1 = 127 + Nat.log2 n by omega]
  split
  · have h23 : Nat.log2 n = 23 := by omega
    simp [h23]
  · rw [show 150 - (127 + Nat.log2 n) = 23 - Nat.log2 n by omega]
    push_cast
    exact mul_div_cancel_right₀ _ (by positivity)

theorem magnitude_ofNat {n : ℕ} (h : n < 2 ^ 24) : (ofNat n).magnitude = n := by
  rw [magnitude_eq_floor, absRat_ofNat h, Nat.floor_natCast]

/-- **Natural numbers below `2 ^ 24` are exact.** -/
theorem trunc_ofNat {n : ℕ} (h : n < 2 ^ 24) : (ofNat n).trunc = n := by
  rw [trunc, sign_ofNat h, magnitude_ofNat h]
  simp

theorem toRat_ofNat {n : ℕ} (h : n < 2 ^ 24) : (ofNat n).toRat = n := by
  rw [toRat_eq, sign_ofNat h, absRat_ofNat h]
  simp

/-! ### Integers -/

/-- `n` rounded to twenty-four significant bits: to the nearest such number, and to the one with an
even last bit when two are as near. -/
def roundNat (n : ℕ) : ℕ :=
  let ulp := 2 ^ (Nat.log2 n - 23)
  if 2 * (n % ulp) < ulp ∨ 2 * (n % ulp) = ulp ∧ n / ulp % 2 = 0 then n / ulp * ulp
  else (n / ulp + 1) * ulp

/-- The word of an integer, rounded. -/
def ofInt (i : ℤ) : Single :=
  let n := roundNat i.natAbs
  if n = 0 then ⟨0⟩
  else
    ⟨BitVec.ofNat 32 ((if i < 0 then 2 ^ 31 else 0) + (127 + Nat.log2 n) * 2 ^ 23 +
      (n * 2 ^ 23 / 2 ^ Nat.log2 n - 2 ^ 23))⟩

/-- Up to `2 ^ 24` there is nothing to round. -/
theorem roundNat_of_le {n : ℕ} (h : n ≤ 2 ^ 24) : roundNat n = n := by
  rcases h.lt_or_eq with hlt | rfl
  · have hlog : Nat.log2 n - 23 = 0 := by
      rcases eq_or_ne n 0 with rfl | h0
      · decide
      · have hlog := (Nat.log2_lt h0).mpr hlt
        omega
    simp [roundNat, hlog, Nat.mod_one]
  · decide +kernel

/-- The significand of a number, shifted to its place. -/
theorem shifted_bounds {n : ℕ} (h0 : n ≠ 0) :
    2 ^ 23 ≤ n * 2 ^ 23 / 2 ^ Nat.log2 n ∧ n * 2 ^ 23 / 2 ^ Nat.log2 n < 2 ^ 24 := by
  have hlo : 2 ^ Nat.log2 n ≤ n := Nat.log2_self_le h0
  have hhi : n < 2 ^ (Nat.log2 n + 1) := Nat.lt_log2_self
  rw [pow_succ] at hhi
  rw [Nat.le_div_iff_mul_le (Nat.two_pow_pos _), Nat.div_lt_iff_lt_mul (Nat.two_pow_pos _)]
  constructor <;> omega

/-- The word of a number that needs no rounding. -/
theorem toNat_bits_ofInt {i : ℤ} (h0 : i.natAbs ≠ 0) (h : i.natAbs ≤ 2 ^ 24) :
    (ofInt i).bits.toNat = (if i < 0 then 2 ^ 31 else 0) +
      (127 + Nat.log2 i.natAbs) * 2 ^ 23 +
      (i.natAbs * 2 ^ 23 / 2 ^ Nat.log2 i.natAbs - 2 ^ 23) := by
  have hlog : Nat.log2 i.natAbs < 25 := (Nat.log2_lt h0).mpr (by omega)
  obtain ⟨hlo, hhi⟩ := shifted_bounds h0
  rw [ofInt, roundNat_of_le h, if_neg h0, BitVec.toNat_ofNat, Nat.mod_eq_of_lt]
  split <;> omega

theorem magnitude_ofInt {i : ℤ} (h : i.natAbs ≤ 2 ^ 24) : (ofInt i).magnitude = i.natAbs := by
  rcases eq_or_ne i.natAbs 0 with hzero | h0
  · rw [Int.natAbs_eq_zero.mp hzero]
    decide +kernel
  have hlog : Nat.log2 i.natAbs < 25 := (Nat.log2_lt h0).mpr (by omega)
  obtain ⟨hlo, hhi⟩ := shifted_bounds h0
  have hbits := toNat_bits_ofInt h0 h
  have hexp : (ofInt i).exponent = 127 + Nat.log2 i.natAbs := by
    rw [exponent, hbits]
    split <;> omega
  have hsig : (ofInt i).significand = i.natAbs * 2 ^ 23 / 2 ^ Nat.log2 i.natAbs := by
    rw [significand, if_neg (by omega), fraction, hbits]
    split <;> omega
  rw [magnitude, hexp, hsig,
    show max (127 + Nat.log2 i.natAbs) 1 = 127 + Nat.log2 i.natAbs by omega]
  generalize hL : Nat.log2 i.natAbs = L at *
  by_cases hL24 : L = 24
  · -- the one number with twenty-five bits
    have hself := Nat.log2_self_le h0
    rw [hL, hL24] at hself
    have hn : i.natAbs = 2 ^ 24 := le_antisymm h hself
    rw [hn, hL24]
    rfl
  · have hsplit : 2 ^ 23 = 2 ^ (23 - L) * 2 ^ L := by
      rw [← pow_add]
      congr 1
      omega
    rw [hsplit, ← mul_assoc, Nat.mul_div_cancel _ (Nat.two_pow_pos L)]
    split
    · obtain rfl : L = 23 := by omega
      simp
    · rw [show 150 - (127 + L) = 23 - L by omega, Nat.mul_div_cancel _ (Nat.two_pow_pos _)]

theorem sign_ofInt {i : ℤ} (h : i.natAbs ≤ 2 ^ 24) : (ofInt i).sign = decide (i < 0) := by
  rcases eq_or_ne i.natAbs 0 with hzero | h0
  · rw [Int.natAbs_eq_zero.mp hzero]
    decide +kernel
  have hlog : Nat.log2 i.natAbs < 25 := (Nat.log2_lt h0).mpr (by omega)
  obtain ⟨hlo, hhi⟩ := shifted_bounds h0
  rw [sign, toNat_bits_ofInt h0 h, decide_eq_decide]
  split <;> omega

/-- **Integers up to `2 ^ 24` are exact.** -/
theorem trunc_ofInt {i : ℤ} (h : i.natAbs ≤ 2 ^ 24) : (ofInt i).trunc = i := by
  rw [trunc, sign_ofInt h, magnitude_ofInt h]
  by_cases hi : i < 0
  · rw [decide_eq_true hi, if_pos rfl]
    omega
  · rw [decide_eq_false hi, if_neg Bool.false_ne_true]
    omega

example : (ofInt (-16777217)).trunc = -16777216 := by decide +kernel

end Single
