import Mathlib.Data.BitVec
import Mathlib.Algebra.Order.Group.Nat

/-!
# Doubles that hold a natural number

The part of IEEE double precision that conversions between 64-bit integers and products of
converted integers need: finite values that are natural numbers, with rounding to the nearest value,
ties to the even one. Such a value is at most `2 ^ 53` times a power of two, which the structure
carries with it. The exponent has no bound, which makes no difference for products of two 64-bit
integers.
-/

namespace HailOS.Lib

/-- At most 53 significant bits. -/
def Representable (n : Nat) : Prop := ∃ m e, m ≤ 2 ^ 53 ∧ n = m * 2 ^ e

/-- The quotient rounded to the nearest integer, ties to the even one. -/
def roundedQuotient (n unit : Nat) : Nat :=
  if 2 * (n % unit) < unit ∨ 2 * (n % unit) = unit ∧ n / unit % 2 = 0 then n / unit
  else n / unit + 1

/-- The distance of the representable numbers around `n`. -/
def spacing (n : Nat) : Nat := 2 ^ (n.log2 - 52)

/-- The nearest representable number, in a tie the one with the even significand. -/
def roundedToDouble (n : Nat) : Nat := roundedQuotient n (spacing n) * spacing n

theorem roundedQuotient_le (n unit : Nat) : roundedQuotient n unit ≤ n / unit + 1 := by
  rw [roundedQuotient]
  split
  · exact Nat.le_succ _
  · exact Nat.le_refl _

theorem lt_spacing_mul (n : Nat) : n < spacing n * 2 ^ 53 := by
  rw [spacing, ← Nat.pow_add]
  calc n < 2 ^ (n.log2 + 1) := Nat.lt_log2_self
    _ ≤ 2 ^ (n.log2 - 52 + 53) := Nat.pow_le_pow_right (by decide) (by omega)

theorem representable_roundedToDouble (n : Nat) : Representable (roundedToDouble n) := by
  refine ⟨roundedQuotient n (spacing n), n.log2 - 52, ?_, rfl⟩
  have hquotient : n / spacing n < 2 ^ 53 := Nat.div_lt_of_lt_mul (lt_spacing_mul n)
  have hle := roundedQuotient_le n (spacing n)
  omega

/-- Below `2 ^ 53` nothing is rounded. -/
theorem roundedToDouble_of_lt {n : Nat} (h : n < 2 ^ 53) : roundedToDouble n = n := by
  have hspacing : spacing n = 1 := by
    by_cases hzero : n = 0
    · rw [hzero]
      rfl
    · have hlog : n.log2 < 53 := (Nat.log2_lt hzero).2 h
      rw [spacing, show n.log2 - 52 = 0 by omega, Nat.pow_zero]
  rw [roundedToDouble, hspacing, roundedQuotient, Nat.mod_one, Nat.div_one,
    if_pos (Or.inl (by decide)), Nat.mul_one]

/-! ## Values and operations -/

/-- A double whose value is a natural number. -/
structure IntegralDouble where
  value : Nat
  representable : Representable value

namespace IntegralDouble

/-- The double nearest to a natural number. -/
def ofNat (n : Nat) : IntegralDouble := ⟨roundedToDouble n, representable_roundedToDouble n⟩

/-- Conversion of an unsigned integer. -/
def ofUInt64 (x : BitVec 64) : IntegralDouble := ofNat x.toNat

/-- The rounded product. -/
def mul (a b : IntegralDouble) : IntegralDouble := ofNat (a.value * b.value)

/-- Conversion to an unsigned integer. C++ gives it no meaning for a value that does not fit, and
nothing is proved about such a value. -/
def toUInt64 (a : IntegralDouble) : BitVec 64 := BitVec.ofNat 64 a.value

theorem value_ofNat {n : Nat} (h : n < 2 ^ 53) : (ofNat n).value = n :=
  roundedToDouble_of_lt h

/-- A product below `2 ^ 53` of two converted integers is exact, also when one of them is zero and
the conversion of the other rounds. -/
theorem toNat_toUInt64_mul {x y : BitVec 64} (h : x.toNat * y.toNat < 2 ^ 53) :
    ((ofUInt64 x).mul (ofUInt64 y)).toUInt64.toNat = x.toNat * y.toNat := by
  have hvalue : (ofUInt64 x).value * (ofUInt64 y).value = x.toNat * y.toNat := by
    rw [ofUInt64, ofUInt64]
    by_cases hx : x.toNat = 0
    · rw [hx, value_ofNat (by decide), Nat.zero_mul, Nat.zero_mul]
    · by_cases hy : y.toNat = 0
      · rw [hy, value_ofNat (n := 0) (by decide), Nat.mul_zero, Nat.mul_zero]
      · have hxle : x.toNat ≤ x.toNat * y.toNat := Nat.le_mul_of_pos_right _ (by omega)
        have hyle : y.toNat ≤ x.toNat * y.toNat := Nat.le_mul_of_pos_left _ (by omega)
        rw [value_ofNat (by omega), value_ofNat (by omega)]
  rw [mul, toUInt64, hvalue, value_ofNat h, BitVec.toNat_ofNat, Nat.mod_eq_of_lt (by omega)]

end IntegralDouble

end HailOS.Lib
