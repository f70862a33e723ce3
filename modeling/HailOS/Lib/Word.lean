import Mathlib.Data.BitVec
import Mathlib.Data.Int.ModEq
import Mathlib.Order.Bounds.Basic

/-!
# Rounding machine words to powers of two

A word is rounded down to a multiple of `2 ^ k` by clearing its low `k` bits with the
complement of `2 ^ k - 1`. `toNat_clear_low` gives the value of the result, and
`toNat_align_up` the value of the usual idiom that adds `2 ^ k - 1` first. Over the integers the
idiom gives the least multiple at or above (`isLeast_round_up`), and so does adding what is missing
from the remainder (`isLeast_add_remainder`), for any divisor.
-/

namespace HailOS.Lib

variable {w k : Nat}

/-- The number `2 ^ w - 2 ^ k` has exactly the bits from `k` to `w`. -/
theorem testBit_high_mask (h : k ≤ w) (i : Nat) :
    (2 ^ w - 2 ^ k).testBit i = (decide (i < w) && decide (k ≤ i)) := by
  have hpos : 0 < 2 ^ k := Nat.two_pow_pos k
  have hle : 2 ^ k ≤ 2 ^ w := Nat.pow_le_pow_right (by omega) h
  rw [show 2 ^ w - 2 ^ k = 2 ^ w - ((2 ^ k - 1) + 1) by omega,
    Nat.testBit_two_pow_sub_succ (by omega), Nat.testBit_two_pow_sub_one]
  by_cases hk : k ≤ i
  · simp [hk]
  · simp [hk, Nat.lt_of_not_le hk]

/-- Clearing the low `k` bits rounds down to a multiple of `2 ^ k`. -/
theorem and_high_mask {value : Nat} (hvalue : value < 2 ^ w) (h : k ≤ w) :
    value &&& (2 ^ w - 2 ^ k) = value / 2 ^ k * 2 ^ k := by
  apply Nat.eq_of_testBit_eq
  intro i
  rw [Nat.testBit_and, testBit_high_mask h, Nat.testBit_mul_two_pow, Nat.testBit_div_two_pow]
  by_cases hk : k ≤ i
  · by_cases hi : i < w
    · simp [hk, hi]
    · have hbit : value.testBit i = false :=
        Nat.testBit_lt_two_pow (Nat.lt_of_lt_of_le hvalue (Nat.pow_le_pow_right (by omega)
          (by omega)))
      simp [hk, hi, hbit]
  · simp [hk]

/-- The mask `2 ^ k - 1` of the low bits. -/
theorem toNat_low_mask (h : k < w) : (BitVec.ofNat w (2 ^ k) - 1#w).toNat = 2 ^ k - 1 := by
  have hpos : 0 < 2 ^ k := Nat.two_pow_pos k
  have hlt : 2 ^ k < 2 ^ w := Nat.pow_lt_pow_right (by omega) h
  have hw : 1 < 2 ^ w := Nat.one_lt_two_pow (by omega)
  rw [BitVec.toNat_sub, BitVec.toNat_ofNat, BitVec.toNat_ofNat, Nat.mod_eq_of_lt hlt,
    Nat.mod_eq_of_lt hw, show 2 ^ w - 1 + 2 ^ k = 2 ^ k - 1 + 2 ^ w by omega,
    Nat.add_mod_right, Nat.mod_eq_of_lt (by omega)]

/-- Clearing the low `k` bits of a word. -/
theorem toNat_clear_low (word : BitVec w) (h : k < w) :
    (word &&& ~~~(BitVec.ofNat w (2 ^ k) - 1#w)).toNat = word.toNat / 2 ^ k * 2 ^ k := by
  have hpos : 0 < 2 ^ k := Nat.two_pow_pos k
  have hmask : (~~~(BitVec.ofNat w (2 ^ k) - 1#w)).toNat = 2 ^ w - 2 ^ k := by
    rw [BitVec.toNat_not, toNat_low_mask h]
    omega
  rw [BitVec.toNat_and, hmask, and_high_mask word.isLt (by omega)]

/-- Adding `2 ^ k - 1` before clearing the low bits rounds up, modulo the word size. -/
theorem toNat_align_up (word : BitVec w) (h : k < w) :
    ((word + (BitVec.ofNat w (2 ^ k) - 1#w)) &&& ~~~(BitVec.ofNat w (2 ^ k) - 1#w)).toNat =
      (word.toNat + (2 ^ k - 1)) % 2 ^ w / 2 ^ k * 2 ^ k := by
  rw [toNat_clear_low _ h, BitVec.toNat_add, toNat_low_mask h]

/-- Setting low bits of a multiple of `2 ^ k` adds them. -/
theorem toNat_or_low {word flags : BitVec w} (hword : 2 ^ k ∣ word.toNat)
    (hflags : flags.toNat < 2 ^ k) : (word ||| flags).toNat = word.toNat + flags.toNat := by
  obtain ⟨high, hhigh⟩ := hword
  rw [BitVec.toNat_or, hhigh, Nat.two_pow_add_eq_or_of_lt hflags]

/-- Two numbers less than `2 ^ w` apart that give the same word are the same. -/
theorem eq_of_ofNat_eq {i j : Nat} (hle : i ≤ j) (hlt : j < i + 2 ^ w)
    (h : BitVec.ofNat w i = BitVec.ofNat w j) : i = j := by
  have hmod : i % 2 ^ w = j % 2 ^ w := by
    rw [← BitVec.toNat_ofNat, ← BitVec.toNat_ofNat, h]
  have hdvd : 2 ^ w ∣ j - i := (Nat.modEq_iff_dvd' hle).1 hmod
  have hzero : j - i = 0 := Nat.eq_zero_of_dvd_of_lt hdvd (by omega)
  omega

/-! ## Rounding up -/

/-- The value of the round-up idiom over the integers is the least multiple at or above. -/
theorem isLeast_round_up {a : Nat} (ha : 0 < a) (x : Nat) :
    IsLeast {m | a ∣ m ∧ x ≤ m} ((x + (a - 1)) / a * a) := by
  have hdiv := Nat.div_add_mod (x + (a - 1)) a
  have hmod := Nat.mod_lt (x + (a - 1)) ha
  rw [Nat.mul_comm] at hdiv
  refine ⟨⟨Nat.dvd_mul_left a _, by omega⟩, ?_⟩
  intro m hm
  obtain ⟨⟨c, rfl⟩, hle⟩ := hm
  have hbound : (x + (a - 1)) / a ≤ c := by
    refine Nat.le_of_lt_succ ((Nat.div_lt_iff_lt_mul ha).2 ?_)
    rw [Nat.succ_mul, Nat.mul_comm c a]
    omega
  calc (x + (a - 1)) / a * a ≤ c * a := Nat.mul_le_mul_right a hbound
    _ = a * c := Nat.mul_comm c a

/-- Rounding up by adding what is missing from the remainder. -/
theorem isLeast_add_remainder {a : Nat} (ha : 0 < a) (x : Nat) :
    IsLeast {m | a ∣ m ∧ x ≤ m} (if x % a ≠ 0 then x + (a - x % a) else x) := by
  have hmod := Nat.mod_lt x ha
  have hdiv := Nat.div_add_mod x a
  split
  · next hrem =>
      have hnext : x + (a - x % a) = a * (x / a + 1) := by
        rw [Nat.mul_add]
        omega
      refine ⟨⟨⟨_, hnext⟩, by omega⟩, ?_⟩
      intro m hm
      obtain ⟨⟨c, rfl⟩, hle⟩ := hm
      have hlt : x / a < c := by
        by_contra hge
        have hmul : a * c ≤ a * (x / a) := Nat.mul_le_mul_left a (by omega)
        omega
      rw [hnext]
      exact Nat.mul_le_mul_left a hlt
  · next hrem =>
      exact ⟨⟨Nat.dvd_of_mod_eq_zero (by omega), Nat.le_refl x⟩, fun m hm => hm.2⟩

/-- If the multiple of `2 ^ k` is a word, the sum that is rounded down to it is one too. -/
theorem add_lt_of_round_up_lt {x : Nat} (hk : k ≤ w)
    (h : (x + (2 ^ k - 1)) / 2 ^ k * 2 ^ k < 2 ^ w) : x + (2 ^ k - 1) < 2 ^ w := by
  have hsplit : 2 ^ w = 2 ^ (w - k) * 2 ^ k := by rw [← Nat.pow_add, Nat.sub_add_cancel hk]
  rw [hsplit] at h ⊢
  exact (Nat.div_lt_iff_lt_mul (Nat.two_pow_pos k)).1 (Nat.lt_of_mul_lt_mul_right h)

/-- The usual test for a power of two. -/
theorem exists_eq_two_pow {word : BitVec w} (hne : word.toNat ≠ 0)
    (h : word &&& (word - 1#w) = 0#w) : ∃ k < w, word = BitVec.ofNat w (2 ^ k) := by
  have hlt := word.isLt
  have hw : 1 < 2 ^ w := by omega
  have hpred : (word - 1#w).toNat = word.toNat - 1 := by
    rw [BitVec.toNat_sub, BitVec.toNat_ofNat, Nat.mod_eq_of_lt hw,
      show 2 ^ w - 1 + word.toNat = word.toNat - 1 + 2 ^ w by omega, Nat.add_mod_right,
      Nat.mod_eq_of_lt (by omega)]
  have hand := congrArg BitVec.toNat h
  rw [BitVec.toNat_and, hpred, BitVec.toNat_ofNat, Nat.zero_mod,
    Nat.and_sub_one_eq_zero_iff_isPowerOfTwo hne] at hand
  obtain ⟨k, hk⟩ := hand
  refine ⟨k, ?_, BitVec.eq_of_toNat_eq ?_⟩
  · rw [hk] at hlt
    exact (Nat.pow_lt_pow_iff_right (by omega)).1 hlt
  · rw [BitVec.toNat_ofNat, ← hk, Nat.mod_eq_of_lt hlt]

end HailOS.Lib
