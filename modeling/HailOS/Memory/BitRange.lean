import HailOS.Memory.BitmapAccesses

/-!
# Ranges of bits

`SetBitRange` is to assign exactly the bits of a range that lies inside the array, and to do
nothing otherwise. Its two tests are made in 64 bits. `set_bit_range_exact_iff` says for every
size, start and length that it does so exactly if the tests give the right answer. They do not for
a start or an end that wraps around to a bit of the array, nor for an array whose own number of
bits wraps around.
-/

namespace HailOS.Kernel

open Lib Logged

/-- A range inside the array is assigned, any other leaves the array as it was, and no index past
the array is accessed, whatever the array holds. -/
structure ExactOrNothing (size startIndex startBit length : Nat) (flag : Bool) : Prop where
  exact : startIndex * 8 + startBit + length ≤ 8 * size → ∀ data k,
    bitAt (setBitRange data size startIndex startBit length flag) k =
      if startIndex * 8 + startBit ≤ k ∧ k < startIndex * 8 + startBit + length then flag
      else bitAt data k
  nothing : 8 * size < startIndex * 8 + startBit + length → ∀ data,
    setBitRange data size startIndex startBit length flag = data
  inside : ∀ data, Within (· < size) (setBitRangeLogged data size startIndex startBit length flag)

/-- The two tests pass. -/
def GuardsPass (size startIndex startBit length : Nat) : Prop :=
  (startIndex * 8 + startBit) % 2 ^ 64 < 8 * size % 2 ^ 64 ∧
    (startIndex * 8 + startBit + length) % 2 ^ 64 ≤ 8 * size % 2 ^ 64

/-- The body of the loop assigns one bit of the array. -/
theorem bitAt_setBit_flat (data : Nat → BitVec 8) (flag : Bool) (b k : Nat) :
    bitAt (Function.update data (b / charBit) (setBit (data (b / charBit)) (b % charBit) flag)) k =
      if k = b then flag else bitAt data k := by
  have hdiv : 8 * (b / charBit) + b % charBit = b := Nat.div_add_mod b 8
  have hmod : b % charBit < 8 := Nat.mod_lt b (Nat.succ_pos 7)
  rw [bitAt_update data flag hmod, hdiv]

section Loop

variable (start : Nat) (flag : Bool) (count i : Nat) (data : Nat → BitVec 8)

/-- A bit that has the value keeps it. -/
theorem setBitRangeLoop_keeps {k : Nat} (hk : bitAt data k = flag) :
    bitAt (setBitRangeLoop start flag count i data) k = flag := by
  induction count generalizing i data with
  | zero => exact hk
  | succ count ih =>
      rw [setBitRangeLoop_succ]
      refine ih _ _ ?_
      rw [bitAt_setBit_flat, hk, ite_self]

/-- The first bit of the loop gets the value. -/
theorem setBitRangeLoop_first (hcount : 0 < count) (hstart : start < 2 ^ 64) :
    bitAt (setBitRangeLoop start flag count 0 data) start = flag := by
  obtain ⟨count, rfl⟩ := Nat.exists_eq_succ_of_ne_zero (Nat.ne_of_gt hcount)
  have hwrap : wrap64 (start + 0) = start := wrap64_of_lt hstart
  rw [setBitRangeLoop_succ]
  refine setBitRangeLoop_keeps _ _ _ _ _ ?_
  rw [hwrap, bitAt_setBit_flat, if_pos rfl]

/-- No bit past the 64-bit range is reached. -/
theorem setBitRangeLoop_high {k : Nat} (hk : 2 ^ 64 ≤ k) :
    bitAt (setBitRangeLoop start flag count i data) k = bitAt data k := by
  induction count generalizing i data with
  | zero => rfl
  | succ count ih =>
      have hwrap : wrap64 (start + i) < 2 ^ 64 := Nat.mod_lt _ (by omega)
      rw [setBitRangeLoop_succ, ih, bitAt_setBit_flat, if_neg (by omega)]

end Loop

variable {size startIndex startBit length : Nat} (flag : Bool) (data : Nat → BitVec 8)

/-- If the tests pass the loop runs, and otherwise nothing happens. -/
theorem setBitRange_guarded (hlength : length ≠ 0) :
    (GuardsPass size startIndex startBit length →
        setBitRangeLogged data size startIndex startBit length flag =
          setBitRangeLoopLogged ((startIndex * 8 + startBit) % 2 ^ 64) flag length 0 data) ∧
      (¬ GuardsPass size startIndex startBit length →
        setBitRangeLogged data size startIndex startBit length flag = pure data) := by
  have htotal : wrap64 (size * charBit) = 8 * size % 2 ^ 64 := by
    rw [wrap64, charBit, Nat.mul_comm]
  have hstart : wrap64 (startIndex * charBit + startBit) =
      (startIndex * 8 + startBit) % 2 ^ 64 := rfl
  have hend : wrap64 ((startIndex * 8 + startBit) % 2 ^ 64 + length) =
      (startIndex * 8 + startBit + length) % 2 ^ 64 := Nat.mod_add_mod _ _ _
  simp only [setBitRangeLogged, if_neg hlength, htotal, hstart, hend]
  constructor
  · intro hpass
    rw [if_neg (Nat.not_le.2 hpass.1), if_neg (Nat.not_lt.2 hpass.2)]
  · intro hfail
    by_cases hlow : (startIndex * 8 + startBit) % 2 ^ 64 ≥ 8 * size % 2 ^ 64
    · rw [if_pos hlow]
    · have hhigh := fun hle => hfail ⟨Nat.lt_of_not_le hlow, hle⟩
      rw [if_neg hlow, if_pos (Nat.lt_of_not_le hhigh)]

variable {flag data}

/-- An array that has the other value everywhere. -/
theorem bitAt_other (flag : Bool) (k : Nat) :
    bitAt (fun _ => if flag then 0#8 else 0xFF#8) k = !flag := by
  have hbit : ∀ b < 8, bit (if flag then 0#8 else 0xFF#8) b = !flag := by
    cases flag <;> decide
  exact hbit (k % 8) (Nat.mod_lt k (by omega))

/-- The value of `SetBitRange` if the tests pass. -/
theorem setBitRange_pass (hlength : length ≠ 0)
    (hpass : GuardsPass size startIndex startBit length) :
    setBitRange data size startIndex startBit length flag =
      setBitRangeLoop ((startIndex * 8 + startBit) % 2 ^ 64) flag length 0 data := by
  rw [setBitRange, (setBitRange_guarded flag data hlength).1 hpass]
  rfl

/-- The value of `SetBitRange` if a test fails. -/
theorem setBitRange_fail (hlength : length ≠ 0)
    (hfail : ¬ GuardsPass size startIndex startBit length) :
    setBitRange data size startIndex startBit length flag = data := by
  rw [setBitRange, (setBitRange_guarded flag data hlength).2 hfail, value_pure]

/-- A range that fits is assigned if the tests let it pass and it ends below `2 ^ 64`. -/
theorem exactOrNothing_of_pass (hlength : length ≠ 0)
    (hfits : startIndex * 8 + startBit + length ≤ 8 * size)
    (hend : startIndex * 8 + startBit + length ≤ 2 ^ 64)
    (hpass : GuardsPass size startIndex startBit length) :
    ExactOrNothing size startIndex startBit length flag := by
  have hstart : (startIndex * 8 + startBit) % 2 ^ 64 = startIndex * 8 + startBit :=
    Nat.mod_eq_of_lt (by omega)
  refine ⟨fun _ data k => ?_, fun hnot => by omega, fun data => ?_⟩
  · rw [setBitRange_pass hlength hpass, hstart, bitAt_setBitRangeLoop _ _ _ _ _ (by omega)]
    rfl
  · rw [(setBitRange_guarded flag data hlength).1 hpass, hstart]
    exact setBitRangeLoopLogged_within _ _ _ _ (by omega) (by omega)

/-- A range that does not fit is left alone if a test fails. -/
theorem exactOrNothing_of_fail (hlength : length ≠ 0)
    (hfits : ¬ startIndex * 8 + startBit + length ≤ 8 * size)
    (hfail : ¬ GuardsPass size startIndex startBit length) :
    ExactOrNothing size startIndex startBit length flag := by
  refine ⟨fun hle => absurd hle hfits, fun _ data => setBitRange_fail hlength hfail, fun data => ?_⟩
  rw [(setBitRange_guarded flag data hlength).2 hfail]
  exact within_pure data

/-- An empty range is left alone. -/
theorem exactOrNothing_empty : ExactOrNothing size startIndex startBit 0 flag := by
  refine ⟨fun _ data k => ?_, fun _ data => rfl, fun data => within_pure data⟩
  rw [if_neg (by omega)]
  rfl

/-- If a test fails for a range that fits, its first bit is not assigned. -/
theorem not_exact_of_fail (hlength : length ≠ 0)
    (hfits : startIndex * 8 + startBit + length ≤ 8 * size)
    (hfail : ¬ GuardsPass size startIndex startBit length) :
    ¬ ExactOrNothing size startIndex startBit length flag := by
  intro h
  have hbit := h.exact hfits (fun _ => if flag then 0#8 else 0xFF#8) (startIndex * 8 + startBit)
  rw [setBitRange_fail hlength hfail, bitAt_other, if_pos (by omega)] at hbit
  exact absurd hbit (by cases flag <;> decide)

/-- If the range goes past `2 ^ 64`, its last bit is not assigned. -/
theorem not_exact_of_high (hlength : length ≠ 0)
    (hfits : startIndex * 8 + startBit + length ≤ 8 * size)
    (hend : 2 ^ 64 < startIndex * 8 + startBit + length)
    (hpass : GuardsPass size startIndex startBit length) :
    ¬ ExactOrNothing size startIndex startBit length flag := by
  intro h
  have hbit := h.exact hfits (fun _ => if flag then 0#8 else 0xFF#8)
    (startIndex * 8 + startBit + length - 1)
  rw [setBitRange_pass hlength hpass, setBitRangeLoop_high _ _ _ _ _ (by omega), bitAt_other,
    if_pos (by omega)] at hbit
  exact absurd hbit (by cases flag <;> decide)

/-- If the tests let a range pass that does not fit, the bit it wraps around to is assigned. -/
theorem not_nothing_of_pass (hlength : length ≠ 0)
    (hfits : ¬ startIndex * 8 + startBit + length ≤ 8 * size)
    (hpass : GuardsPass size startIndex startBit length) :
    ¬ ExactOrNothing size startIndex startBit length flag := by
  intro h
  have hstart : (startIndex * 8 + startBit) % 2 ^ 64 < 2 ^ 64 := Nat.mod_lt _ (by omega)
  have hbit := setBitRangeLoop_first _ flag length (fun _ => if flag then 0#8 else 0xFF#8)
    (Nat.pos_of_ne_zero hlength) hstart
  rw [← setBitRange_pass hlength hpass, h.nothing (by omega), bitAt_other] at hbit
  exact absurd hbit (by cases flag <;> decide)

/-- `SetBitRange` is exact or does nothing iff the range is empty, or it fits, ends at or below bit
`2 ^ 64` and passes the tests, or it does not fit and fails one. -/
theorem set_bit_range_exact_iff (size startIndex startBit length : Nat) (flag : Bool) :
    ExactOrNothing size startIndex startBit length flag ↔
      length = 0 ∨
        (startIndex * 8 + startBit + length ≤ 8 * size ∧
          startIndex * 8 + startBit + length ≤ 2 ^ 64 ∧
          GuardsPass size startIndex startBit length) ∨
        (8 * size < startIndex * 8 + startBit + length ∧
          ¬ GuardsPass size startIndex startBit length) := by
  by_cases hlength : length = 0
  · subst hlength
    exact iff_of_true exactOrNothing_empty (.inl rfl)
  by_cases hfits : startIndex * 8 + startBit + length ≤ 8 * size
  · by_cases hpass : GuardsPass size startIndex startBit length
    · by_cases hend : startIndex * 8 + startBit + length ≤ 2 ^ 64
      · exact iff_of_true (exactOrNothing_of_pass hlength hfits hend hpass)
          (.inr (.inl ⟨hfits, hend, hpass⟩))
      · exact iff_of_false (not_exact_of_high hlength hfits (by omega) hpass) (by omega)
    · refine iff_of_false (not_exact_of_fail hlength hfits hpass) ?_
      intro h
      rcases h with hzero | ⟨-, -, h⟩ | ⟨hnot, -⟩
      · exact hlength hzero
      · exact hpass h
      · omega
  · by_cases hpass : GuardsPass size startIndex startBit length
    · refine iff_of_false (not_nothing_of_pass hlength hfits hpass) ?_
      intro h
      rcases h with hzero | ⟨h, -⟩ | ⟨-, h⟩
      · exact hlength hzero
      · exact hfits h
      · exact h hpass
    · exact iff_of_true (exactOrNothing_of_fail hlength hfits hpass)
        (.inr (.inr ⟨Nat.lt_of_not_le hfits, hpass⟩))

/-- A start index of `2 ^ 61` wraps around to the first bit, which is set in an array of one
byte. -/
theorem wrapped_start_sets_bit :
    setBitRange (fun _ => 0#8) 1 (2 ^ 61) 0 1 true 0 = 1#8 ∧
      ¬ ExactOrNothing 1 (2 ^ 61) 0 1 true := by
  refine ⟨by decide, ?_⟩
  exact not_nothing_of_pass (by omega) (by omega) ⟨by omega, by omega⟩

end HailOS.Kernel
