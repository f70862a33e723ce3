import HailOS.Lib.AccessLog

/-!
# Bits of a byte array

`Bit`, `SetBit` and `SetBitRange`, after `Include/Utility/Bit.hpp`. A byte array is a map from
indices to bytes, indices at or past its size stand for the memory behind it. `bitAt` numbers
the bits of the whole array, least significant bit of each byte first, and the lemmas describe
the three functions in terms of it. `SetBitRange` is run with a log of the indices it accesses, and
`setBitRange` is the array it leaves.
-/

namespace HailOS.Kernel

open Lib Logged

/-- `CHAR_BIT`. -/
def charBit : Nat := 8

/-- Unsigned 64-bit arithmetic keeps the value modulo `2 ^ 64`. -/
def wrap64 (value : Nat) : Nat := value % 2 ^ 64

theorem wrap64_of_lt {value : Nat} (h : value < 2 ^ 64) : wrap64 value = value :=
  Nat.mod_eq_of_lt h

/-- `Bit`. -/
def bit (value : BitVec 8) (bit : Nat) : Bool :=
  if bit ≥ charBit then false else (value >>> bit) &&& 1#8 != 0#8

/-- `SetBit`, returning the new value of the byte. -/
def setBit (value : BitVec 8) (bit : Nat) (flag : Bool) : BitVec 8 :=
  if bit ≥ charBit then value
  else
    let mask := 1#8 <<< bit
    (value &&& ~~~mask) ||| (if flag then mask else 0#8)

/-- `SetBit` on byte `index` of an array. -/
def setBitLogged (data : Nat → BitVec 8) (index bit : Nat) (flag : Bool) :
    Logged Nat (Nat → BitVec 8) :=
  access index (Function.update data index (setBit (data index) bit flag))

/-- The loop of `SetBitRange`, with `count` iterations left and the counter at `i`. -/
def setBitRangeLoopLogged (start : Nat) (flag : Bool) :
    (count i : Nat) → (Nat → BitVec 8) → Logged Nat (Nat → BitVec 8)
  | 0, _, data => pure data
  | count + 1, i, data => do
      let b := wrap64 (start + i)
      let data ← setBitLogged data (b / charBit) (b % charBit) flag
      setBitRangeLoopLogged start flag count (i + 1) data

/-- `SetBitRange`. -/
def setBitRangeLogged (data : Nat → BitVec 8) (size startIndex startBit length : Nat)
    (flag : Bool) : Logged Nat (Nat → BitVec 8) :=
  if length = 0 then pure data
  else
    let total := wrap64 (size * charBit)
    let start := wrap64 (startIndex * charBit + startBit)
    if start ≥ total then pure data
    else if wrap64 (start + length) > total then pure data
    else setBitRangeLoopLogged start flag length 0 data

/-- The array after the loop of `SetBitRange`. -/
def setBitRangeLoop (start : Nat) (flag : Bool) (count i : Nat) (data : Nat → BitVec 8) :
    Nat → BitVec 8 :=
  (setBitRangeLoopLogged start flag count i data).value

/-- The array after `SetBitRange`. -/
def setBitRange (data : Nat → BitVec 8) (size startIndex startBit length : Nat) (flag : Bool) :
    Nat → BitVec 8 :=
  (setBitRangeLogged data size startIndex startBit length flag).value

theorem setBitRangeLoop_succ (start : Nat) (flag : Bool) (count i : Nat)
    (data : Nat → BitVec 8) :
    setBitRangeLoop start flag (count + 1) i data =
      setBitRangeLoop start flag count (i + 1)
        (Function.update data (wrap64 (start + i) / charBit)
          (setBit (data (wrap64 (start + i) / charBit)) (wrap64 (start + i) % charBit) flag)) :=
  rfl

theorem setBitRange_eq (data : Nat → BitVec 8) (size startIndex startBit length : Nat)
    (flag : Bool) :
    setBitRange data size startIndex startBit length flag =
      if length = 0 then data
      else if wrap64 (startIndex * charBit + startBit) ≥ wrap64 (size * charBit) then data
      else if wrap64 (wrap64 (startIndex * charBit + startBit) + length) > wrap64 (size * charBit)
        then data
      else setBitRangeLoop (wrap64 (startIndex * charBit + startBit)) flag length 0 data := by
  simp only [setBitRange, setBitRangeLogged, apply_ite value, value_pure, setBitRangeLoop]

/-! ## Single bits -/

/-- `Bit` reads the bit of that weight. -/
theorem bit_eq_getLsbD (value : BitVec 8) (b : Nat) : bit value b = value.getLsbD b := by
  unfold bit charBit
  split
  · exact (BitVec.getLsbD_of_ge value b (by omega)).symm
  · rw [BitVec.and_one_eq_setWidth_ofBool_getLsbD]
    cases h : value.getLsbD b <;> simp [h]

/-- The mask of bit `b` has that bit only. -/
theorem getLsbD_mask {b c : Nat} (hc : c < 8) : (1#8 <<< b).getLsbD c = decide (c = b) := by
  by_cases hcb : c = b
  · simp [hcb, hcb ▸ hc]
  · have hshift : c < b ∨ c - b ≠ 0 := by omega
    rcases hshift with h | h <;> simp [hcb, h]

/-- `SetBit` assigns one bit and keeps the others. -/
theorem bit_setBit (value : BitVec 8) {b c : Nat} (flag : Bool) (hb : b < 8) :
    bit (setBit value b flag) c = if c = b then flag else bit value c := by
  have hlt : ¬ b ≥ charBit := by simpa [charBit] using hb
  simp only [bit_eq_getLsbD, setBit, hlt, if_false]
  by_cases hc : c < 8
  · rw [BitVec.getLsbD_or, BitVec.getLsbD_and, BitVec.getLsbD_not, getLsbD_mask hc]
    have hflag : (if flag then 1#8 <<< b else 0#8).getLsbD c = (flag && decide (c = b)) := by
      cases flag
      · simp
      · exact getLsbD_mask hc
    rw [hflag]
    by_cases hcb : c = b <;> simp [hc, hcb]
  · have hcb : c ≠ b := by omega
    rw [if_neg hcb, BitVec.getLsbD_of_ge _ _ (by omega), BitVec.getLsbD_of_ge _ _ (by omega)]

/-! ## Bits of an array -/

/-- Bit `k` of a byte array. -/
def bitAt (data : Nat → BitVec 8) (k : Nat) : Bool :=
  bit (data (k / charBit)) (k % charBit)

/-- Bit `b` of byte `i`, as a bit of the whole array. -/
theorem bitAt_byte (data : Nat → BitVec 8) (i : Nat) {b : Nat} (hb : b < 8) :
    bitAt data (8 * i + b) = bit (data i) b := by
  have hdiv : (8 * i + b) / 8 = i := by omega
  have hmod : (8 * i + b) % 8 = b := by omega
  simp only [bitAt, charBit, hdiv, hmod]

/-- Arrays with the same bits are the same. -/
theorem eq_of_bitAt_eq {data data' : Nat → BitVec 8} (h : ∀ k, bitAt data k = bitAt data' k) :
    data = data' := by
  funext i
  apply BitVec.eq_of_getLsbD_eq
  intro b hb
  have hbit := h (8 * i + b)
  rwa [bitAt_byte data i hb, bitAt_byte data' i hb, bit_eq_getLsbD, bit_eq_getLsbD] at hbit

/-- Assigning one bit through its byte changes that bit of the array only. -/
theorem bitAt_update (data : Nat → BitVec 8) {index b : Nat} (flag : Bool) (hb : b < 8)
    (k : Nat) :
    bitAt (Function.update data index (setBit (data index) b flag)) k =
      if k = 8 * index + b then flag else bitAt data k := by
  unfold bitAt charBit
  by_cases hindex : k / 8 = index
  · rw [hindex, Function.update_self, bit_setBit _ _ hb]
    have hiff : k % 8 = b ↔ k = 8 * index + b := by omega
    simp [hiff]
  · have hne : k ≠ 8 * index + b := by omega
    rw [Function.update_of_ne hindex, if_neg hne]

/-- The loop assigns the bits from the counter to the end of the range. -/
theorem bitAt_setBitRangeLoop (start : Nat) (flag : Bool) (count i : Nat)
    (data : Nat → BitVec 8) (h : start + i + count ≤ 2 ^ 64) (k : Nat) :
    bitAt (setBitRangeLoop start flag count i data) k =
      if start + i ≤ k ∧ k < start + i + count then flag else bitAt data k := by
  induction count generalizing i data with
  | zero => exact (if_neg fun h => by omega).symm
  | succ count ih =>
      have hwrap : wrap64 (start + i) = start + i := wrap64_of_lt (by omega)
      have hpos : 8 * ((start + i) / 8) + (start + i) % 8 = start + i := by omega
      rw [setBitRangeLoop_succ, ih _ _ (by omega)]
      simp only [hwrap, charBit]
      rw [bitAt_update data flag (by omega) k, hpos]
      by_cases hk : k = start + i
      · subst hk
        simp
      · have hiff : start + (i + 1) ≤ k ∧ k < start + (i + 1) + count ↔
            start + i ≤ k ∧ k < start + i + (count + 1) := by omega
        simp [hk, hiff]

section SetBitRange

variable (data : Nat → BitVec 8) {size startIndex startBit length : Nat} (flag : Bool)

/-- A range inside the array is assigned exactly. -/
theorem bitAt_setBitRange (hsize : size * 8 < 2 ^ 64)
    (h : startIndex * 8 + startBit + length ≤ size * 8) (k : Nat) :
    bitAt (setBitRange data size startIndex startBit length flag) k =
      if startIndex * 8 + startBit ≤ k ∧ k < startIndex * 8 + startBit + length then flag
      else bitAt data k := by
  rw [setBitRange_eq]
  by_cases hlength : length = 0
  · simp [hlength]
  · have htotal : wrap64 (size * charBit) = size * 8 := wrap64_of_lt hsize
    have hstart : wrap64 (startIndex * charBit + startBit) = startIndex * 8 + startBit :=
      wrap64_of_lt (by simp only [charBit]; omega)
    have hend : wrap64 (startIndex * 8 + startBit + length) =
        startIndex * 8 + startBit + length := wrap64_of_lt (by omega)
    simp only [htotal, hstart, hend]
    rw [if_neg hlength, if_neg (by omega), if_neg (by omega),
      bitAt_setBitRangeLoop _ _ _ _ _ (by omega)]
    rfl

/-- A range that does not fit in the array is left alone. -/
theorem setBitRange_outside (hsize : size * 8 < 2 ^ 64)
    (hend : startIndex * 8 + startBit + length < 2 ^ 64)
    (h : size * 8 < startIndex * 8 + startBit + length) :
    setBitRange data size startIndex startBit length flag = data := by
  rw [setBitRange_eq]
  have htotal : wrap64 (size * charBit) = size * 8 := wrap64_of_lt hsize
  have hstart : wrap64 (startIndex * charBit + startBit) = startIndex * 8 + startBit :=
    wrap64_of_lt (by simp only [charBit]; omega)
  simp only [htotal, hstart, wrap64_of_lt hend]
  rw [if_pos h, ite_self, ite_self]

end SetBitRange

end HailOS.Kernel
