import Mathlib.Data.BitVec
import Mathlib.Logic.Function.Basic
import Mathlib.Tactic.Ring

/-!
# Byte-addressed memory

A memory holds a byte at every address. `load` and `store` read and write little-endian
values of any width, and `load64` and `store64` are their 64-bit instances. The round trips
are `load_store_same` and `load_store_other`. `store_outside` is the frame: a store changes no
byte outside the range it writes.
-/

namespace HailOS.Lib

/-- A memory: a byte at every address. -/
abbrev Memory := Nat → BitVec 8

namespace Memory

/-- The little-endian value of the `width` bytes at `address`. -/
def load : Nat → Memory → Nat → Nat
  | 0, _, _ => 0
  | width + 1, memory, address =>
      (memory address).toNat + 256 * load width memory (address + 1)

/-- Write the `width` low bytes of `value` at `address`, little endian. -/
def store : Nat → Memory → Nat → Nat → Memory
  | 0, memory, _, _ => memory
  | width + 1, memory, address, value =>
      store width (Function.update memory address (BitVec.ofNat 8 value)) (address + 1)
        (value / 256)

/-- A load depends only on the bytes it reads. -/
theorem load_congr {width : Nat} {memory memory' : Memory} {address : Nat}
    (h : ∀ i < width, memory' (address + i) = memory (address + i)) :
    load width memory' address = load width memory address := by
  induction width generalizing address with
  | zero => rfl
  | succ width ih =>
      have hfirst : memory' address = memory address := by simpa using h 0 (by omega)
      have hrest : load width memory' (address + 1) = load width memory (address + 1) := by
        apply ih
        intro i hi
        simpa [Nat.add_assoc, Nat.add_comm 1 i] using h (i + 1) (by omega)
      simp only [load, hfirst, hrest]

/-- A load fits in its width. -/
theorem load_lt (width : Nat) (memory : Memory) (address : Nat) :
    load width memory address < 256 ^ width := by
  induction width generalizing address with
  | zero => simp [load]
  | succ width ih =>
      have hbyte := (memory address).isLt
      have hrest := ih (address + 1)
      rw [load, Nat.pow_succ]
      omega

/-- A store changes no byte outside the range it writes. -/
theorem store_outside (width : Nat) (memory : Memory) (address value : Nat) {x : Nat}
    (h : x < address ∨ address + width ≤ x) :
    store width memory address value x = memory x := by
  induction width generalizing memory address value with
  | zero => rfl
  | succ width ih =>
      have hne : x ≠ address := by omega
      rw [store, ih _ _ _ (by omega), Function.update_of_ne hne]

/-- Reading back what was stored gives the value, truncated to the width. -/
theorem load_store_same (width : Nat) (memory : Memory) (address value : Nat) :
    load width (store width memory address value) address = value % 256 ^ width := by
  induction width generalizing memory address value with
  | zero => simp [load, Nat.mod_one]
  | succ width ih =>
      have hfirst : store width (Function.update memory address (BitVec.ofNat 8 value))
          (address + 1) (value / 256) address = BitVec.ofNat 8 value := by
        rw [store_outside _ _ _ _ (by omega), Function.update_self]
      rw [store, load, hfirst, ih, Nat.pow_succ, Nat.mul_comm _ 256, Nat.mod_mul]
      simp

/-- A load that does not overlap a store sees the old memory. -/
theorem load_store_other (width width' : Nat) (memory : Memory)
    {address address' : Nat} (value : Nat)
    (h : address' + width' ≤ address ∨ address + width ≤ address') :
    load width' (store width memory address value) address' = load width' memory address' :=
  load_congr fun i hi => store_outside _ _ _ _ (by omega)

/-! ## 64-bit words -/

/-- The 64-bit word at `address`. -/
def load64 (memory : Memory) (address : Nat) : BitVec 64 :=
  BitVec.ofNat 64 (load 8 memory address)

/-- Write a 64-bit word at `address`. -/
def store64 (memory : Memory) (address : Nat) (word : BitVec 64) : Memory :=
  store 8 memory address word.toNat

variable {memory memory' : Memory} {address address' : Nat} {word : BitVec 64}

theorem load64_congr (h : ∀ i < 8, memory' (address + i) = memory (address + i)) :
    load64 memory' address = load64 memory address := by
  rw [load64, load64, load_congr h]

theorem store64_outside {x : Nat} (h : x < address ∨ address + 8 ≤ x) :
    store64 memory address word x = memory x :=
  store_outside _ _ _ _ h

@[simp] theorem load64_store64_same :
    load64 (store64 memory address word) address = word := by
  rw [load64, store64, load_store_same]
  apply BitVec.eq_of_toNat_eq
  simp [Nat.mod_eq_of_lt word.isLt]

theorem load64_store64_other (h : address' + 8 ≤ address ∨ address + 8 ≤ address') :
    load64 (store64 memory address word) address' = load64 memory address' := by
  rw [load64, load64, store64, load_store_other _ _ _ _ h]

/-- A word of zero bytes is zero. -/
theorem load64_eq_zero (h : ∀ i < 8, memory (address + i) = 0) : load64 memory address = 0 := by
  have hzero : load64 memory address = load64 (fun _ => 0) address := load64_congr h
  rw [hzero]
  simp [load64, load]

/-- A word of bytes with all bits set. -/
theorem load64_eq_ones (h : ∀ i < 8, memory (address + i) = 0xFF) :
    load64 memory address = BitVec.allOnes 64 := by
  have hones : load64 memory address = load64 (fun _ => 0xFF) address := load64_congr h
  rw [hones]
  simp [load64, load]

end Memory

end HailOS.Lib
