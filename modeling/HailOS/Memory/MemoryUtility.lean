import HailOS.Lib.AccessLog

/-!
# Memory utilities

`FillMemory` and `CompareMemory`, after `Library/Memory/MemoryUtility.cpp`. `FillMemory` is run with
a log of the addresses it writes, and `fillMemory` is the memory it leaves.
-/

namespace HailOS.Kernel

open Lib Logged

/-- The loop of `FillMemory`, with `count` bytes left and the counter at `i`. -/
def fillMemoryLoopLogged (ptr : Nat) (value : BitVec 8) :
    (count i : Nat) → Memory → Logged Nat Memory
  | 0, _, memory => pure memory
  | count + 1, i, memory => do
      let memory ← access (ptr + i) (Function.update memory (ptr + i) value)
      fillMemoryLoopLogged ptr value count (i + 1) memory

/-- `FillMemory`. -/
def fillMemoryLogged (memory : Memory) (ptr size : Nat) (value : BitVec 8) : Logged Nat Memory :=
  fillMemoryLoopLogged ptr value size 0 memory

/-- The memory after `FillMemory`. -/
def fillMemory (memory : Memory) (ptr size : Nat) (value : BitVec 8) : Memory :=
  (fillMemoryLogged memory ptr size value).value

/-- The loop writes the bytes from the counter to the end. -/
theorem fillMemoryLoop_apply (ptr : Nat) (byte : BitVec 8) (count i : Nat) (memory : Memory)
    (x : Nat) :
    (fillMemoryLoopLogged ptr byte count i memory).value x =
      if ptr + i ≤ x ∧ x < ptr + i + count then byte else memory x := by
  induction count generalizing i memory with
  | zero => exact (if_neg fun h => by omega).symm
  | succ count ih =>
      rw [fillMemoryLoopLogged, value_bind, ih, value_access]
      by_cases hx : x = ptr + i
      · subst hx
        simp
      · rw [Function.update_of_ne hx]
        have hiff : ptr + (i + 1) ≤ x ∧ x < ptr + (i + 1) + count ↔
            ptr + i ≤ x ∧ x < ptr + i + (count + 1) := by omega
        simp [hiff]

/-- `FillMemory` writes the given range and nothing else. -/
theorem fillMemory_apply (memory : Memory) (ptr size : Nat) (value : BitVec 8) (x : Nat) :
    fillMemory memory ptr size value x =
      if ptr ≤ x ∧ x < ptr + size then value else memory x :=
  fillMemoryLoop_apply ptr value size 0 memory x

/-- The loop of `CompareMemory`, with `count` bytes left and the counter at `i`. The second
range is a constant text. -/
def compareMemoryLoop (memory : Memory) (ptr : Nat) (text : Nat → BitVec 8) :
    (count i : Nat) → Bool
  | 0, _ => true
  | count + 1, i =>
      if memory (ptr + i) ≠ text i then false
      else compareMemoryLoop memory ptr text count (i + 1)

/-- `CompareMemory`. -/
def compareMemory (memory : Memory) (ptr : Nat) (text : Nat → BitVec 8) (size : Nat) : Bool :=
  compareMemoryLoop memory ptr text size 0

/-- `CompareMemory` accepts a range that holds the text. -/
theorem compareMemoryLoop_true {memory : Memory} {ptr : Nat} {text : Nat → BitVec 8}
    {count i : Nat} (h : ∀ j, i ≤ j → j < i + count → memory (ptr + j) = text j) :
    compareMemoryLoop memory ptr text count i = true := by
  induction count generalizing i with
  | zero => rfl
  | succ count ih =>
      have hfirst : memory (ptr + i) = text i := h i (by omega) (by omega)
      rw [compareMemoryLoop, if_neg (not_not_intro hfirst)]
      exact ih fun j hlow hhigh => h j (by omega) (by omega)

end HailOS.Kernel
