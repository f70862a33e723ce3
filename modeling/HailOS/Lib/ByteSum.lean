import HailOS.Lib.ByteMemory
import Mathlib.Algebra.BigOperators.Group.Finset.Piecewise

/-!
# Sums of bytes

A checksum is the sum of a range of bytes, modulo 256. `byteSum_update_eq_iff` says which
alterations of a single byte it cannot see: those behind the range, and those that change nothing.
-/

namespace HailOS.Lib.Memory

variable {memory : Memory} {address n k : Nat} {byte : BitVec 8}

/-- The sum of the `n` bytes from `address` on. -/
def byteSum (memory : Memory) (address n : Nat) : BitVec 8 :=
  ∑ i ∈ Finset.range n, memory (address + i)

theorem byteSum_zero : memory.byteSum address 0 = 0 := Finset.sum_range_zero _

/-- The first byte of the range. -/
theorem byteSum_succ :
    memory.byteSum address (n + 1) = memory address + memory.byteSum (address + 1) n := by
  rw [byteSum, Finset.sum_range_succ', byteSum, add_comm]
  simp only [Nat.add_assoc, Nat.add_comm 1, Nat.add_zero]

/-- The byte at index `k` of a range is altered. -/
theorem update_range :
    (fun i => Function.update memory (address + k) byte (address + i)) =
      Function.update (fun i => memory (address + i)) k byte :=
  Function.update_comp_eq_of_injective memory (add_right_injective address) k byte

/-- The sum of a range sees the alteration of a byte exactly if the byte lies in the range and
gets another value. -/
theorem byteSum_update_eq_iff :
    byteSum (Function.update memory (address + k) byte) address n = memory.byteSum address n ↔
      n ≤ k ∨ byte = memory (address + k) := by
  rw [byteSum, byteSum, update_range]
  by_cases hk : k < n
  · have hmem : k ∈ Finset.range n := Finset.mem_range.2 hk
    rw [Finset.sum_update_of_mem hmem, Finset.sdiff_singleton_eq_erase,
      ← Finset.add_sum_erase _ _ hmem, add_left_inj, or_iff_right (by omega)]
  · rw [Finset.sum_update_of_notMem (fun h => hk (Finset.mem_range.1 h))]
    exact iff_of_true rfl (Or.inl (by omega))

end HailOS.Lib.Memory
