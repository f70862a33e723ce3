import HailOS.Memory.EarlyPageAllocator
import HailOS.Memory.MemoryUtility

/-!
# The global allocation operators

`operator new` and `operator delete`, after `Core/Memory/NewDelete.cpp`. A block is preceded by
an 8-byte `AllocatedMemoryInfo` header that records its number of pages. The header goes right
before the address that `AllocatePage` returned, so into the page before the granted ones, and
`operator delete` passes the recorded page count to `FreePage` as a size in bytes.

`operatorNew_grant` and `bitAt_operatorDelete` say what the two do to the bitmap.
-/

namespace HailOS.Early

open Lib Kernel

/-- The page bitmap and the memory it manages. -/
structure Heap where
  bitmap : PageBitmap
  memory : Memory

/-- `sizeof(AllocatedMemoryInfo)`. -/
def allocatedMemoryInfoSize : Nat := 8

/-- The text `KMEM` that marks a header. -/
def magic (i : Nat) : BitVec 8 :=
  if i = 0 then 0x4B else if i = 1 then 0x4D else if i = 2 then 0x45 else 0x4D

/-- `reinterpret_cast<AllocatedMemoryInfo*>(p) - 1`. -/
def allocatedAddr (p : Nat) : Nat := wrap64 (p + (2 ^ 64 - allocatedMemoryInfoSize))

/-- Write a header: the magic text, and the page count cut to 32 bits. -/
def writeAllocatedMemoryInfo (memory : Memory) (address allocatedPages : Nat) : Memory :=
  Memory.store 4 (Memory.store 4 memory address 0x4D454D4B) (address + 4) allocatedPages

/-- The field `AllocatedPages` of the header at `address`. -/
def allocatedPages (memory : Memory) (address : Nat) : Nat := Memory.load 4 memory (address + 4)

/-- The size `operator new` asks the allocator for. -/
def sizeAlloc (size : Nat) : Nat := wrap64 (size + allocatedMemoryInfoSize)

/-- `operator new(std::size_t, const std::nothrow_t&)`. -/
def operatorNewNothrow (heap : Heap) (size : Nat) : Nat × Heap :=
  let result := allocatePageSize heap.bitmap (sizeAlloc size)
  if result.1 = 0 then (0, { heap with bitmap := result.2 })
  else
    (result.1,
      { bitmap := result.2,
        memory := writeAllocatedMemoryInfo heap.memory (allocatedAddr result.1)
          (pageCountOf (sizeAlloc size)) })

/-- `operator new(std::size_t)`. It panics, and so does not return, if no block is granted. -/
def operatorNew (heap : Heap) (size : Nat) : Option (Nat × Heap) :=
  let result := allocatePageSize heap.bitmap (sizeAlloc size)
  if result.1 = 0 then none
  else
    some (result.1,
      { bitmap := result.2,
        memory := writeAllocatedMemoryInfo heap.memory (allocatedAddr result.1)
          (pageCountOf (sizeAlloc size)) })

/-- `operator delete(void*)`. -/
def operatorDelete (heap : Heap) (p : Nat) : Heap :=
  { heap with
    bitmap := freePageSize heap.bitmap (allocatedAddr p)
      (allocatedPages heap.memory (allocatedAddr p)) }

/-- `operator delete(void*, const std::nothrow_t&)`. -/
def operatorDeleteNothrow (heap : Heap) (p : Nat) : Heap :=
  if ¬ compareMemory heap.memory (allocatedAddr p) magic 4 then heap
  else operatorDelete heap p

/-! ## Headers -/

/-- The header of a block other than null ends where the block starts. -/
theorem allocatedAddr_eq {p : Nat} (hp : 8 ≤ p) (hbound : p < 2 ^ 64) :
    allocatedAddr p = p - 8 := by
  simp only [allocatedAddr, allocatedMemoryInfoSize, wrap64]
  omega

/-- Writing a header changes its eight bytes only. -/
theorem writeAllocatedMemoryInfo_outside (memory : Memory) {address : Nat} (count : Nat) {x : Nat}
    (h : x < address ∨ address + 8 ≤ x) :
    writeAllocatedMemoryInfo memory address count x = memory x := by
  rw [writeAllocatedMemoryInfo, Memory.store_outside _ _ _ _ (by omega),
    Memory.store_outside _ _ _ _ (by omega)]

/-- The header of a block lies in the eight bytes before it. -/
theorem writeAllocatedMemoryInfo_before (memory : Memory) {p k : Nat} (count : Nat) {x : Nat}
    (hpage : p = 4096 * k) (hk : 0 < k) (h : x < p - 8 ∨ p ≤ x) :
    writeAllocatedMemoryInfo memory (p - 8) count x = memory x :=
  writeAllocatedMemoryInfo_outside memory count (by omega)

/-- The recorded page count. -/
theorem allocatedPages_write (memory : Memory) (address count : Nat) :
    allocatedPages (writeAllocatedMemoryInfo memory address count) address = count % 2 ^ 32 := by
  rw [allocatedPages, writeAllocatedMemoryInfo, Memory.load_store_same,
    show 256 ^ 4 = 2 ^ 32 from rfl]

/-- The magic bytes of a written header. -/
theorem magic_write (memory : Memory) (address count : Nat) {j : Nat} (hj : j < 4) :
    writeAllocatedMemoryInfo memory address count (address + j) = magic j := by
  rw [writeAllocatedMemoryInfo, Memory.store_outside _ _ _ _ (by omega)]
  simp only [Memory.store, Function.update_apply, magic, Nat.add_assoc]
  have hcases : j = 0 ∨ j = 1 ∨ j = 2 ∨ j = 3 := by omega
  rcases hcases with rfl | rfl | rfl | rfl <;> simp

/-! ## What the operators do -/

/-- A block that `operator new` returns is a grant of the allocator, and its header is written
into the eight bytes before it. -/
theorem operatorNew_grant {heap heap' : Heap} {size p : Nat}
    (h : operatorNew heap size = some (p, heap')) :
    ∃ s, p = 4096 * s ∧ Grant heap.bitmap heap'.bitmap (pageCountOf (sizeAlloc size)) s ∧
      allocatedAddr p = 4096 * s - 8 ∧
      heap'.memory = writeAllocatedMemoryInfo heap.memory (4096 * s - 8)
        (pageCountOf (sizeAlloc size)) := by
  unfold operatorNew at h
  by_cases hnull : (allocatePageSize heap.bitmap (sizeAlloc size)).1 = 0
  · simp [hnull] at h
  · obtain ⟨s, haddress, hgrant⟩ := allocatePageSize_grant hnull
    have hscan : scanTotal = 2 ^ 24 + 8 := by rw [scanTotal_eq, pageTotal_eq]
    have hstart := hgrant.start_pos
    have hfits := hgrant.first.fits
    have hheader : allocatedAddr (4096 * s) = 4096 * s - 8 :=
      allocatedAddr_eq (by omega) (by omega)
    simp only [hnull, if_false, Option.some.injEq, Prod.mk.injEq] at h
    obtain ⟨rfl, rfl⟩ := h
    exact ⟨s, haddress, hgrant, by rw [haddress, hheader], by rw [haddress, hheader]⟩

/-- A block of one page that `operator new` returns is a page of the bitmap, unused before and
used after. -/
theorem operatorNew_one_page {heap heap' : Heap} {size p : Nat}
    (hone : pageCountOf (sizeAlloc size) = 1) (h : operatorNew heap size = some (p, heap')) :
    ∃ k, 0 < k ∧ k < pageTotal ∧ p = 4096 * k ∧ bitAt heap.bitmap k = unusedBit ∧
      bitAt heap'.bitmap k = usedBit ∧
      (∀ j, bitAt heap.bitmap j = usedBit → bitAt heap'.bitmap j = usedBit) ∧
      heap'.memory = writeAllocatedMemoryInfo heap.memory (4096 * k - 8) 1 := by
  obtain ⟨k, rfl, hgrant, _, hmemory⟩ := operatorNew_grant h
  rw [hone] at hgrant hmemory
  have hpage : k < pageTotal := by
    unfold operatorNew at h
    by_cases hnull : (allocatePageSize heap.bitmap (sizeAlloc size)).1 = 0
    · simp [hnull] at h
    · simp only [hnull, if_false, Option.some.injEq, Prod.mk.injEq] at h
      simp only [allocatePageSize, hone, if_true] at h hnull
      obtain ⟨page, hbound, haddress, _⟩ := allocatePage_grant hnull
      omega
  refine ⟨k, hgrant.start_pos, hpage, rfl, hgrant.unused (by omega) (by omega), ?_,
    fun j hj => hgrant.used_mono hj, hmemory⟩
  rw [hgrant.marked (by omega), if_pos (by omega)]

/-- `operator new` returns if the allocator grants a block. -/
theorem operatorNew_eq {heap : Heap} {size : Nat}
    (h : (allocatePageSize heap.bitmap (sizeAlloc size)).1 ≠ 0) :
    operatorNew heap size =
      some ((allocatePageSize heap.bitmap (sizeAlloc size)).1,
        { bitmap := (allocatePageSize heap.bitmap (sizeAlloc size)).2,
          memory := writeAllocatedMemoryInfo heap.memory
            (allocatedAddr (allocatePageSize heap.bitmap (sizeAlloc size)).1)
            (pageCountOf (sizeAlloc size)) }) :=
  if_neg h

/-- A granted block has fewer than `2 ^ 32` pages, so its header records their number. -/
theorem Grant.count_lt {bitmap bitmap' : PageBitmap} {pageCount s : Nat}
    (h : Grant bitmap bitmap' pageCount s) : pageCount < 2 ^ 32 := by
  have hscan : scanTotal = 2 ^ 24 + 8 := by rw [scanTotal_eq, pageTotal_eq]
  have hfits := h.first.fits
  omega

/-- `operator delete` clears a range of pages that starts one page before the block, as long as
the recorded page count taken for a number of bytes. -/
theorem bitAt_operatorDelete (heap : Heap) {s : Nat} (hs : 0 < s) (hbound : 4096 * s < 2 ^ 64)
    {count : Nat} (hcount : count = pageCountOf (allocatedPages heap.memory (4096 * s - 8)))
    (hfits : s - 1 + count ≤ pageTotal) (k : Nat) :
    bitAt (operatorDelete heap (4096 * s)).bitmap k =
      if s - 1 ≤ k ∧ k < s - 1 + count then unusedBit else bitAt heap.bitmap k := by
  have hpage : (4096 * s - 8) / 4096 = s - 1 := by omega
  rw [operatorDelete, allocatedAddr_eq (by omega) hbound,
    bitAt_freePageSize heap.bitmap (by rw [hpage, ← hcount]; exact hfits), hpage, ← hcount]

/-- `operator delete` clears nothing if the range does not lie inside the bitmap. -/
theorem operatorDelete_outside (heap : Heap) {s : Nat} (hs : 0 < s) (hbound : 4096 * s < 2 ^ 64)
    (houtside : pageTotal < s - 1 + pageCountOf (allocatedPages heap.memory (4096 * s - 8))) :
    operatorDelete heap (4096 * s) = heap := by
  have hpage : (4096 * s - 8) / 4096 = s - 1 := by omega
  have hload := Memory.load_lt 4 heap.memory (4096 * s - 8 + 4)
  have hcount := pageCountOf_eq (allocatedPages heap.memory (4096 * s - 8))
  rw [operatorDelete, allocatedAddr_eq (by omega) hbound,
    freePageSize_outside heap.bitmap (by rw [hpage]; exact houtside)
      (by rw [hpage, hcount, allocatedPages]; omega)]

/-- `operator delete` of a block that starts past the page after the last one clears nothing,
whatever the header holds. -/
theorem operatorDelete_past (heap : Heap) {s : Nat} (hs : pageTotal < s)
    (hbound : 4096 * s < 2 ^ 64) : operatorDelete heap (4096 * s) = heap := by
  rcases Nat.eq_zero_or_pos (pageCountOf (allocatedPages heap.memory (4096 * s - 8)))
    with hzero | hpos
  · -- A recorded count of 0 clears an empty range.
    rw [operatorDelete, allocatedAddr_eq (by omega) hbound, freePageSize, hzero]
    simp [setBitRange_eq]
  · exact operatorDelete_outside heap (by omega) hbound (by omega)

/-- `operator delete(void*, const std::nothrow_t&)` frees a block of `operator new` as the plain
operator does, as long as the header is as it was written. -/
theorem operatorDeleteNothrow_new {heap heap' : Heap} {size p : Nat}
    (h : operatorNew heap size = some (p, heap')) :
    operatorDeleteNothrow heap' p = operatorDelete heap' p := by
  obtain ⟨s, rfl, _, hheader, hmemory⟩ := operatorNew_grant h
  have hmagic : compareMemory heap'.memory (allocatedAddr (4096 * s)) magic 4 = true := by
    refine compareMemoryLoop_true fun j _ hj => ?_
    rw [hheader, hmemory]
    exact magic_write _ _ _ (by omega)
  rw [operatorDeleteNothrow, if_neg (not_not_intro hmagic)]

end HailOS.Early
