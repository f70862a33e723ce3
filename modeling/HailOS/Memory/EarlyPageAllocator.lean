import Mathlib.Data.Nat.Count
import HailOS.Lib.FirstFit
import HailOS.Memory.PhysicalMemoryBitmap

/-!
# The early page allocator

`EarlyPageAllocator` hands out and takes back whole pages, after
`Core/Memory/EarlyPageAllocator.cpp`. Addresses are natural numbers and 0 is `nullptr`.

`Grant` says what an allocation that returns a block does to the bitmap. The multi-page search
scans one byte more than the bitmap has, so a block may end past the last described page, and
`SetBitRange` then marks nothing. `Grant` keeps both cases.
-/

namespace HailOS.Early

open Lib Kernel

/-- The number of pages that hold `size` bytes, as computed by `AllocatePage` and `FreePage`. -/
def pageCountOf (size : Nat) : Nat :=
  if size % pageSize ≠ 0 then size / pageSize + 1 else size / pageSize

/-- The loop of `FindAvailableAddress`, with `count` bits left and the counter at `i`. -/
def findAvailableAddressLoop (bitmap : PageBitmap) (pageCount : Nat) :
    (count i run : Nat) → Nat
  | 0, _, _ => 0
  | count + 1, i, run =>
      if bit (bitmap (i / charBit)) (i % charBit) = unusedBit then
        if run + 1 = pageCount then
          let start := i - (pageCount - 1)
          bitmapIndexBitToPageAddress (start / charBit) (start % charBit)
        else findAvailableAddressLoop bitmap pageCount count (i + 1) (run + 1)
      else findAvailableAddressLoop bitmap pageCount count (i + 1) 0

/-- The number of bits `FindAvailableAddress` scans, one byte more than the bitmap has. -/
def scanTotal : Nat := (maxPhysPageBitmapIndex + 1) * charBit

/-- `FindAvailableAddress`. -/
def findAvailableAddress (bitmap : PageBitmap) (pageCount : Nat) : Nat :=
  if pageCount = 0 then 0
  else if scanTotal < pageCount then 0
  else findAvailableAddressLoop bitmap pageCount scanTotal 0 0

/-- The inner loop of `AllocatePage()`: the first unused bit of a byte. -/
def allocatePageBitLoop (byte : BitVec 8) : (count j : Nat) → Option Nat
  | 0, _ => none
  | count + 1, j =>
      if bit byte j = unusedBit then some j else allocatePageBitLoop byte count (j + 1)

/-- The outer loop of `AllocatePage()`: the first byte with an unused bit, and that bit. -/
def allocatePageLoop (bitmap : PageBitmap) : (count i : Nat) → Option (Nat × Nat)
  | 0, _ => none
  | count + 1, i =>
      match allocatePageBitLoop (bitmap i) charBit 0 with
      | some j => some (i, j)
      | none => allocatePageLoop bitmap count (i + 1)

/-- `EarlyPageAllocator::AllocatePage()`. -/
def allocatePage (bitmap : PageBitmap) : Nat × PageBitmap :=
  match allocatePageLoop bitmap maxPhysPageBitmapIndex 0 with
  | some (i, j) =>
      (bitmapIndexBitToPageAddress i j,
        Function.update bitmap i (setBit (bitmap i) j usedBit))
  | none => (0, bitmap)

/-- `EarlyPageAllocator::AllocatePage(std::size_t)`. -/
def allocatePageSize (bitmap : PageBitmap) (minSize : Nat) : Nat × PageBitmap :=
  let pageCount := pageCountOf minSize
  if pageCount = 1 then allocatePage bitmap
  else
    let allocated := findAvailableAddress bitmap pageCount
    if allocated = 0 then (0, bitmap)
    else
      (allocated,
        setBitRange bitmap maxPhysPageBitmapIndex (addressToPageBitmapArrayIndex allocated)
          (addressToPageBitmapBitOffset allocated) pageCount usedBit)

/-- `EarlyPageAllocator::FreePage(void*)`. -/
def freePage (bitmap : PageBitmap) (ptr : Nat) : PageBitmap :=
  let i := addressToPageBitmapArrayIndex ptr
  Function.update bitmap i (setBit (bitmap i) (addressToPageBitmapBitOffset ptr) unusedBit)

/-- `EarlyPageAllocator::FreePage(void*, std::size_t)`. -/
def freePageSize (bitmap : PageBitmap) (ptr allocatedSize : Nat) : PageBitmap :=
  setBitRange bitmap maxPhysPageBitmapIndex (addressToPageBitmapArrayIndex ptr)
    (addressToPageBitmapBitOffset ptr) (pageCountOf allocatedSize) unusedBit

/-- The inner loop of `GetAvailableSize`. -/
def availableBitLoop (byte : BitVec 8) : (count j total : Nat) → Nat
  | 0, _, total => total
  | count + 1, j, total =>
      availableBitLoop byte count (j + 1)
        (if bit byte j = unusedBit then total + pageSize else total)

/-- The outer loop of `GetAvailableSize`. -/
def availableLoop (bitmap : PageBitmap) : (count i total : Nat) → Nat
  | 0, _, total => total
  | count + 1, i, total =>
      availableLoop bitmap count (i + 1) (availableBitLoop (bitmap i) charBit 0 total)

/-- `EarlyPageAllocator::GetAvailableSize`. -/
def getAvailableSize (bitmap : PageBitmap) : Nat :=
  availableLoop bitmap maxPhysPageBitmapIndex 0 0

/-! ## What the searches find -/

/-- The page is marked unused. -/
def isUnused (bitmap : PageBitmap) (k : Nat) : Bool := bitAt bitmap k == unusedBit

theorem isUnused_iff {bitmap : PageBitmap} {k : Nat} :
    isUnused bitmap k = true ↔ bitAt bitmap k = unusedBit := by
  simp [isUnused]

theorem bit_ne_unused {flag : Bool} : flag ≠ unusedBit ↔ flag = usedBit := by
  cases flag <;> decide

theorem pageCountOf_eq (size : Nat) : pageCountOf size = (size + 4095) / 4096 := by
  have hpage : pageSize = 4096 := rfl
  rw [pageCountOf, hpage]
  split <;> omega

theorem scanTotal_eq : scanTotal = pageTotal + 8 := by decide

/-- The loop of `FindAvailableAddress` is the one-pass first-fit scan. -/
theorem findAvailableAddressLoop_eq (bitmap : PageBitmap) (pageCount count i run : Nat) :
    findAvailableAddressLoop bitmap pageCount count i run =
      ((scanRun (isUnused bitmap) pageCount count i run).map (4096 * ·)).getD 0 := by
  induction count generalizing i run with
  | zero => rfl
  | succ count ih =>
      rw [findAvailableAddressLoop, scanRun]
      have hiff : (bit (bitmap (i / charBit)) (i % charBit) = unusedBit) ↔
          isUnused bitmap i = true := isUnused_iff.symm
      simp only [hiff]
      split
      · split
        · have hpage : 8 * ((i - (pageCount - 1)) / 8) + (i - (pageCount - 1)) % 8 =
              i - (pageCount - 1) := Nat.div_add_mod _ _
          simp only [page_address_eq, charBit, hpage, Option.map_some, Option.getD_some]
        · exact ih _ _
      · exact ih _ _

/-- `FindAvailableAddress` returns the first run of unused pages of its scan, or null if there
is none. A run from page 0 on is also returned as null. -/
theorem findAvailableAddress_cases (bitmap : PageBitmap) {pageCount : Nat}
    (hcount : 0 < pageCount) :
    (∃ s, FirstRun (isUnused bitmap) pageCount scanTotal s ∧
        findAvailableAddress bitmap pageCount = 4096 * s) ∨
      ((∀ s, s + pageCount ≤ scanTotal → ¬ FreeRun (isUnused bitmap) pageCount s) ∧
        findAvailableAddress bitmap pageCount = 0) := by
  have hstate : ScanState (isUnused bitmap) pageCount 0 0 := ScanState.initial hcount
  rw [findAvailableAddress, if_neg (by omega)]
  by_cases hlarge : scanTotal < pageCount
  · rw [if_pos hlarge]
    exact .inr ⟨fun s hs => by omega, rfl⟩
  · rw [if_neg hlarge, findAvailableAddressLoop_eq]
    cases hscan : scanRun (isUnused bitmap) pageCount scanTotal 0 0 with
    | none => exact .inr ⟨fun s hs => scanRun_none hstate hscan (by omega), rfl⟩
    | some s => exact .inl ⟨s, by simpa using scanRun_some hstate hscan, rfl⟩

/-- The bit loop stops at the first unused bit. -/
theorem allocatePageBitLoop_some {byte : BitVec 8} {count j b : Nat}
    (h : allocatePageBitLoop byte count j = some b) :
    j ≤ b ∧ b < j + count ∧ bit byte b = unusedBit ∧
      ∀ c, j ≤ c → c < b → bit byte c ≠ unusedBit := by
  induction count generalizing j with
  | zero => simp [allocatePageBitLoop] at h
  | succ count ih =>
      rw [allocatePageBitLoop] at h
      split at h
      · next hj =>
          cases h
          exact ⟨Nat.le_refl _, by omega, hj, fun c hlow hhigh => by omega⟩
      · next hj =>
          obtain ⟨hlow, hhigh, hb, hbefore⟩ := ih h
          refine ⟨by omega, by omega, hb, fun c hc hcb => ?_⟩
          by_cases heq : c = j
          · rw [heq]
            exact hj
          · exact hbefore c (by omega) hcb

/-- A byte without an unused bit is passed over. -/
theorem allocatePageBitLoop_none {byte : BitVec 8} {count j : Nat}
    (h : allocatePageBitLoop byte count j = none) :
    ∀ c, j ≤ c → c < j + count → bit byte c ≠ unusedBit := by
  induction count generalizing j with
  | zero => exact fun c hlow hhigh => by omega
  | succ count ih =>
      rw [allocatePageBitLoop] at h
      split at h
      · cases h
      · next hj =>
          intro c hlow hhigh
          by_cases heq : c = j
          · rw [heq]
            exact hj
          · exact ih h c (by omega) (by omega)

/-- The page loop stops at the first unused page. -/
theorem allocatePageLoop_some {bitmap : PageBitmap} {count i index b : Nat}
    (h : allocatePageLoop bitmap count i = some (index, b)) :
    b < 8 ∧ 8 * i ≤ 8 * index + b ∧ index < i + count ∧
      bitAt bitmap (8 * index + b) = unusedBit ∧
      ∀ k, 8 * i ≤ k → k < 8 * index + b → bitAt bitmap k ≠ unusedBit := by
  induction count generalizing i with
  | zero => simp [allocatePageLoop] at h
  | succ count ih =>
      rw [allocatePageLoop] at h
      split at h
      · next j hj =>
          cases h
          obtain ⟨_, hb, hbit, hbefore⟩ := allocatePageBitLoop_some hj
          have hb : b < 8 := by simpa [charBit] using hb
          refine ⟨hb, by omega, by omega, by rw [bitAt_byte bitmap _ hb]; exact hbit, ?_⟩
          intro k hlow hhigh
          have hk : k = 8 * index + (k - 8 * index) := by omega
          rw [hk, bitAt_byte bitmap _ (by omega)]
          exact hbefore _ (Nat.zero_le _) (by omega)
      · next hj =>
          obtain ⟨hb, hlow, hhigh, hbit, hbefore⟩ := ih h
          refine ⟨hb, by omega, by omega, hbit, fun k hk hkb => ?_⟩
          by_cases hbyte : k < 8 * i + 8
          · have hk : k = 8 * i + (k - 8 * i) := by omega
            rw [hk, bitAt_byte bitmap _ (by omega)]
            exact allocatePageBitLoop_none hj _ (Nat.zero_le _) (by simp only [charBit]; omega)
          · exact hbefore k (by omega) hkb

/-- If the page loop finds nothing, every page it passed is used. -/
theorem allocatePageLoop_none {bitmap : PageBitmap} {count i : Nat}
    (h : allocatePageLoop bitmap count i = none) :
    ∀ k, 8 * i ≤ k → k < 8 * (i + count) → bitAt bitmap k ≠ unusedBit := by
  induction count generalizing i with
  | zero => exact fun k hlow hhigh => by omega
  | succ count ih =>
      rw [allocatePageLoop] at h
      split at h
      · cases h
      · next hj =>
          intro k hlow hhigh
          by_cases hbyte : k < 8 * i + 8
          · have hk : k = 8 * i + (k - 8 * i) := by omega
            rw [hk, bitAt_byte bitmap _ (by omega)]
            exact allocatePageBitLoop_none hj _ (Nat.zero_le _) (by simp only [charBit]; omega)
          · exact ih h k (by omega) (by omega)

/-! ## Allocation -/

/-- A granted block: the first run of `pageCount` unused pages, from page `s` on. If the run
ends inside the bitmap exactly its pages become used, and otherwise none does. -/
structure Grant (bitmap bitmap' : PageBitmap) (pageCount s : Nat) : Prop where
  count_pos : 0 < pageCount
  start_pos : 0 < s
  first : FirstRun (isUnused bitmap) pageCount scanTotal s
  marked : s + pageCount ≤ pageTotal → ∀ k,
    bitAt bitmap' k = if s ≤ k ∧ k < s + pageCount then usedBit else bitAt bitmap k
  overrun : pageTotal < s + pageCount → bitmap' = bitmap

/-- The pages of a granted block were unused. -/
theorem Grant.unused {bitmap bitmap' : PageBitmap} {pageCount s k : Nat}
    (h : Grant bitmap bitmap' pageCount s) (hlow : s ≤ k) (hhigh : k < s + pageCount) :
    bitAt bitmap k = unusedBit :=
  isUnused_iff.mp (h.first.run k hlow hhigh)

/-- An allocation turns no page unused. -/
theorem Grant.used_mono {bitmap bitmap' : PageBitmap} {pageCount s k : Nat}
    (h : Grant bitmap bitmap' pageCount s) (hk : bitAt bitmap k = usedBit) :
    bitAt bitmap' k = usedBit := by
  by_cases hfits : s + pageCount ≤ pageTotal
  · rw [h.marked hfits, hk, ite_self]
  · rw [h.overrun (by omega), hk]

/-- `AllocatePage()` finds the first unused page and marks it. A free page 0 is marked too, but
returned as null. -/
theorem allocatePage_cases (bitmap : PageBitmap) :
    (∃ k < pageTotal, FirstRun (isUnused bitmap) 1 scanTotal k ∧
        (allocatePage bitmap).1 = 4096 * k ∧
        ∀ j, bitAt (allocatePage bitmap).2 j = if j = k then usedBit else bitAt bitmap j) ∨
      ((∀ k < pageTotal, bitAt bitmap k = usedBit) ∧ allocatePage bitmap = (0, bitmap)) := by
  have htotal : pageTotal = 8 * maxPhysPageBitmapIndex := Nat.mul_comm _ _
  have hscan : scanTotal = pageTotal + 8 := scanTotal_eq
  unfold allocatePage
  split
  · next i j hloop =>
      obtain ⟨hb, _, hindex, hbit, hbefore⟩ := allocatePageLoop_some hloop
      refine .inl ⟨8 * i + j, by omega, ⟨by omega, ?_, ?_⟩, page_address_eq i j, ?_⟩
      · intro k hlow hhigh
        rw [isUnused_iff, show k = 8 * i + j by omega]
        exact hbit
      · intro s hs hrun
        exact hbefore s (by omega) hs (isUnused_iff.mp (hrun s (by omega) (by omega)))
      · exact bitAt_update bitmap usedBit hb
  · next hloop =>
      refine .inr ⟨fun k hk => ?_, rfl⟩
      have hused := allocatePageLoop_none hloop k (by omega) (by omega)
      simpa [unusedBit, usedBit] using hused

/-- A block returned by `AllocatePage()`. -/
theorem allocatePage_grant {bitmap : PageBitmap} (h : (allocatePage bitmap).1 ≠ 0) :
    ∃ s < pageTotal, (allocatePage bitmap).1 = 4096 * s ∧
      Grant bitmap (allocatePage bitmap).2 1 s := by
  rcases allocatePage_cases bitmap with ⟨k, hk, hfirst, haddress, hbits⟩ | ⟨_, heq⟩
  · refine ⟨k, hk, haddress, ⟨by omega, by omega, hfirst, fun _ j => ?_, by omega⟩⟩
    have hiff : k ≤ j ∧ j < k + 1 ↔ j = k := by omega
    rw [hbits j]
    simp only [hiff]
  · exact absurd (by rw [heq]) h

/-- With page 0 used, `AllocatePage()` returns null only if every page is used, and changes
nothing then. -/
theorem allocatePage_null {bitmap : PageBitmap} (hzero : bitAt bitmap 0 = usedBit)
    (h : (allocatePage bitmap).1 = 0) :
    (∀ k < pageTotal, bitAt bitmap k = usedBit) ∧ (allocatePage bitmap).2 = bitmap := by
  rcases allocatePage_cases bitmap with ⟨k, _, hfirst, haddress, _⟩ | ⟨hused, heq⟩
  · have hk : k = 0 := by omega
    have hfree := isUnused_iff.mp (hfirst.run k (by omega) (by omega))
    rw [hk, hzero] at hfree
    cases hfree
  · exact ⟨hused, by rw [heq]⟩

/-- A request for one page is `AllocatePage()`. -/
theorem allocatePageSize_one {bitmap : PageBitmap} {minSize : Nat}
    (hcount : pageCountOf minSize = 1) :
    allocatePageSize bitmap minSize = allocatePage bitmap := if_pos hcount

/-- A block returned by `AllocatePage(minSize)`. -/
theorem allocatePageSize_grant {bitmap : PageBitmap} {minSize : Nat}
    (h : (allocatePageSize bitmap minSize).1 ≠ 0) :
    ∃ s, (allocatePageSize bitmap minSize).1 = 4096 * s ∧
      Grant bitmap (allocatePageSize bitmap minSize).2 (pageCountOf minSize) s := by
  unfold allocatePageSize at h ⊢
  generalize pageCountOf minSize = pageCount at *
  by_cases hone : pageCount = 1
  · simp only [hone, if_true] at h ⊢
    obtain ⟨s, _, haddress, hgrant⟩ := allocatePage_grant h
    exact ⟨s, haddress, hgrant⟩
  · simp only [hone, if_false] at h ⊢
    by_cases hnull : findAvailableAddress bitmap pageCount = 0
    · simp [hnull] at h
    · simp only [hnull, if_false] at h ⊢
      have hcount : 0 < pageCount := by
        rcases Nat.eq_zero_or_pos pageCount with hzero | hpos
        · simp [findAvailableAddress, hzero] at hnull
        · exact hpos
      rcases findAvailableAddress_cases bitmap hcount with ⟨s, hfirst, haddress⟩ | ⟨_, heq⟩
      · rw [haddress] at hnull ⊢
        have hpage : addressToPageBitmapArrayIndex (4096 * s) * 8 +
            addressToPageBitmapBitOffset (4096 * s) = s := by
          rw [page_index_offset]
          omega
        have hmax := bitmap_bits_lt
        have htotal : pageTotal = maxPhysPageBitmapIndex * 8 := rfl
        have hbound : scanTotal < 2 ^ 64 := by decide
        have hfits := hfirst.fits
        refine ⟨s, rfl, hcount, by omega, hfirst, fun hin k => ?_, fun hout => ?_⟩
        · rw [bitAt_setBitRange bitmap usedBit hmax (by omega), hpage]
        · exact setBitRange_outside bitmap usedBit hmax (by omega) (by omega)
      · exact absurd heq hnull

/-- A request for several pages returns the first run that the scan finds. -/
theorem allocatePageSize_address {bitmap : PageBitmap} {minSize s : Nat}
    (hcount : 1 < pageCountOf minSize)
    (hfirst : FirstRun (isUnused bitmap) (pageCountOf minSize) scanTotal s) (hs : 0 < s) :
    (allocatePageSize bitmap minSize).1 = 4096 * s := by
  unfold allocatePageSize
  generalize pageCountOf minSize = pageCount at *
  have haddress : findAvailableAddress bitmap pageCount = 4096 * s := by
    rcases findAvailableAddress_cases bitmap (Nat.zero_lt_of_lt hcount) with
      ⟨t, ht, haddress⟩ | ⟨hnone, _⟩
    · rw [haddress, hfirst.unique ht]
    · exact absurd hfirst.run (hnone s hfirst.fits)
  have hone : pageCount ≠ 1 := by omega
  have hnull : 4096 * s ≠ 0 := by omega
  simp only [haddress, hone, hnull, if_false]

/-- With page 0 used, `AllocatePage(minSize)` changes nothing if it returns null. -/
theorem allocatePageSize_null {bitmap : PageBitmap} {minSize : Nat}
    (hzero : bitAt bitmap 0 = usedBit) (h : (allocatePageSize bitmap minSize).1 = 0) :
    (allocatePageSize bitmap minSize).2 = bitmap := by
  unfold allocatePageSize at h ⊢
  generalize pageCountOf minSize = pageCount at *
  by_cases hone : pageCount = 1
  · simp only [hone, if_true] at h ⊢
    exact (allocatePage_null hzero h).2
  · simp only [hone, if_false] at h ⊢
    by_cases hnull : findAvailableAddress bitmap pageCount = 0
    · simp [hnull]
    · simp [hnull] at h

/-- `AllocatePage()` turns no page unused. -/
theorem allocatePage_used_mono {bitmap : PageBitmap} {k : Nat} (hk : bitAt bitmap k = usedBit) :
    bitAt (allocatePage bitmap).2 k = usedBit := by
  rcases allocatePage_cases bitmap with ⟨page, _, _, _, hbits⟩ | ⟨_, heq⟩
  · rw [hbits k, hk, ite_self]
  · rw [heq]
    exact hk

/-- `AllocatePage(minSize)` turns no page unused. -/
theorem allocatePageSize_used_mono {bitmap : PageBitmap} {minSize k : Nat}
    (hk : bitAt bitmap k = usedBit) :
    bitAt (allocatePageSize bitmap minSize).2 k = usedBit := by
  by_cases hresult : (allocatePageSize bitmap minSize).1 = 0
  · unfold allocatePageSize at hresult ⊢
    generalize pageCountOf minSize = pageCount at *
    by_cases hone : pageCount = 1
    · simp only [hone, if_true]
      exact allocatePage_used_mono hk
    · by_cases hnull : findAvailableAddress bitmap pageCount = 0
      · simpa [hone, hnull] using hk
      · simp [hone, hnull] at hresult
  · obtain ⟨s, _, hgrant⟩ := allocatePageSize_grant hresult
    exact hgrant.used_mono hk

/-! ## Freeing -/

/-- `FreePage(ptr)` clears the bit of the page of `ptr`. -/
theorem bitAt_freePage (bitmap : PageBitmap) (ptr k : Nat) :
    bitAt (freePage bitmap ptr) k =
      if k = ptr / 4096 then unusedBit else bitAt bitmap k := by
  rw [freePage, bitAt_update bitmap unusedBit (page_offset_lt ptr), ← page_index_offset ptr,
    Nat.mul_comm 8]

/-- `FreePage(ptr, size)` clears the bits of the pages of the block, if it lies inside the
bitmap. -/
theorem bitAt_freePageSize (bitmap : PageBitmap) {ptr size : Nat}
    (h : ptr / 4096 + pageCountOf size ≤ pageTotal) (k : Nat) :
    bitAt (freePageSize bitmap ptr size) k =
      if ptr / 4096 ≤ k ∧ k < ptr / 4096 + pageCountOf size then unusedBit
      else bitAt bitmap k := by
  have hpage := page_index_offset ptr
  have htotal : pageTotal = maxPhysPageBitmapIndex * 8 := rfl
  rw [freePageSize, bitAt_setBitRange bitmap unusedBit (by decide) (by omega), hpage]

/-- `FreePage(ptr, size)` does nothing if the block does not lie inside the bitmap. -/
theorem freePageSize_outside (bitmap : PageBitmap) {ptr size : Nat}
    (h : pageTotal < ptr / 4096 + pageCountOf size)
    (hbound : ptr / 4096 + pageCountOf size < 2 ^ 64) :
    freePageSize bitmap ptr size = bitmap := by
  have hpage := page_index_offset ptr
  have htotal : pageTotal = maxPhysPageBitmapIndex * 8 := rfl
  exact setBitRange_outside bitmap unusedBit (by decide) (by omega) (by omega)

/-! ## Available memory -/

/-- The inner loop of `GetAvailableSize` counts the unused bits of byte `i` from bit `j` on. -/
theorem availableBitLoop_eq (bitmap : PageBitmap) (i : Nat) {count j : Nat} (total : Nat)
    (h : j + count ≤ 8) :
    availableBitLoop (bitmap i) count j total =
      total + 4096 * Nat.count (fun k => isUnused bitmap (8 * i + j + k) = true) count := by
  induction count generalizing j total with
  | zero => simp [availableBitLoop]
  | succ count ih =>
      have hbit : (bit (bitmap i) j = unusedBit) ↔ isUnused bitmap (8 * i + j) = true := by
        rw [isUnused_iff, bitAt_byte bitmap i (by omega)]
      have hshift : ∀ k, 8 * i + j + (k + 1) = 8 * i + (j + 1) + k := fun k => by omega
      rw [availableBitLoop, ih _ (by omega), Nat.count_succ']
      simp only [hbit, hshift, Nat.add_zero]
      split
      · rw [show pageSize = 4096 from rfl]
        omega
      · omega

/-- The outer loop of `GetAvailableSize` counts the unused pages from byte `i` on. -/
theorem availableLoop_eq (bitmap : PageBitmap) (count i total : Nat) :
    availableLoop bitmap count i total =
      total + 4096 * Nat.count (fun k => isUnused bitmap (8 * i + k) = true) (8 * count) := by
  induction count generalizing i total with
  | zero => simp [availableLoop]
  | succ count ih =>
      have hshift : ∀ k, 8 * (i + 1) + k = 8 * i + (8 + k) := fun k => by omega
      rw [availableLoop, ih, availableBitLoop_eq bitmap i total (Nat.le_refl 8),
        show 8 * (count + 1) = 8 + 8 * count by omega, Nat.count_add]
      simp only [hshift, Nat.add_zero, charBit]
      omega

/-- `GetAvailableSize` is 4096 times the number of unused pages. -/
theorem getAvailableSize_eq (bitmap : PageBitmap) :
    getAvailableSize bitmap =
      4096 * ((Finset.range pageTotal).filter fun k => bitAt bitmap k = unusedBit).card := by
  have htotal : pageTotal = 8 * maxPhysPageBitmapIndex := Nat.mul_comm _ _
  rw [getAvailableSize, availableLoop_eq, htotal, ← Nat.count_eq_card_filter_range]
  simp only [isUnused_iff, Nat.mul_zero, Nat.zero_add]

/-- Pages 1 to 7 are unused and every other page is used. -/
def sevenPages : PageBitmap := fun i => if i = 0 then 0x01 else 0xFF

end HailOS.Early
