import HailOS.Lib.Word
import HailOS.Memory.Bit
import HailOS.Memory.MemoryUtility

/-!
# The physical page bitmap

`ParseMemoryInfo` marks the pages of the boot loader's free regions in
`PhysicalMemoryPageBitmap`, after `Core/Memory/PhysicalMemoryBitmap.cpp` and
`Include/Core/Memory/MemoryInfo.hpp`. A set bit is a used page. The bitmap is the memory that
starts at the array, so a byte index at or past `maxPhysPageBitmapIndex` is whatever the
linker placed behind it.

`align_least_multiple` is the contract of `Align`, for every alignment and through either branch.
`parse_memory_info_sound` is the safety of the parser: a page comes out free only if it lies
inside a region that was reported free.
-/

namespace HailOS.Kernel

open Lib Logged

/-- `PAGE_SIZE`. -/
def pageSize : Nat := 4096

/-- `MAX_MEMORY_SIZE_BYTES`, 64 GiB. -/
def maxMemorySizeBytes : Nat := 68719476736

/-- `MAX_PHYS_PAGE_BITMAP_INDEX`, the number of bytes of the bitmap. -/
def maxPhysPageBitmapIndex : Nat := maxMemorySizeBytes / pageSize / charBit

/-- `UNUSED_BIT`. -/
def unusedBit : Bool := false

/-- `USED_BIT`. -/
def usedBit : Bool := !unusedBit

/-- `ADDRESS_TO_PAGE_BITMAP_ARRAY_INDEX`. -/
def addressToPageBitmapArrayIndex (address : Nat) : Nat := address / pageSize / charBit

/-- `ADDRESS_TO_PAGE_BITMAP_BIT_OFFSET`. -/
def addressToPageBitmapBitOffset (address : Nat) : Nat := address / pageSize % charBit

/-- `BITMAP_INDEX_BIT_TO_PAGE_ADDRESS`. -/
def bitmapIndexBitToPageAddress (index bit : Nat) : Nat :=
  index * charBit * pageSize + bit * pageSize

/-- `PhysicalMemoryPageBitmap` and the memory behind it. -/
abbrev PageBitmap := Nat → BitVec 8

/-- The number of pages the bitmap describes. -/
def pageTotal : Nat := maxPhysPageBitmapIndex * charBit

/-- The pages of the bitmap cover 64 GiB. -/
theorem maxMemorySizeBytes_eq : maxMemorySizeBytes = 4096 * pageTotal := by decide

/-- `struct MemoryRegion`. -/
structure MemoryRegion where
  base : BitVec 64
  length : BitVec 64

/-- `struct MemoryInfo`. The arrays have `MAX_REGIONS` elements, an index past them reads what
follows in memory. -/
structure MemoryInfo where
  freeMemory : Nat → MemoryRegion
  freeRegionCount : BitVec 64
  reservedMemory : Nat → MemoryRegion
  reservedRegionCount : BitVec 64

/-- The address just past a region, over unbounded integers. -/
def MemoryRegion.stop (region : MemoryRegion) : Nat :=
  region.base.toNat + region.length.toNat

/-- The address is a byte of the region. -/
def MemoryRegion.Contains (region : MemoryRegion) (address : Nat) : Prop :=
  region.base.toNat ≤ address ∧ address < region.stop

/-- `Align`: round `addr` up to a multiple of `align`. -/
def align (addr align : BitVec 64) : BitVec 64 :=
  if align ≤ 1#64 then addr
  else if align &&& (align - 1#64) = 0#64 then
    (addr + (align - 1#64)) &&& ~~~(align - 1#64)
  else
    let r := addr % align
    if r ≠ 0#64 then addr + (align - r) else addr

/-- The first test of the loop body, which keeps page 0 out. A region that starts below the
first page and reaches it is moved up to it. The source computes the new length from the
already updated base, so it is zero. `none` continues with the next region. -/
def avoidNullPage (r : MemoryRegion) : Option MemoryRegion :=
  if r.base < 4096#64 then
    if r.base + r.length < 4096#64 then none
    else
      let r := { r with base := 4096#64 }
      some { r with length := r.base - 4096#64 }
  else some r

/-- The tests of the loop body for one region: `mark` is applied to the aligned base and the size
if there may be a page, and otherwise the result is `skip`. -/
def withPages {α : Type} (mark : Nat → Nat → α) (skip : α) (region : MemoryRegion) : α :=
  match avoidNullPage region with
  | none => skip
  | some r =>
      if r.length < 4096#64 then skip
      else
        let alignedBase := align r.base 4096#64
        let size := r.base + r.length - alignedBase
        if size < 4096#64 then skip else mark alignedBase.toNat size.toNat

/-- The end of the loop body: mark the whole pages of `size` bytes from the aligned base as
unused. A single page is written directly, more through `SetBitRange`. -/
def markUnusedLogged (bitmap : PageBitmap) (alignedBase size : Nat) : Logged Nat PageBitmap :=
  let index := addressToPageBitmapArrayIndex alignedBase
  let b := addressToPageBitmapBitOffset alignedBase
  let pageCount := size / pageSize
  if pageCount = 0 then pure bitmap
  else if pageCount = 1 then setBitLogged bitmap index b unusedBit
  else setBitRangeLogged bitmap maxPhysPageBitmapIndex index b pageCount unusedBit

/-- The loop body of `ParseMemoryInfo` for one free region. -/
def parseRegionLogged (bitmap : PageBitmap) (region : MemoryRegion) : Logged Nat PageBitmap :=
  withPages (markUnusedLogged bitmap) (pure bitmap) region

/-- The loop of `ParseMemoryInfo`, with `count` regions left and the counter at `i`. -/
def parseLoopLogged (info : MemoryInfo) : (count i : Nat) → PageBitmap → Logged Nat PageBitmap
  | 0, _, bitmap => pure bitmap
  | count + 1, i, bitmap => do
      let bitmap ← parseRegionLogged bitmap (info.freeMemory i)
      parseLoopLogged info count (i + 1) bitmap

/-- The static variable of `ParseMemoryInfo` together with the bitmap. -/
structure ParseState where
  called : Bool := false
  bitmap : PageBitmap

/-- `ParseMemoryInfo`. Its static `called` is tested but no statement sets it. -/
def parseMemoryInfoLogged (state : ParseState) (info : MemoryInfo) : Logged Nat ParseState :=
  if state.called then pure state
  else do
    let bitmap ← fillMemoryLogged state.bitmap 0 maxPhysPageBitmapIndex 0xFF#8
    let bitmap ← parseLoopLogged info info.freeRegionCount.toNat 0 bitmap
    pure { state with bitmap := bitmap }

/-- The bitmap after one region. -/
def parseRegion (bitmap : PageBitmap) (region : MemoryRegion) : PageBitmap :=
  (parseRegionLogged bitmap region).value

/-- The state after `ParseMemoryInfo`. -/
def parseMemoryInfo (state : ParseState) (info : MemoryInfo) : ParseState :=
  (parseMemoryInfoLogged state info).value

/-! ## Page numbers and addresses -/

/-- The byte index and bit offset of an address together are its page number. -/
theorem page_index_offset (address : Nat) :
    addressToPageBitmapArrayIndex address * 8 + addressToPageBitmapBitOffset address =
      address / 4096 := by
  simp only [addressToPageBitmapArrayIndex, addressToPageBitmapBitOffset, pageSize, charBit]
  omega

theorem page_offset_lt (address : Nat) : addressToPageBitmapBitOffset address < 8 :=
  Nat.mod_lt _ (by decide)

/-- The address built from a byte index and a bit offset. -/
theorem page_address_eq (index b : Nat) :
    bitmapIndexBitToPageAddress index b = 4096 * (8 * index + b) := by
  simp only [bitmapIndexBitToPageAddress, pageSize, charBit]
  omega

theorem pageTotal_eq : pageTotal = 2 ^ 24 := by decide

/-- The bits of the bitmap can be counted in 64 bits. -/
theorem bitmap_bits_lt : maxPhysPageBitmapIndex * 8 < 2 ^ 64 := by decide

/-- The pages of a byte with all bits set are used. -/
theorem bitAt_full {bitmap : PageBitmap} {k : Nat} (h : bitmap (k / 8) = 0xFF) :
    bitAt bitmap k = usedBit := by
  have hfull : ∀ b < 8, bit 0xFF b = usedBit := by decide
  show bit (bitmap (k / 8)) (k % 8) = usedBit
  rw [h]
  exact hfull (k % 8) (Nat.mod_lt k (by norm_num))

/-! ## Rounding up -/

/-- The branch of `Align` for a power of two. -/
def alignMask (addr a : BitVec 64) : BitVec 64 := (addr + (a - 1#64)) &&& ~~~(a - 1#64)

/-- The branch of `Align` for any other alignment. -/
def alignRemainder (addr a : BitVec 64) : BitVec 64 :=
  let r := addr % a
  if r ≠ 0#64 then addr + (a - r) else addr

theorem align_eq (addr a : BitVec 64) :
    align addr a =
      if a ≤ 1#64 then addr
      else if a &&& (a - 1#64) = 0#64 then alignMask addr a else alignRemainder addr a := rfl

section

variable {addr a : BitVec 64} {m : Nat}

/-- The mask branch gives the least multiple of a power of two, if it is a word. The sum with the
mask does not wrap around then. -/
theorem toNat_alignMask (ha : 1 ≤ a.toNat) (hpow : a &&& (a - 1#64) = 0#64)
    (hleast : IsLeast {m | a.toNat ∣ m ∧ addr.toNat ≤ m} m) (hbound : m < 2 ^ 64) :
    (alignMask addr a).toNat = m := by
  obtain ⟨k, hk, rfl⟩ := exists_eq_two_pow (by omega) hpow
  have hvalue : (BitVec.ofNat 64 (2 ^ k)).toNat = 2 ^ k := by
    rw [BitVec.toNat_ofNat, Nat.mod_eq_of_lt (Nat.pow_lt_pow_right (by omega) hk)]
  rw [hvalue] at hleast ha
  have hm : m = (addr.toNat + (2 ^ k - 1)) / 2 ^ k * 2 ^ k :=
    hleast.unique (isLeast_round_up ha addr.toNat)
  rw [hm] at hbound
  rw [alignMask, toNat_align_up addr hk,
    Nat.mod_eq_of_lt (add_lt_of_round_up_lt (Nat.le_of_lt hk) hbound), hm]

/-- The remainder branch gives the least multiple, if it is a word. -/
theorem toNat_alignRemainder (ha : 1 ≤ a.toNat)
    (hleast : IsLeast {m | a.toNat ∣ m ∧ addr.toNat ≤ m} m) (hbound : m < 2 ^ 64) :
    (alignRemainder addr a).toNat = m := by
  have hm := hleast.unique (isLeast_add_remainder ha addr.toNat)
  have hmod := Nat.mod_lt addr.toNat ha
  have hrem : (addr % a).toNat = addr.toNat % a.toNat := BitVec.toNat_umod
  have hiff : addr % a ≠ 0#64 ↔ addr.toNat % a.toNat ≠ 0 := by
    rw [ne_eq, BitVec.toNat_inj.symm, hrem]
    rfl
  have hsub : (a - addr % a).toNat = a.toNat - addr.toNat % a.toNat := by
    rw [BitVec.toNat_sub_of_le (show (addr % a).toNat ≤ a.toNat by omega), hrem]
  simp only [alignRemainder, hiff]
  by_cases hzero : addr.toNat % a.toNat = 0
  · rw [if_neg (not_not_intro hzero)] at hm ⊢
    exact hm.symm
  · rw [if_pos hzero] at hm ⊢
    rw [BitVec.toNat_add, hsub, ← hm, Nat.mod_eq_of_lt hbound]

/-- `Align` returns the least multiple of `a` not below `addr` whenever that is below `2 ^ 64`,
and both of its branches compute it: the mask for every power of two, and the remainder for every
alignment. -/
theorem align_least_multiple (ha : 1 ≤ a.toNat)
    (hleast : IsLeast {m | a.toNat ∣ m ∧ addr.toNat ≤ m} m) (hbound : m < 2 ^ 64) :
    (align addr a).toNat = m ∧
      (a &&& (a - 1#64) = 0#64 → (alignMask addr a).toNat = m) ∧
      (alignRemainder addr a).toNat = m := by
  refine ⟨?_, fun hpow => toNat_alignMask ha hpow hleast hbound,
    toNat_alignRemainder ha hleast hbound⟩
  rw [align_eq]
  by_cases hone : a ≤ 1#64
  · have ha : a.toNat = 1 := Nat.le_antisymm hone ha
    rw [ha] at hleast
    rw [if_pos hone]
    exact Nat.le_antisymm hleast.1.2 (hleast.2 ⟨Nat.one_dvd _, Nat.le_refl _⟩)
  · rw [if_neg hone]
    split
    · next hpow => exact toNat_alignMask ha hpow hleast hbound
    · exact toNat_alignRemainder ha hleast hbound

/-- The last page of the address space is its own round-up, by either branch. -/
theorem align_least_multiple_last_page :
    (align (0xFFFFFFFFFFFFF000#64) 4096#64).toNat = 0xFFFFFFFFFFFFF000 ∧
      (alignMask (0xFFFFFFFFFFFFF000#64) 4096#64).toNat = 0xFFFFFFFFFFFFF000 ∧
      (alignRemainder (0xFFFFFFFFFFFFF000#64) 4096#64).toNat = 0xFFFFFFFFFFFFF000 := by
  have hleast : IsLeast
      {m | (4096#64).toNat ∣ m ∧ (0xFFFFFFFFFFFFF000#64).toNat ≤ m} 0xFFFFFFFFFFFFF000 :=
    ⟨⟨⟨0xFFFFFFFFFFFFF, rfl⟩, Nat.le_refl _⟩, fun m hm => hm.2⟩
  obtain ⟨halign, hmask, hremainder⟩ := align_least_multiple (by decide) hleast (by omega)
  exact ⟨halign, hmask rfl, hremainder⟩

end

/-! ## The pages a region frees -/

/-- Page `k` lies inside the region. -/
def MemoryRegion.HoldsPage (region : MemoryRegion) (k : Nat) : Prop :=
  region.base.toNat ≤ 4096 * k ∧ 4096 * k + 4096 ≤ region.stop

/-- The first page at or above the base of the region. A base in the last page of the address
space wraps around to page 0. -/
def MemoryRegion.firstPage (region : MemoryRegion) : Nat :=
  (region.base.toNat + 4095) % 2 ^ 64 / 4096

/-- The bytes from the first page to the end of the region, modulo `2 ^ 64`. -/
def MemoryRegion.pagedSize (region : MemoryRegion) : Nat :=
  (region.stop + (2 ^ 64 - 4096 * region.firstPage)) % 2 ^ 64

/-- The number of pages the parser counts in the region. -/
def MemoryRegion.pageCount (region : MemoryRegion) : Nat := region.pagedSize / 4096

/-- The parser frees page `k` on account of the region. The region has to start above page 0, and
its pages have to fit in the bitmap, unless there is only one. -/
structure MemoryRegion.Frees (region : MemoryRegion) (k : Nat) : Prop where
  above : 4096 ≤ region.base.toNat
  long : 4096 ≤ region.length.toNat
  low : region.firstPage ≤ k
  high : k < region.firstPage + region.pageCount
  inside : region.pageCount = 1 ∨ region.firstPage + region.pageCount ≤ pageTotal

/-- Rounding up to a page. -/
theorem toNat_align_page (region : MemoryRegion) :
    (align region.base 4096#64).toNat = 4096 * region.firstPage := by
  have hpow : align region.base 4096#64 =
      (region.base + (4096#64 - 1#64)) &&& ~~~(4096#64 - 1#64) := by
    simp [align]
  rw [hpow, Nat.mul_comm]
  exact toNat_align_up (k := 12) region.base (by decide)

/-- The size of a region above its aligned base. -/
theorem toNat_aligned_size (region : MemoryRegion) :
    (region.base + region.length - align region.base 4096#64).toNat = region.pagedSize := by
  rw [BitVec.toNat_sub, BitVec.toNat_add, toNat_align_page, MemoryRegion.pagedSize,
    MemoryRegion.stop, Nat.add_comm, Nat.mod_add_mod]

theorem MemoryRegion.alignedBase_lt (region : MemoryRegion) :
    4096 * region.firstPage < 2 ^ 64 := by
  rw [← toNat_align_page]
  exact BitVec.isLt _

theorem MemoryRegion.pagedSize_lt (region : MemoryRegion) : region.pagedSize < 2 ^ 64 :=
  Nat.mod_lt _ (by omega)

/-- A region that starts in page 0 is left with no bytes, if it is not dropped. -/
theorem avoidNullPage_low {region r : MemoryRegion} (hbase : region.base.toNat < 4096)
    (h : avoidNullPage region = some r) : r.length < 4096#64 := by
  have hlow : region.base < 4096#64 := hbase
  rw [avoidNullPage, if_pos hlow] at h
  split at h
  · cases h
  · cases h
    show 4096#64 - 4096#64 < 4096#64
    decide

/-- What passes the tests are the regions that start above page 0 and are long enough. -/
theorem withPages_eq {α : Type} {mark : Nat → Nat → α} {skip : α}
    (hnone : ∀ alignedBase size, size < 4096 → mark alignedBase size = skip)
    (region : MemoryRegion) :
    withPages mark skip region =
      if 4096 ≤ region.base.toNat ∧ 4096 ≤ region.length.toNat then
        mark (4096 * region.firstPage) region.pagedSize
      else skip := by
  by_cases hbase : 4096 ≤ region.base.toNat
  · have hhigh : ¬ region.base < 4096#64 := Nat.not_lt.2 hbase
    rw [withPages, avoidNullPage, if_neg hhigh]
    by_cases hlength : 4096 ≤ region.length.toNat
    · have hlong : ¬ region.length < 4096#64 := Nat.not_lt.2 hlength
      rw [if_pos ⟨hbase, hlength⟩]
      simp only [if_neg hlong, toNat_align_page, toNat_aligned_size]
      split
      · next hsize =>
          rw [BitVec.lt_def, toNat_aligned_size] at hsize
          exact (hnone _ _ hsize).symm
      · rfl
    · have hshort : region.length < 4096#64 := Nat.lt_of_not_le hlength
      rw [if_neg fun h => hlength h.2]
      exact if_pos hshort
  · rw [if_neg fun h => hbase h.1, withPages]
    split
    · rfl
    · next r hr => rw [if_pos (avoidNullPage_low (Nat.lt_of_not_le hbase) hr)]

/-- The loop body marks the pages of a region that starts above page 0 and is long enough. -/
theorem parseRegionLogged_eq (bitmap : PageBitmap) (region : MemoryRegion) :
    parseRegionLogged bitmap region =
      if 4096 ≤ region.base.toNat ∧ 4096 ≤ region.length.toNat then
        markUnusedLogged bitmap (4096 * region.firstPage) region.pagedSize
      else pure bitmap := by
  refine withPages_eq (fun alignedBase size hsize => ?_) region
  have hcount : size / pageSize = 0 := Nat.div_eq_of_lt hsize
  simp only [markUnusedLogged, hcount, if_true]

/-- The pages that are free after marking. -/
theorem markUnused_free_iff (bitmap : PageBitmap) {alignedBase size k : Nat}
    (hbase : alignedBase < 2 ^ 64) (hsize : size < 2 ^ 64) :
    bitAt (markUnusedLogged bitmap alignedBase size).value k = unusedBit ↔
      bitAt bitmap k = unusedBit ∨
        (alignedBase / 4096 ≤ k ∧ k < alignedBase / 4096 + size / 4096 ∧
          (size / 4096 = 1 ∨ alignedBase / 4096 + size / 4096 ≤ pageTotal)) := by
  have hpage := page_index_offset alignedBase
  have hoffset := page_offset_lt alignedBase
  have hmax := bitmap_bits_lt
  have htotal : pageTotal = maxPhysPageBitmapIndex * 8 := rfl
  have hcount : size / pageSize = size / 4096 := rfl
  simp only [markUnusedLogged, hcount]
  generalize addressToPageBitmapArrayIndex alignedBase = index at *
  generalize addressToPageBitmapBitOffset alignedBase = b at *
  by_cases hzero : size / 4096 = 0
  · rw [if_pos hzero]
    exact ⟨.inl, fun h => h.resolve_right (by omega)⟩
  · rw [if_neg hzero]
    by_cases hone : size / 4096 = 1
    · -- one page: its bit is written directly, even if it lies past the array
      rw [if_pos hone, setBitLogged, value_access, bitAt_update bitmap unusedBit hoffset]
      by_cases hk : k = 8 * index + b
      · rw [if_pos hk]
        exact iff_of_true rfl (.inr (by omega))
      · rw [if_neg hk]
        exact ⟨.inl, fun h => h.resolve_right (by omega)⟩
    · rw [if_neg hone, ← setBitRange]
      by_cases hfits : index * 8 + b + size / 4096 ≤ maxPhysPageBitmapIndex * 8
      · rw [bitAt_setBitRange bitmap unusedBit hmax hfits]
        by_cases hk : index * 8 + b ≤ k ∧ k < index * 8 + b + size / 4096
        · rw [if_pos hk]
          exact iff_of_true rfl (.inr (by omega))
        · rw [if_neg hk]
          exact ⟨.inl, fun h => h.resolve_right (by omega)⟩
      · rw [setBitRange_outside bitmap unusedBit hmax (by omega) (by omega)]
        exact ⟨.inl, fun h => h.resolve_right (by omega)⟩

/-- The pages that are free after one region. -/
theorem parseRegion_free_iff (bitmap : PageBitmap) (region : MemoryRegion) (k : Nat) :
    bitAt (parseRegion bitmap region) k = unusedBit ↔
      bitAt bitmap k = unusedBit ∨ region.Frees k := by
  have hfirst : 4096 * region.firstPage / 4096 = region.firstPage := by omega
  have hcount : region.pagedSize / 4096 = region.pageCount := rfl
  rw [parseRegion, parseRegionLogged_eq]
  by_cases h : 4096 ≤ region.base.toNat ∧ 4096 ≤ region.length.toNat
  · rw [if_pos h, markUnused_free_iff bitmap region.alignedBase_lt region.pagedSize_lt, hfirst,
      hcount]
    refine or_congr_right ⟨fun hpage => ?_, fun hfrees => ?_⟩
    · exact ⟨h.1, h.2, hpage.1, hpage.2.1, hpage.2.2⟩
    · exact ⟨hfrees.low, hfrees.high, hfrees.inside⟩
  · rw [if_neg h]
    exact ⟨.inl, fun hfree => hfree.resolve_right fun hfrees => h ⟨hfrees.above, hfrees.long⟩⟩

/-- The pages that are free after the loop: each region adds those it frees. -/
theorem parseLoop_free_iff (info : MemoryInfo) (count i : Nat) (bitmap : PageBitmap) (k : Nat) :
    bitAt (parseLoopLogged info count i bitmap).value k = unusedBit ↔
      bitAt bitmap k = unusedBit ∨
        ∃ j, i ≤ j ∧ j < i + count ∧ (info.freeMemory j).Frees k := by
  induction count generalizing i bitmap with
  | zero => exact ⟨.inl, fun h => h.resolve_right fun ⟨j, hlow, hhigh, _⟩ => by omega⟩
  | succ count ih =>
      rw [parseLoopLogged, value_bind, ih, ← parseRegion, parseRegion_free_iff, or_assoc]
      refine or_congr_right ⟨?_, ?_⟩
      · rintro (hfirst | ⟨j, hlow, hhigh, hfrees⟩)
        · exact ⟨i, by omega, by omega, hfirst⟩
        · exact ⟨j, by omega, by omega, hfrees⟩
      · rintro ⟨j, hlow, hhigh, hfrees⟩
        by_cases hj : j = i
        · exact .inl (hj ▸ hfrees)
        · exact .inr ⟨j, by omega, by omega, hfrees⟩

/-- Without wrapping around, the pages freed are the pages of a region that starts above page 0
and whose last page lies inside the bitmap. -/
theorem MemoryRegion.frees_iff {region : MemoryRegion} (hwrap : region.stop ≤ 2 ^ 64) {k : Nat}
    (hk : k < pageTotal) :
    region.Frees k ↔
      4096 ≤ region.base.toNat ∧ region.stop < maxMemorySizeBytes + 4096 ∧
        region.HoldsPage k := by
  have hmax := maxMemorySizeBytes_eq
  have htotal := pageTotal_eq
  unfold MemoryRegion.stop at hwrap
  constructor
  · intro h
    obtain ⟨habove, hlong, hlow, hhigh, hinside⟩ := h
    unfold MemoryRegion.pageCount MemoryRegion.pagedSize MemoryRegion.firstPage
      MemoryRegion.stop at *
    unfold MemoryRegion.HoldsPage MemoryRegion.stop
    omega
  · rintro ⟨habove, hstop, hpage⟩
    unfold MemoryRegion.HoldsPage MemoryRegion.stop at *
    refine ⟨habove, by omega, ?_, ?_, ?_⟩
    · unfold MemoryRegion.firstPage
      omega
    · unfold MemoryRegion.pageCount MemoryRegion.pagedSize MemoryRegion.firstPage
        MemoryRegion.stop
      omega
    · unfold MemoryRegion.pageCount MemoryRegion.pagedSize MemoryRegion.firstPage
        MemoryRegion.stop
      omega

/-! ## Soundness of the parser -/

/-- `FillMemory` with `0xFF` marks every page of the bitmap used. -/
theorem bitAt_fill_used (bitmap : PageBitmap) {k : Nat} (hk : k < pageTotal) :
    bitAt (fillMemory bitmap 0 maxPhysPageBitmapIndex 0xFF#8) k = usedBit := by
  have hindex : k / charBit < maxPhysPageBitmapIndex :=
    Nat.div_lt_of_lt_mul (by rw [Nat.mul_comm]; exact hk)
  have hb : k % charBit < 8 := Nat.mod_lt _ (by decide)
  rw [bitAt, fillMemory_apply, if_pos ⟨Nat.zero_le _, by omega⟩, bit_eq_getLsbD]
  generalize k % charBit = b at hb
  revert b
  decide

/-- `FillMemory` leaves the memory behind the bitmap alone. -/
theorem bitAt_fill_past (bitmap : PageBitmap) {k : Nat} (hk : pageTotal ≤ k) :
    bitAt (fillMemory bitmap 0 maxPhysPageBitmapIndex 0xFF#8) k = bitAt bitmap k := by
  have hindex : maxPhysPageBitmapIndex ≤ k / charBit :=
    (Nat.le_div_iff_mul_le (show 0 < charBit by decide)).2 hk
  rw [bitAt, fillMemory_apply, if_neg (by omega), bitAt]

/-- The bitmap is filled, and then the loop frees the pages of the regions. -/
theorem parseMemoryInfo_bitmap (bitmap : PageBitmap) (info : MemoryInfo) :
    (parseMemoryInfo { bitmap := bitmap } info).bitmap =
      (parseLoopLogged info info.freeRegionCount.toNat 0
        (fillMemory bitmap 0 maxPhysPageBitmapIndex 0xFF#8)).value := by
  rw [parseMemoryInfo, parseMemoryInfoLogged, if_neg Bool.false_ne_true, value_bind, value_bind,
    value_pure, fillMemory]

/-- The pages that are free after `ParseMemoryInfo`. The memory behind the bitmap is not filled. -/
theorem parseMemoryInfo_free_iff (bitmap : PageBitmap) (info : MemoryInfo) (k : Nat) :
    bitAt (parseMemoryInfo { bitmap := bitmap } info).bitmap k = unusedBit ↔
      (pageTotal ≤ k ∧ bitAt bitmap k = unusedBit) ∨
        ∃ i < info.freeRegionCount.toNat, (info.freeMemory i).Frees k := by
  rw [parseMemoryInfo_bitmap, parseLoop_free_iff]
  refine or_congr ?_ ?_
  · by_cases hk : k < pageTotal
    · rw [bitAt_fill_used bitmap hk]
      exact iff_of_false (by decide) fun h => Nat.not_le.2 hk h.1
    · rw [bitAt_fill_past bitmap (Nat.le_of_not_lt hk)]
      exact (and_iff_right (Nat.le_of_not_lt hk)).symm
  · constructor
    · rintro ⟨j, -, hj, hfrees⟩
      exact ⟨j, by omega, hfrees⟩
    · rintro ⟨j, hj, hfrees⟩
      exact ⟨j, Nat.zero_le j, by omega, hfrees⟩

/-- A page that `ParseMemoryInfo` leaves free is not page 0 and lies inside one free region. -/
theorem parseMemoryInfo_free (bitmap : PageBitmap) (info : MemoryInfo)
    (hwrap : ∀ i < info.freeRegionCount.toNat, (info.freeMemory i).stop ≤ 2 ^ 64) {k : Nat}
    (hk : k < pageTotal)
    (hfree : bitAt (parseMemoryInfo { bitmap := bitmap } info).bitmap k = unusedBit) :
    1 ≤ k ∧ ∃ i < info.freeRegionCount.toNat, (info.freeMemory i).HoldsPage k := by
  rcases (parseMemoryInfo_free_iff bitmap info k).1 hfree with ⟨hpast, -⟩ | ⟨i, hi, hfrees⟩
  · omega
  · obtain ⟨habove, -, hpage⟩ := (MemoryRegion.frees_iff (hwrap i hi) hk).1 hfrees
    have hlow := hpage.1
    exact ⟨by omega, i, hi, hpage⟩

/-- Whatever the bitmap held before, a page that `ParseMemoryInfo` leaves free is not page 0
and lies inside one free region. A page that touches a reserved region is therefore never
free, if the reserved and free regions are disjoint. -/
theorem parse_memory_info_sound (bitmap : PageBitmap) (info : MemoryInfo)
    (hwrap : ∀ i < info.freeRegionCount.toNat, (info.freeMemory i).stop ≤ 2 ^ 64) :
    let parsed := (parseMemoryInfo { bitmap := bitmap } info).bitmap
    (∀ k < pageTotal, bitAt parsed k = unusedBit →
      1 ≤ k ∧ ∃ i < info.freeRegionCount.toNat, (info.freeMemory i).HoldsPage k) ∧
    ((∀ i < info.freeRegionCount.toNat, ∀ j < info.reservedRegionCount.toNat, ∀ address,
        (info.freeMemory i).Contains address → ¬ (info.reservedMemory j).Contains address) →
      ∀ k < pageTotal, ∀ j < info.reservedRegionCount.toNat, ∀ address,
        4096 * k ≤ address → address < 4096 * k + 4096 →
        (info.reservedMemory j).Contains address → bitAt parsed k = usedBit) := by
  intro parsed
  have hsound : ∀ k < pageTotal, bitAt parsed k = unusedBit →
      1 ≤ k ∧ ∃ i < info.freeRegionCount.toNat, (info.freeMemory i).HoldsPage k :=
    fun k hk hfree => parseMemoryInfo_free bitmap info hwrap hk hfree
  refine ⟨hsound, fun hdisjoint k hk j hj address hlow hhigh hreserved => ?_⟩
  cases hbit : bitAt parsed k with
  | true => rfl
  | false =>
      obtain ⟨_, i, hi, hpage⟩ := hsound k hk hbit
      refine absurd hreserved (hdisjoint i hi j hj address ?_)
      unfold MemoryRegion.HoldsPage at hpage
      unfold MemoryRegion.Contains
      omega

/-- A boot loader reports a free region from 1 MiB to 2 MiB and a reserved page right above it. -/
def freeBelowReserved : MemoryInfo where
  freeMemory := fun _ => ⟨0x100000#64, 0x100000#64⟩
  freeRegionCount := 1#64
  reservedMemory := fun _ => ⟨0x200000#64, 0x1000#64⟩
  reservedRegionCount := 1#64

/-- Page 256 of the free region is left free, no page outside this region is, and page 512 of the
reserved region is used. -/
theorem parse_memory_info_sound_one_region :
    let parsed := (parseMemoryInfo { bitmap := fun _ => 0#8 } freeBelowReserved).bitmap
    bitAt parsed 256 = unusedBit ∧
      (∀ k < pageTotal, bitAt parsed k = unusedBit → 256 ≤ k ∧ k < 512) ∧
      bitAt parsed 512 = usedBit := by
  intro parsed
  have hbase : ∀ i, (freeBelowReserved.freeMemory i).base.toNat = 0x100000 := fun _ => rfl
  have hstop : ∀ i, (freeBelowReserved.freeMemory i).stop = 0x200000 :=
    fun _ => show 0x100000 + 0x100000 = _ by omega
  have hreserved : ∀ j address, (freeBelowReserved.reservedMemory j).Contains address ↔
      0x200000 ≤ address ∧ address < 0x200000 + 0x1000 := fun _ _ => Iff.rfl
  have hwrap : ∀ i < freeBelowReserved.freeRegionCount.toNat,
      (freeBelowReserved.freeMemory i).stop ≤ 2 ^ 64 := by
    intro i _
    rw [hstop]
    omega
  have hmax := maxMemorySizeBytes_eq
  have htotal := pageTotal_eq
  obtain ⟨hfree, hused⟩ := parse_memory_info_sound (fun _ => 0#8) freeBelowReserved hwrap
  refine ⟨(parseMemoryInfo_free_iff _ _ 256).2 (.inr ⟨0, by decide, ?_⟩),
    fun k hk hunused => ?_, hused ?_ 512 (by omega) 0 (by decide) 0x200000 (by omega) (by omega) ?_⟩
  · rw [MemoryRegion.frees_iff (hwrap 0 (by decide)) (by omega), MemoryRegion.HoldsPage, hbase,
      hstop]
    omega
  · obtain ⟨-, i, -, hpage⟩ := hfree k hk hunused
    rw [MemoryRegion.HoldsPage, hbase, hstop] at hpage
    omega
  · intro i _ j _ address hinside
    rw [MemoryRegion.Contains, hbase, hstop] at hinside
    rw [hreserved]
    omega
  · rw [hreserved]
    omega

end HailOS.Kernel
