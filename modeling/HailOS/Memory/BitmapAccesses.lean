import HailOS.Memory.UsablePages

/-!
# Accesses to the page bitmap

The indices of the bitmap that `ParseMemoryInfo` and the functions it calls access.

`SetBitRange` checks that its range lies inside the bitmap, but a region of one page is marked by
`SetBit` directly, which does not. `one_page_path_iff` says that the two ways agree, and that no
index past the bitmap is accessed, exactly if no region of one page lies past 64 GiB.
-/

namespace HailOS.Kernel

open Lib Logged

/-! ## Bounds on the accesses -/

theorem fillMemoryLoopLogged_within (ptr : Nat) (byte : BitVec 8) (count i : Nat)
    (memory : Memory) :
    Within (· < ptr + i + count) (fillMemoryLoopLogged ptr byte count i memory) := by
  induction count generalizing i memory with
  | zero => exact within_pure _
  | succ count ih =>
      rw [fillMemoryLoopLogged, within_bind, within_access]
      refine ⟨by omega, ?_⟩
      rw [show ptr + i + (count + 1) = ptr + (i + 1) + count by omega]
      exact ih _ _

theorem setBitRangeLoopLogged_within {size start : Nat} (flag : Bool) (count i : Nat)
    (data : Nat → BitVec 8) (hbound : start + i + count ≤ 2 ^ 64)
    (hfits : start + i + count ≤ size * 8) :
    Within (· < size) (setBitRangeLoopLogged start flag count i data) := by
  induction count generalizing i data with
  | zero => exact within_pure _
  | succ count ih =>
      have hwrap : wrap64 (start + i) = start + i := wrap64_of_lt (by omega)
      rw [setBitRangeLoopLogged, within_bind, setBitLogged, within_access, hwrap]
      refine ⟨?_, ih _ _ (by omega) (by omega)⟩
      show (start + i) / 8 < size
      omega

/-- `SetBitRange` stays inside its array. -/
theorem setBitRangeLogged_within (data : Nat → BitVec 8) {size startIndex startBit length : Nat}
    (flag : Bool) (hsize : size * 8 < 2 ^ 64)
    (hend : startIndex * 8 + startBit + length < 2 ^ 64) :
    Within (· < size) (setBitRangeLogged data size startIndex startBit length flag) := by
  have htotal : wrap64 (size * charBit) = size * 8 := wrap64_of_lt hsize
  have hstart : wrap64 (startIndex * charBit + startBit) = startIndex * 8 + startBit :=
    wrap64_of_lt (by simp only [charBit]; omega)
  simp only [setBitRangeLogged, htotal, hstart, wrap64_of_lt hend]
  split
  · exact within_pure _
  · split
    · exact within_pure _
    · split
      · exact within_pure _
      · exact setBitRangeLoopLogged_within _ _ _ _ (by omega) (by omega)

/-- Marking leaves the bitmap exactly for a single page past its end. -/
theorem markUnusedLogged_within_iff (bitmap : PageBitmap) {alignedBase size : Nat}
    (hbase : alignedBase < 2 ^ 64) (hsize : size < 2 ^ 64) :
    Within (· < maxPhysPageBitmapIndex) (markUnusedLogged bitmap alignedBase size) ↔
      (size / 4096 = 1 → alignedBase / 4096 < pageTotal) := by
  have hpage := page_index_offset alignedBase
  have hoffset := page_offset_lt alignedBase
  have htotal : pageTotal = maxPhysPageBitmapIndex * 8 := rfl
  have hcount : size / pageSize = size / 4096 := rfl
  simp only [markUnusedLogged, hcount]
  by_cases hzero : size / 4096 = 0
  · rw [if_pos hzero]
    exact iff_of_true (within_pure _) fun hone => by omega
  · rw [if_neg hzero]
    by_cases hone : size / 4096 = 1
    · rw [if_pos hone, setBitLogged, within_access, imp_iff_right hone]
      omega
    · rw [if_neg hone]
      exact iff_of_true (setBitRangeLogged_within _ _ bitmap_bits_lt (by omega))
        fun h => absurd h hone

/-- The loop body leaves the bitmap exactly for a region of a single page past its end. -/
theorem parseRegionLogged_within_iff (bitmap : PageBitmap) (region : MemoryRegion) :
    Within (· < maxPhysPageBitmapIndex) (parseRegionLogged bitmap region) ↔
      (4096 ≤ region.base.toNat ∧ 4096 ≤ region.length.toNat → region.pageCount = 1 →
        region.firstPage < pageTotal) := by
  rw [parseRegionLogged_eq]
  by_cases h : 4096 ≤ region.base.toNat ∧ 4096 ≤ region.length.toNat
  · have hfirst : 4096 * region.firstPage / 4096 = region.firstPage := by omega
    rw [if_pos h, imp_iff_right h,
      markUnusedLogged_within_iff bitmap region.alignedBase_lt region.pagedSize_lt, hfirst]
    rfl
  · rw [if_neg h]
    exact iff_of_true (within_pure _) fun h' => absurd h' h

/-- The loop leaves the bitmap exactly if it does so for one of the regions. -/
theorem parseLoopLogged_within_iff (info : MemoryInfo) (count i : Nat) (bitmap : PageBitmap) :
    Within (· < maxPhysPageBitmapIndex) (parseLoopLogged info count i bitmap) ↔
      ∀ j, i ≤ j → j < i + count → ∀ before,
        Within (· < maxPhysPageBitmapIndex) (parseRegionLogged before (info.freeMemory j)) := by
  induction count generalizing i bitmap with
  | zero => exact iff_of_true (within_pure _) fun j hlow hhigh => by omega
  | succ count ih =>
      rw [parseLoopLogged, within_bind, ih]
      constructor
      · rintro ⟨hfirst, hrest⟩ j hlow hhigh before
        by_cases hj : j = i
        · -- whether the body stays inside does not depend on the bitmap
          rw [parseRegionLogged_within_iff] at hfirst ⊢
          rw [hj]
          exact hfirst
        · exact hrest j (by omega) (by omega) before
      · intro hall
        exact ⟨hall i (by omega) (by omega) bitmap,
          fun j hlow hhigh => hall j (by omega) (by omega)⟩

theorem parseMemoryInfoLogged_within_iff (bitmap : PageBitmap) (info : MemoryInfo) :
    Within (· < maxPhysPageBitmapIndex) (parseMemoryInfoLogged { bitmap := bitmap } info) ↔
      ∀ i < info.freeRegionCount.toNat, ∀ before,
        Within (· < maxPhysPageBitmapIndex) (parseRegionLogged before (info.freeMemory i)) := by
  have hfill : Within (· < maxPhysPageBitmapIndex)
      (fillMemoryLogged bitmap 0 maxPhysPageBitmapIndex 0xFF#8) := by
    have h := fillMemoryLoopLogged_within 0 0xFF#8 maxPhysPageBitmapIndex 0 bitmap
    rwa [Nat.zero_add] at h
  show Within _ (fillMemoryLogged bitmap 0 maxPhysPageBitmapIndex 0xFF#8 >>= fun filled =>
    parseLoopLogged info info.freeRegionCount.toNat 0 filled >>= fun parsed =>
      (pure ⟨false, parsed⟩ : Logged Nat ParseState)) ↔ _
  rw [within_bind, and_iff_right hfill, within_bind, and_iff_left (within_pure _),
    parseLoopLogged_within_iff]
  simp only [Nat.zero_le, true_imp_iff, Nat.zero_add]

/-! ## The two paths -/

/-- The region starts above page 0, and page `k` is the only page inside it. -/
structure MemoryRegion.OnlyPage (region : MemoryRegion) (k : Nat) : Prop where
  above : 4096 ≤ region.base.toNat
  holds : region.HoldsPage k
  only : ∀ j, region.HoldsPage j → j = k

/-- The parser counts one page exactly in such a region. -/
theorem MemoryRegion.onlyPage_iff {region : MemoryRegion} {k : Nat} :
    region.OnlyPage k ↔
      (4096 ≤ region.base.toNat ∧ 4096 ≤ region.length.toNat) ∧ region.pageCount = 1 ∧
        (region.base.toNat + 4095) / 4096 = k := by
  have hbase := region.base.isLt
  have hlength := region.length.isLt
  unfold MemoryRegion.pageCount MemoryRegion.pagedSize MemoryRegion.firstPage
  constructor
  · rintro ⟨habove, hholds, honly⟩
    have hbefore := honly (k - 1)
    have hafter := honly (k + 1)
    unfold MemoryRegion.HoldsPage MemoryRegion.stop at *
    omega
  · rintro ⟨⟨habove, hlong⟩, hcount, hfirst⟩
    unfold MemoryRegion.stop at *
    refine ⟨habove, ?_, fun j hj => ?_⟩
    · unfold MemoryRegion.HoldsPage MemoryRegion.stop
      omega
    · unfold MemoryRegion.HoldsPage MemoryRegion.stop at hj
      omega

/-- The address of the page is cut to 64 bits. -/
theorem MemoryRegion.firstPage_eq (region : MemoryRegion) :
    region.firstPage = (region.base.toNat + 4095) / 4096 % 2 ^ 52 := by
  unfold MemoryRegion.firstPage
  omega

/-- A region of one page is marked by `SetBit`. -/
theorem MemoryRegion.OnlyPage.parseRegion {region : MemoryRegion} {k : Nat}
    (h : region.OnlyPage k) (bitmap : PageBitmap) :
    Kernel.parseRegion bitmap region =
      Function.update bitmap (k % 2 ^ 52 / 8)
        (setBit (bitmap (k % 2 ^ 52 / 8)) (k % 2 ^ 52 % 8) unusedBit) := by
  obtain ⟨hlarge, hcount, hfirst⟩ := MemoryRegion.onlyPage_iff.1 h
  rw [Kernel.parseRegion, parseRegionLogged_eq, if_pos hlarge, region.firstPage_eq, hfirst,
    markUnusedLogged]
  generalize k % 2 ^ 52 = page
  have hone : region.pagedSize / pageSize = 1 := hcount
  have hpage : 4096 * page / pageSize = page :=
    Nat.mul_div_cancel_left page (show 0 < 4096 by omega)
  have hindex : addressToPageBitmapArrayIndex (4096 * page) = page / 8 :=
    congrArg (· / charBit) hpage
  have hoffset : addressToPageBitmapBitOffset (4096 * page) = page % 8 :=
    congrArg (· % charBit) hpage
  simp only [hone, hindex, hoffset, if_neg (show ¬ (1 = 0) by omega), if_true]
  rfl

/-- Setting one bit directly is `SetBitRange` of length 1, for every bitmap, exactly if the bit
lies inside the bitmap. -/
theorem setBit_eq_setBitRange_iff (k : Nat) (hk : k < 2 ^ 63) :
    (∀ bitmap : PageBitmap,
        Function.update bitmap (k / 8) (setBit (bitmap (k / 8)) (k % 8) unusedBit) =
          setBitRange bitmap maxPhysPageBitmapIndex (k / 8) (k % 8) 1 unusedBit) ↔
      k < pageTotal := by
  have htotal : pageTotal = maxPhysPageBitmapIndex * 8 := rfl
  have hposition : k = 8 * (k / 8) + k % 8 := by omega
  constructor
  · intro hagree
    by_contra hpast
    -- past the bitmap only the direct write has an effect
    have hfull := hagree fun _ => 0xFF
    rw [setBitRange_outside _ _ bitmap_bits_lt (by omega) (by omega)] at hfull
    have hbit : bitAt _ k = bitAt _ k := congrArg (bitAt · k) hfull
    rw [bitAt_update (fun _ => 0xFF) unusedBit (by omega), if_pos hposition,
      bitAt_full rfl] at hbit
    cases hbit
  · intro hinside bitmap
    apply eq_of_bitAt_eq
    intro j
    have hiff : k / 8 * 8 + k % 8 ≤ j ∧ j < k / 8 * 8 + k % 8 + 1 ↔
        j = 8 * (k / 8) + k % 8 := by omega
    rw [bitAt_update bitmap unusedBit (by omega),
      bitAt_setBitRange bitmap unusedBit bitmap_bits_lt (by omega)]
    simp only [hiff]

/-- Marking a region of one page has the effect of `SetBitRange` with length 1 at that page, and
`ParseMemoryInfo` accesses no index past the bitmap, exactly if no free region that starts above
page 0 has its only page above 64 GiB. The address of a page is taken modulo `2 ^ 64`, for regions
that wrap around. -/
theorem one_page_path_iff (bitmap : PageBitmap) (info : MemoryInfo) :
    ((∀ i < info.freeRegionCount.toNat, ∀ k, (info.freeMemory i).OnlyPage k → ∀ before,
          parseRegion before (info.freeMemory i) =
            setBitRange before maxPhysPageBitmapIndex (k % 2 ^ 52 / 8) (k % 2 ^ 52 % 8) 1
              unusedBit) ∧
        ∀ index ∈ (parseMemoryInfoLogged { bitmap := bitmap } info).log,
          index < maxPhysPageBitmapIndex) ↔
      ∀ i < info.freeRegionCount.toNat, ∀ k, (info.freeMemory i).OnlyPage k →
        k % 2 ^ 52 < pageTotal := by
  have hregion : ∀ i < info.freeRegionCount.toNat, ∀ k, (info.freeMemory i).OnlyPage k →
      ((∀ before, parseRegion before (info.freeMemory i) =
          setBitRange before maxPhysPageBitmapIndex (k % 2 ^ 52 / 8) (k % 2 ^ 52 % 8) 1
            unusedBit) ↔
        k % 2 ^ 52 < pageTotal) := by
    intro i hi k hpage
    have hbound : k % 2 ^ 52 < 2 ^ 52 := Nat.mod_lt k (by omega)
    rw [← setBit_eq_setBitRange_iff (k % 2 ^ 52) (by omega)]
    simp only [hpage.parseRegion]
  have haccess : (∀ index ∈ (parseMemoryInfoLogged { bitmap := bitmap } info).log,
      index < maxPhysPageBitmapIndex) ↔
      ∀ i < info.freeRegionCount.toNat, ∀ k, (info.freeMemory i).OnlyPage k →
        k % 2 ^ 52 < pageTotal := by
    refine (parseMemoryInfoLogged_within_iff bitmap info).trans ?_
    refine forall_congr' fun i => forall_congr' fun hi => ?_
    simp only [parseRegionLogged_within_iff, MemoryRegion.onlyPage_iff,
      MemoryRegion.firstPage_eq]
    constructor
    · rintro hinside k ⟨hlarge, hcount, rfl⟩
      exact hinside bitmap hlarge hcount
    · intro hall _ hlarge hcount
      exact hall _ ⟨hlarge, hcount, rfl⟩
  rw [haccess, and_iff_right_iff_imp]
  intro hinside i hi k hpage
  exact (hregion i hi k hpage).2 (hinside i hi k hpage)

/-- Two pages above 64 GiB are refused by `SetBitRange`, and nothing past the bitmap is
accessed. -/
theorem one_page_path_two_pages :
    let info := oneRegion ⟨0x1000000000#64, 0x2000#64⟩
    (∀ i < info.freeRegionCount.toNat, (info.freeMemory i).stop ≤ 2 ^ 64) ∧
      ∀ index ∈ (parseMemoryInfoLogged { bitmap := fun _ => 0xFF } info).log,
        index < maxPhysPageBitmapIndex := by
  intro info
  have hstop : ∀ i, (info.freeMemory i).stop = 0x1000002000 :=
    fun _ => show 0x1000000000 + 0x2000 = _ by omega
  have hwrap : ∀ i < info.freeRegionCount.toNat, (info.freeMemory i).stop ≤ 2 ^ 64 := by
    intro i _
    rw [hstop]
    omega
  refine ⟨hwrap, ((one_page_path_iff _ info).2 ?_).2⟩
  intro i _ k hpage
  -- the region has two pages, so it has no only page
  have hboth : ∀ j, j = 2 ^ 24 ∨ j = 2 ^ 24 + 1 → j = k := by
    intro j hj
    refine hpage.only j ⟨?_, ?_⟩
    · show 0x1000000000 ≤ 4096 * j
      omega
    · rw [hstop]
      omega
  have hfirst := hboth _ (.inl rfl)
  have hsecond := hboth _ (.inr rfl)
  omega

/-- A region of one page at 64 GiB makes `ParseMemoryInfo` write behind the bitmap. -/
theorem one_page_written_past_bitmap :
    let info := oneRegion ⟨0x1000000000#64, 0x1000#64⟩
    (∀ i < info.freeRegionCount.toNat, (info.freeMemory i).stop ≤ 2 ^ 64) ∧
      (info.freeMemory 0).OnlyPage (2 ^ 24) ∧
      (∃ before, parseRegion before (info.freeMemory 0) ≠
        setBitRange before maxPhysPageBitmapIndex (2 ^ 24 / 8) (2 ^ 24 % 8) 1 unusedBit) ∧
      ∃ index ∈ (parseMemoryInfoLogged { bitmap := fun _ => 0xFF } info).log,
        maxPhysPageBitmapIndex ≤ index := by
  intro info
  have hstop : ∀ i, (info.freeMemory i).stop = 0x1000001000 :=
    fun _ => show 0x1000000000 + 0x1000 = _ by omega
  have hwrap : ∀ i < info.freeRegionCount.toNat, (info.freeMemory i).stop ≤ 2 ^ 64 := by
    intro i _
    rw [hstop]
    omega
  have hcount : 0 < info.freeRegionCount.toNat := show 0 < 1 by omega
  have hpage : (info.freeMemory 0).OnlyPage (2 ^ 24) := by
    refine ⟨show 4096 ≤ 0x1000000000 by omega, ⟨?_, ?_⟩, fun j hj => ?_⟩
    · show 0x1000000000 ≤ 4096 * 2 ^ 24
      omega
    · rw [hstop]
      omega
    · have hlow : 0x1000000000 ≤ 4096 * j := hj.1
      have hhigh := hj.2
      rw [hstop] at hhigh
      omega
  have htotal := pageTotal_eq
  refine ⟨hwrap, hpage, ?_, ?_⟩
  · by_contra hagree
    simp only [hpage.parseRegion, ne_eq, not_exists, not_not] at hagree
    have := (setBit_eq_setBitRange_iff (2 ^ 24) (by omega)).1 hagree
    omega
  · by_contra hinside
    simp only [not_exists, not_and, Nat.not_le] at hinside
    have hregion := (parseMemoryInfoLogged_within_iff _ info).1 hinside 0 hcount fun _ => 0xFF
    rw [parseRegionLogged_within_iff] at hregion
    obtain ⟨hlarge, hone, hfirst⟩ := MemoryRegion.onlyPage_iff.1 hpage
    have hinside := hregion hlarge hone
    rw [MemoryRegion.firstPage_eq, hfirst] at hinside
    omega

end HailOS.Kernel
