import HailOS.Memory.PhysicalMemoryBitmap

/-!
# Usable pages

`ParseMemoryInfo` is to free every page that lies inside a reported free region, page 0 apart.
Two kinds of regions lose their pages. A region that starts in page 0 is meant to be cut to what
lies above it, but is cut to nothing, since its length is computed from the base that has just
been replaced. A region with a page above 64 GiB is dropped as a whole, since `SetBitRange`
refuses a range that does not fit. `loses_no_page_iff` and `clips_regions_iff` say for which
memory maps no page is lost all the same.
-/

namespace HailOS.Kernel

/-- Page `k` lies inside one free region. -/
def MemoryInfo.Usable (info : MemoryInfo) (k : Nat) : Prop :=
  ∃ i < info.freeRegionCount.toNat, (info.freeMemory i).HoldsPage k

/-- A memory map of one free region. -/
def oneRegion (region : MemoryRegion) : MemoryInfo where
  freeMemory := fun _ => region
  freeRegionCount := 1#64
  reservedMemory := fun _ => ⟨0#64, 0#64⟩
  reservedRegionCount := 0#64

theorem oneRegion_usable {region : MemoryRegion} {k : Nat} (h : region.HoldsPage k) :
    (oneRegion region).Usable k :=
  ⟨0, show 0 < 1 by omega, h⟩

variable (bitmap : PageBitmap) {info : MemoryInfo}

/-- Without wrapping around, a page comes out free exactly if it lies inside a free region that
starts above page 0 and whose last page lies below 64 GiB. -/
theorem parsed_free_iff
    (hwrap : ∀ i < info.freeRegionCount.toNat, (info.freeMemory i).stop ≤ 2 ^ 64) {k : Nat}
    (hk : k < pageTotal) :
    bitAt (parseMemoryInfo { bitmap := bitmap } info).bitmap k = unusedBit ↔
      ∃ i < info.freeRegionCount.toNat, 4096 ≤ (info.freeMemory i).base.toNat ∧
        (info.freeMemory i).stop < maxMemorySizeBytes + 4096 ∧
        (info.freeMemory i).HoldsPage k := by
  rw [parseMemoryInfo_free_iff]
  constructor
  · rintro (⟨hpast, -⟩ | ⟨i, hi, hfrees⟩)
    · exact absurd hk (Nat.not_lt.2 hpast)
    · exact ⟨i, hi, (MemoryRegion.frees_iff (hwrap i hi) hk).1 hfrees⟩
  · rintro ⟨i, hi, hregion⟩
    exact .inr ⟨i, hi, (MemoryRegion.frees_iff (hwrap i hi) hk).2 hregion⟩

/-- A page of a region that ends at or below 64 GiB is described by the bitmap. -/
theorem MemoryRegion.HoldsPage.lt_pageTotal {region : MemoryRegion} {k : Nat}
    (h : region.HoldsPage k) (hend : region.stop ≤ maxMemorySizeBytes) : k < pageTotal := by
  have hstop := h.2
  rw [maxMemorySizeBytes_eq] at hend
  omega

/-! ## Regions that start in page 0 -/

/-- If no free region ends above 64 GiB, every usable page above page 0 comes out free exactly if
those of the regions that start in page 0 also lie inside other free regions. -/
theorem loses_no_page_iff
    (hends : ∀ i < info.freeRegionCount.toNat, (info.freeMemory i).stop ≤ maxMemorySizeBytes) :
    (∀ k, 1 ≤ k → info.Usable k →
        bitAt (parseMemoryInfo { bitmap := bitmap } info).bitmap k = unusedBit) ↔
      ∀ i < info.freeRegionCount.toNat, (info.freeMemory i).base.toNat < 4096 →
        ∀ k, 1 ≤ k → (info.freeMemory i).HoldsPage k →
          ∃ j < info.freeRegionCount.toNat, 4096 ≤ (info.freeMemory j).base.toNat ∧
            (info.freeMemory j).HoldsPage k := by
  have hmax : maxMemorySizeBytes ≤ 2 ^ 64 := by decide
  have hlimit : maxMemorySizeBytes < maxMemorySizeBytes + 4096 := by omega
  have hwrap : ∀ i < info.freeRegionCount.toNat, (info.freeMemory i).stop ≤ 2 ^ 64 :=
    fun i hi => Nat.le_trans (hends i hi) hmax
  constructor
  · intro hfree i hi hbase k hk hpage
    have hparsed := hfree k hk ⟨i, hi, hpage⟩
    rw [parsed_free_iff bitmap hwrap (hpage.lt_pageTotal (hends i hi))] at hparsed
    obtain ⟨j, hj, habove, -, hother⟩ := hparsed
    exact ⟨j, hj, habove, hother⟩
  · rintro hlow k hk ⟨i, hi, hpage⟩
    rw [parsed_free_iff bitmap hwrap (hpage.lt_pageTotal (hends i hi))]
    by_cases hbase : (info.freeMemory i).base.toNat < 4096
    · obtain ⟨j, hj, habove, hother⟩ := hlow i hi hbase k hk hpage
      exact ⟨j, hj, habove, Nat.lt_of_le_of_lt (hends j hj) hlimit, hother⟩
    · exact ⟨i, hi, Nat.le_of_not_lt hbase, Nat.lt_of_le_of_lt (hends i hi) hlimit, hpage⟩

/-- Nothing is lost of a region from 1 MiB to 2 MiB. -/
theorem loses_no_page_one_megabyte :
    let info := oneRegion ⟨0x100000#64, 0x100000#64⟩
    (∀ i < info.freeRegionCount.toNat, (info.freeMemory i).stop ≤ maxMemorySizeBytes) ∧
      ∀ k, 1 ≤ k → info.Usable k →
        bitAt (parseMemoryInfo { bitmap := fun _ => 0 } info).bitmap k = unusedBit := by
  intro info
  have hlimit : ∀ i < info.freeRegionCount.toNat,
      (info.freeMemory i).stop ≤ maxMemorySizeBytes :=
    fun i _ => show 0x100000 + 0x100000 ≤ maxMemorySizeBytes by decide
  refine ⟨hlimit, (loses_no_page_iff _ hlimit).2 ?_⟩
  intro i _ hbase
  exact absurd (show 0x100000 < 4096 from hbase) (by omega)

/-- Of 640 KiB from address 0 on, the second page is not freed. -/
theorem low_memory_lost :
    let info := oneRegion ⟨0#64, 0xA0000#64⟩
    (∀ i < info.freeRegionCount.toNat, (info.freeMemory i).stop ≤ maxMemorySizeBytes) ∧
      info.Usable 1 ∧
      bitAt (parseMemoryInfo { bitmap := fun _ => 0 } info).bitmap 1 ≠ unusedBit := by
  intro info
  have hwrap : ∀ i < info.freeRegionCount.toNat, (info.freeMemory i).stop ≤ 2 ^ 64 :=
    fun i _ => show 0 + 0xA0000 ≤ 2 ^ 64 by omega
  refine ⟨fun i _ => show 0 + 0xA0000 ≤ maxMemorySizeBytes by decide, ?_, ?_⟩
  · refine oneRegion_usable ⟨?_, ?_⟩
    · show 0 ≤ 4096 * 1
      omega
    · show 4096 * 1 + 4096 ≤ 0 + 0xA0000
      omega
  · rw [Ne, parsed_free_iff _ hwrap (by decide)]
    rintro ⟨i, -, habove, -⟩
    exact absurd (show 4096 ≤ 0 from habove) (by omega)

/-! ## Regions that reach past 64 GiB -/

/-- If every free region starts above page 0, every usable page below 64 GiB comes out free
exactly if those of the regions with a page above 64 GiB also lie inside regions without one. -/
theorem clips_regions_iff
    (hregions : ∀ i < info.freeRegionCount.toNat,
      4096 ≤ (info.freeMemory i).base.toNat ∧ (info.freeMemory i).stop ≤ 2 ^ 64) :
    (∀ k < 8 * maxPhysPageBitmapIndex, info.Usable k →
        bitAt (parseMemoryInfo { bitmap := bitmap } info).bitmap k = unusedBit) ↔
      ∀ i < info.freeRegionCount.toNat,
        maxMemorySizeBytes + 4096 ≤ (info.freeMemory i).stop →
        ∀ k < 8 * maxPhysPageBitmapIndex, (info.freeMemory i).HoldsPage k →
          ∃ j < info.freeRegionCount.toNat,
            (info.freeMemory j).stop < maxMemorySizeBytes + 4096 ∧
              (info.freeMemory j).HoldsPage k := by
  have htotal : 8 * maxPhysPageBitmapIndex = pageTotal := Nat.mul_comm _ _
  have hwrap : ∀ i < info.freeRegionCount.toNat, (info.freeMemory i).stop ≤ 2 ^ 64 :=
    fun i hi => (hregions i hi).2
  rw [htotal]
  constructor
  · intro hfree i hi _ k hk hpage
    have hparsed := hfree k hk ⟨i, hi, hpage⟩
    rw [parsed_free_iff bitmap hwrap hk] at hparsed
    obtain ⟨j, hj, -, hend, hother⟩ := hparsed
    exact ⟨j, hj, hend, hother⟩
  · rintro hcrossing k hk ⟨i, hi, hpage⟩
    rw [parsed_free_iff bitmap hwrap hk]
    by_cases hend : (info.freeMemory i).stop < maxMemorySizeBytes + 4096
    · exact ⟨i, hi, (hregions i hi).1, hend, hpage⟩
    · obtain ⟨j, hj, hinside, hother⟩ := hcrossing i hi (Nat.le_of_not_lt hend) k hk hpage
      exact ⟨j, hj, (hregions j hj).1, hinside, hother⟩

/-- A region that ends with the last byte of 64 GiB loses nothing. -/
theorem clips_regions_to_limit :
    let info := oneRegion ⟨0x100000000#64, 0xF00000000#64⟩
    (∀ i < info.freeRegionCount.toNat,
        4096 ≤ (info.freeMemory i).base.toNat ∧ (info.freeMemory i).stop ≤ 2 ^ 64) ∧
      ∀ k < 8 * maxPhysPageBitmapIndex, info.Usable k →
        bitAt (parseMemoryInfo { bitmap := fun _ => 0 } info).bitmap k = unusedBit := by
  intro info
  have hstop : ∀ i, (info.freeMemory i).stop = 0x1000000000 :=
    fun _ => show 0x100000000 + 0xF00000000 = _ by omega
  have hregions : ∀ i < info.freeRegionCount.toNat,
      4096 ≤ (info.freeMemory i).base.toNat ∧ (info.freeMemory i).stop ≤ 2 ^ 64 := by
    intro i _
    refine ⟨show 4096 ≤ 0x100000000 by omega, ?_⟩
    rw [hstop]
    omega
  refine ⟨hregions, (clips_regions_iff _ hregions).2 ?_⟩
  intro i _ hend
  rw [hstop] at hend
  exact absurd hend (by decide)

/-- Of 64 GiB from 4 GiB on, the first page is not freed. -/
theorem crossing_region_dropped :
    let info := oneRegion ⟨0x100000000#64, 0x1000000000#64⟩
    (∀ i < info.freeRegionCount.toNat,
        4096 ≤ (info.freeMemory i).base.toNat ∧ (info.freeMemory i).stop ≤ 2 ^ 64) ∧
      0x100000 < 8 * maxPhysPageBitmapIndex ∧ info.Usable 0x100000 ∧
      bitAt (parseMemoryInfo { bitmap := fun _ => 0 } info).bitmap 0x100000 ≠ unusedBit := by
  intro info
  have hstop : ∀ i, (info.freeMemory i).stop = 0x1100000000 :=
    fun _ => show 0x100000000 + 0x1000000000 = _ by omega
  have hregions : ∀ i < info.freeRegionCount.toNat,
      4096 ≤ (info.freeMemory i).base.toNat ∧ (info.freeMemory i).stop ≤ 2 ^ 64 := by
    intro i _
    refine ⟨show 4096 ≤ 0x100000000 by omega, ?_⟩
    rw [hstop]
    omega
  refine ⟨hregions, by decide, ?_, ?_⟩
  · refine oneRegion_usable ⟨?_, ?_⟩
    · show 0x100000000 ≤ 4096 * 0x100000
      omega
    · show 4096 * 0x100000 + 4096 ≤ 0x100000000 + 0x1000000000
      omega
  · rw [Ne, parsed_free_iff _ (fun i hi => (hregions i hi).2) (by decide)]
    rintro ⟨i, -, -, hend, -⟩
    rw [hstop] at hend
    exact absurd hend (by decide)

end HailOS.Kernel
