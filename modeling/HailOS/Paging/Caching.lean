import HailOS.Paging.IdentityMap

/-!
# Caching of reserved memory

Leaves that map reserved memory are to be uncached, and no others. `IsMMIORegion` looks at the
first byte of the 2 MiB only. `reserved_uncached_iff` says that the leaves come out right exactly
if every 2 MiB page that some reserved region meets starts inside a reserved region.
-/

namespace HailOS.X86

open Lib Kernel Early PageWalk

/-- The entry for 2 MiB page `i` of GiB `g`, found from CR3 as the processor finds it. -/
def leafEntry (memory : Memory) (cr3 : BitVec 64) (g i : Nat) : BitVec 64 :=
  let pdpt := frame 12 (entryAt memory (frame 12 cr3) 0)
  let pd := frame 12 (entryAt memory pdpt g)
  entryAt memory pd i

/-- Some byte of the region lies in the 2 MiB from `phys` on. -/
def MeetsPage (region : MemoryRegion) (phys : Nat) : Prop :=
  ∃ address, region.Contains address ∧ phys ≤ address ∧ address < phys + 2 ^ 21

/-- Some reserved region meets the 2 MiB from `phys` on. -/
def MeetsReserved (info : MemoryInfo) (phys : Nat) : Prop :=
  ∃ j < info.reservedRegionCount.toNat, MeetsPage (info.reservedMemory j) phys

/-- The leaves in the directories of all mapped GiBs are uncached if they map a byte of a
reserved region, and cached if they do not. -/
def ReservedUncached (info : MemoryInfo) (memory : Memory) (cr3 : BitVec 64) : Prop :=
  ∀ g < (gibCount info).toNat, ∀ i < 512, present (leafEntry memory cr3 g i) = true →
    (MeetsReserved info (frame 21 (leafEntry memory cr3 g i)) →
        cacheDisable (leafEntry memory cr3 g i) = true ∧
          writeThrough (leafEntry memory cr3 g i) = true) ∧
      (¬ MeetsReserved info (frame 21 (leafEntry memory cr3 g i)) →
        cacheDisable (leafEntry memory cr3 g i) = false ∧
          writeThrough (leafEntry memory cr3 g i) = false)

/-- The 2 MiB from `phys` on are mapped: they start below the highest region end, and rounding
that up to a GiB does not wrap around. -/
structure MappedPage (info : MemoryInfo) (phys : Nat) : Prop where
  aligned : 2 ^ 21 ∣ phys
  below : phys < (calcMaxPhys info).toNat
  bound : (calcMaxPhys info).toNat ≤ 2 ^ 64 - 2 ^ 30

/-! ## The test for reserved memory -/

/-- The loop finds a region that contains the address and does not reach the end of the address
space. -/
theorem isMMIORegionLoop_iff (phys : BitVec 64) (regions : Nat → MemoryRegion) (count i : Nat) :
    isMMIORegionLoop phys regions count i = true ↔
      ∃ j, i ≤ j ∧ j < i + count ∧ (regions j).stop < 2 ^ 64 ∧
        (regions j).Contains phys.toNat := by
  induction count generalizing i with
  | zero => exact iff_of_false (by simp [isMMIORegionLoop]) fun ⟨j, hlow, hhigh, _⟩ => by omega
  | succ count ih =>
      have htest : ((regions i).base ≤ phys ∧ phys < (regions i).base + (regions i).length) ↔
          (regions i).stop < 2 ^ 64 ∧ (regions i).Contains phys.toNat := by
        have hlength := (regions i).length.isLt
        rw [BitVec.le_def, BitVec.lt_def, BitVec.toNat_add]
        unfold MemoryRegion.Contains MemoryRegion.stop
        omega
      rw [isMMIORegionLoop]
      by_cases hfound : (regions i).base ≤ phys ∧ phys < (regions i).base + (regions i).length
      · rw [if_pos hfound]
        exact iff_of_true rfl ⟨i, Nat.le_refl i, by omega, htest.1 hfound⟩
      · rw [if_neg hfound, ih]
        constructor
        · rintro ⟨j, hlow, hhigh, hregion⟩
          exact ⟨j, by omega, by omega, hregion⟩
        · rintro ⟨j, hlow, hhigh, hregion⟩
          have hj : j ≠ i := fun heq => hfound (htest.2 (heq ▸ hregion))
          exact ⟨j, by omega, by omega, hregion⟩

theorem isMMIORegion_iff (phys : BitVec 64) (info : MemoryInfo) :
    isMMIORegion phys info = true ↔
      ∃ j < info.reservedRegionCount.toNat, (info.reservedMemory j).stop < 2 ^ 64 ∧
        (info.reservedMemory j).Contains phys.toNat := by
  rw [isMMIORegion, isMMIORegionLoop_iff]
  simp only [Nat.zero_le, true_and, Nat.zero_add]

/-- What the test finds does meet the page. -/
theorem meets_of_isMMIORegion {phys : BitVec 64} {info : MemoryInfo}
    (h : isMMIORegion phys info = true) : MeetsReserved info phys.toNat := by
  obtain ⟨j, hj, -, hcontains⟩ := (isMMIORegion_iff phys info).1 h
  exact ⟨j, hj, phys.toNat, hcontains, Nat.le_refl _, by omega⟩

/-! ## The leaves -/

/-- The cache bits of a directory entry are the result of the test. -/
theorem directoryEntry_cache (info : MemoryInfo) (phys : BitVec 64) :
    cacheDisable (directoryEntry info phys) = isMMIORegion phys info ∧
      writeThrough (directoryEntry info phys) = isMMIORegion phys info := by
  have hmask : ∀ b < 21, (0xFFFFFFFFFFE00000#64).getLsbD b = false := by decide
  unfold cacheDisable writeThrough directoryEntry
  simp only [BitVec.getLsbD_or, BitVec.getLsbD_and, hmask 3 (by omega), hmask 4 (by omega),
    Bool.and_false, Bool.false_or]
  cases isMMIORegion phys info <;> exact ⟨rfl, rfl⟩

section Leaves

variable {info : MemoryInfo} {bitmap : PageBitmap} {before memory : Memory} {g i : Nat}

/-- The leaf that the processor finds is the entry that was written. -/
theorem IdentityTables.leafEntry_eq (h : IdentityTables info bitmap before memory)
    (hg : g < (gibCount info).toNat) (hi : i < 512) :
    leafEntry memory (BitVec.ofNat 64 (nthPage bitmap 0)) g i =
      if g * 2 ^ 30 + i * 2 ^ 21 < (mapLimit info).toNat then
        directoryEntry info (directoryPhys g i)
      else 0 := by
  have hframe : ∀ k, frame 12 (tableEntry (nthPage bitmap k)) = nthPage bitmap k := by
    intro k
    obtain ⟨haligned, hbound⟩ := nthPage_aligned bitmap k
    exact (tableEntry_fields haligned (Nat.lt_trans hbound (by omega))).2.2.2
  have hpdpt : entryAt memory (nthPage bitmap 1) g = tableEntry (nthPage bitmap (g + 2)) :=
    h.pdpt_mapped g hg
  simp only [leafEntry]
  rw [frame_cr3, h.pml4_entry, hframe, hpdpt, hframe]
  exact h.pd_entry g hg i hi

/-- The mapped pages are those of the directories, up to the limit. -/
theorem mappedPage_iff {phys : Nat} :
    MappedPage info phys ↔
      ∃ g < (gibCount info).toNat, ∃ i < 512, phys = g * 2 ^ 30 + i * 2 ^ 21 ∧
        g * 2 ^ 30 + i * 2 ^ 21 < (mapLimit info).toNat := by
  have hmax := (calcMaxPhys info).isLt
  rw [toNat_gibCount, toNat_mapLimit]
  constructor
  · rintro ⟨⟨page, rfl⟩, hbelow, hbound⟩
    exact ⟨page / 512, by omega, page % 512, by omega, by omega, by omega⟩
  · rintro ⟨g, hg, i, hi, rfl, hlimit⟩
    exact ⟨⟨g * 512 + i, by omega⟩, by omega, by omega⟩

/-- Below the limit a leaf is present and maps its page, with the cache bits that the test
gives. -/
theorem IdentityTables.leafEntry_fields (h : IdentityTables info bitmap before memory)
    (hg : g < (gibCount info).toNat) (hi : i < 512)
    (hlimit : g * 2 ^ 30 + i * 2 ^ 21 < (mapLimit info).toNat) :
    let entry := leafEntry memory (BitVec.ofNat 64 (nthPage bitmap 0)) g i
    present entry = true ∧ frame 21 entry = g * 2 ^ 30 + i * 2 ^ 21 ∧
      cacheDisable entry = isMMIORegion (directoryPhys g i) info ∧
      writeThrough entry = isMMIORegion (directoryPhys g i) info := by
  intro entry
  have hgibs := h.gibs_le
  have hphys := toNat_directoryPhys (show g < 512 by omega) hi
  have hentry : entry = directoryEntry info (directoryPhys g i) :=
    (h.leafEntry_eq hg hi).trans (if_pos hlimit)
  obtain ⟨hpresent, -, -, -, hframe⟩ := directoryEntry_fields info
    (show 2 ^ 21 ∣ (directoryPhys g i).toNat by rw [hphys]; omega) (by rw [hphys]; omega)
  obtain ⟨hdisable, hthrough⟩ := directoryEntry_cache info (directoryPhys g i)
  rw [hentry]
  exact ⟨hpresent, hframe.trans hphys, hdisable, hthrough⟩

end Leaves

/-- After `BuildIdentityMap2M` has returned true, the leaves are uncached exactly where they map
reserved memory iff every mapped 2 MiB page that a reserved region meets starts inside a reserved
region that does not reach the end of the address space. -/
theorem reserved_uncached_iff {info : MemoryInfo} {heap heap' : Heap} {cr3 : BitVec 64}
    (hbuild : buildIdentityMap2M (some info) heap = (some cr3, heap')) :
    ReservedUncached info heap'.memory cr3 ↔
      ∀ phys, MappedPage info phys → MeetsReserved info phys →
        ∃ j < info.reservedRegionCount.toNat, (info.reservedMemory j).stop < 2 ^ 64 ∧
          (info.reservedMemory j).Contains phys := by
  obtain ⟨rfl, htables⟩ := build_tables hbuild
  have hgibs := htables.gibs_le
  constructor
  · intro huncached phys hmapped hmeets
    obtain ⟨g, hg, i, hi, rfl, hlimit⟩ := mappedPage_iff.1 hmapped
    obtain ⟨hpresent, hframe, hdisable, -⟩ := htables.leafEntry_fields hg hi hlimit
    have hleaf := (huncached g hg i hi hpresent).1 (by rw [hframe]; exact hmeets)
    rw [hdisable, isMMIORegion_iff, toNat_directoryPhys (by omega) hi] at hleaf
    exact hleaf.1
  · intro hstarts g hg i hi hpresent
    have hlimit : g * 2 ^ 30 + i * 2 ^ 21 < (mapLimit info).toNat := by
      by_contra hpast
      rw [htables.leafEntry_eq hg hi, if_neg hpast] at hpresent
      cases hpresent
    obtain ⟨-, hframe, hdisable, hthrough⟩ := htables.leafEntry_fields hg hi hlimit
    have hphys := toNat_directoryPhys (show g < 512 by omega) hi
    rw [hframe, hdisable, hthrough]
    refine ⟨fun hmeets => ?_, fun hnone => ?_⟩
    · have hmapped := mappedPage_iff.2 ⟨g, hg, i, hi, rfl, hlimit⟩
      have hreserved : isMMIORegion (directoryPhys g i) info = true := by
        rw [isMMIORegion_iff, hphys]
        exact hstarts _ hmapped hmeets
      exact ⟨hreserved, hreserved⟩
    · have hfree : isMMIORegion (directoryPhys g i) info = false := by
        rw [← Bool.not_eq_true]
        intro hfound
        have hmeets := meets_of_isMMIORegion hfound
        rw [hphys] at hmeets
        exact hnone hmeets
      exact ⟨hfree, hfree⟩

/-- A free region from 1 MiB to 2 MiB, and one reserved region. -/
def megabyteAndReserved (reserved : MemoryRegion) : MemoryInfo where
  freeMemory := fun _ => ⟨0x100000#64, 0x100000#64⟩
  freeRegionCount := 1#64
  reservedMemory := fun _ => reserved
  reservedRegionCount := 1#64

theorem build_megabyteAndReserved :
    (buildIdentityMap2M (some (megabyteAndReserved ⟨0x200000#64, 0x200000#64⟩))
      ⟨sevenPages, fun _ => 0⟩).1 = some 4096#64 := by
  decide +kernel

/-- A reserved region that fills a 2 MiB page is uncached, and the page before it is not. -/
theorem reserved_uncached_aligned :
    ∃ heap', buildIdentityMap2M (some (megabyteAndReserved ⟨0x200000#64, 0x200000#64⟩))
        ⟨sevenPages, fun _ => 0⟩ = (some 4096#64, heap') ∧
      ReservedUncached (megabyteAndReserved ⟨0x200000#64, 0x200000#64⟩) heap'.memory 4096#64 := by
  obtain ⟨heap', hbuild⟩ := exists_build build_megabyteAndReserved
  refine ⟨heap', hbuild, (reserved_uncached_iff hbuild).2 ?_⟩
  rintro phys hmapped ⟨j, hj, address, ⟨hlow, hhigh⟩, hstart, hend⟩
  have hlow : 0x200000 ≤ address := hlow
  have hhigh : address < 0x200000 + 0x200000 := hhigh
  obtain ⟨page, rfl⟩ := hmapped.aligned
  refine ⟨j, hj, show 0x200000 + 0x200000 < 2 ^ 64 by omega, ?_, ?_⟩
  · show 0x200000 ≤ 2 ^ 21 * page
    omega
  · show 2 ^ 21 * page < 0x200000 + 0x200000
    omega

/-- The video memory below 1 MiB is mapped cacheable, since its 2 MiB page does not start in
reserved memory. -/
theorem video_memory_cached :
    ∃ heap', buildIdentityMap2M (some (megabyteAndReserved ⟨0xA0000#64, 0x60000#64⟩))
        ⟨sevenPages, fun _ => 0⟩ = (some 4096#64, heap') ∧
      MeetsReserved (megabyteAndReserved ⟨0xA0000#64, 0x60000#64⟩) 0 ∧
      frame 21 (leafEntry heap'.memory 4096#64 0 0) = 0 ∧
      cacheDisable (leafEntry heap'.memory 4096#64 0 0) = false ∧
      ¬ ReservedUncached (megabyteAndReserved ⟨0xA0000#64, 0x60000#64⟩) heap'.memory 4096#64 := by
  have hcr3 : (buildIdentityMap2M (some (megabyteAndReserved ⟨0xA0000#64, 0x60000#64⟩))
      ⟨sevenPages, fun _ => 0⟩).1 = some 4096#64 := by
    decide +kernel
  obtain ⟨heap', hbuild⟩ := exists_build hcr3
  obtain ⟨hpage, htables⟩ := build_tables hbuild
  have hgibs : (gibCount (megabyteAndReserved ⟨0xA0000#64, 0x60000#64⟩)).toNat = 1 := by decide
  have hlimit : (mapLimit (megabyteAndReserved ⟨0xA0000#64, 0x60000#64⟩)).toNat = 2 ^ 21 := by
    decide
  have hmeets : MeetsReserved (megabyteAndReserved ⟨0xA0000#64, 0x60000#64⟩) 0 :=
    ⟨0, show 0 < 1 by omega, 0xA0000, ⟨Nat.le_refl _, show 0xA0000 < 0xA0000 + 0x60000 by omega⟩,
      by omega, by omega⟩
  obtain ⟨hpresent, hframe, hdisable, -⟩ := @IdentityTables.leafEntry_fields _ _ _ _ 0 0 htables
    (by rw [hgibs]; omega) (by omega) (by rw [hlimit]; omega)
  rw [← hpage] at hpresent hframe hdisable
  have hcached : cacheDisable (leafEntry heap'.memory 4096#64 0 0) = false :=
    hdisable.trans (by decide)
  refine ⟨heap', hbuild, hmeets, hframe, hcached, fun huncached => ?_⟩
  have hleaf := (huncached 0 (by rw [hgibs]; omega) 0 (by omega) hpresent).1
    (by rw [hframe]; exact hmeets)
  rw [hcached] at hleaf
  cases hleaf.1

end HailOS.X86
