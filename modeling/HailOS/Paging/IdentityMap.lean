import Mathlib.Order.Bounds.Basic
import HailOS.Paging.Tables

/-!
# The page tables implement the identity map

A page walk through the tables of `BuildIdentityMap2M` resolves every address below the limit to
itself, through a writable 2 MiB page. The limit is the highest end of a reported region, rounded
up to 2 MiB, so every page that `ParseMemoryInfo` marks free is mapped.
-/

namespace HailOS.X86

open Lib Kernel Early PageWalk

/-- The ends of all reported regions. -/
def regionEnds (info : MemoryInfo) : Set Nat :=
  { stop | (∃ i < info.freeRegionCount.toNat, (info.freeMemory i).stop = stop) ∨
    ∃ i < info.reservedRegionCount.toNat, (info.reservedMemory i).stop = stop }

/-! ## The highest end -/

/-- The loop finds the greatest of its start value and the ends it passes. -/
theorem calcMaxPhysLoop_greatest (regions : Nat → MemoryRegion) (count i : Nat) (max : BitVec 64)
    (hwrap : ∀ j, i ≤ j → j < i + count → (regions j).stop < 2 ^ 64) :
    (max.toNat ≤ (calcMaxPhysLoop regions count i max).toNat ∧
      ∀ j, i ≤ j → j < i + count →
        (regions j).stop ≤ (calcMaxPhysLoop regions count i max).toNat) ∧
      ((calcMaxPhysLoop regions count i max).toNat = max.toNat ∨
        ∃ j, i ≤ j ∧ j < i + count ∧
          (regions j).stop = (calcMaxPhysLoop regions count i max).toNat) := by
  induction count generalizing i max with
  | zero => exact ⟨⟨Nat.le_refl _, fun j hlow hhigh => by omega⟩, .inl rfl⟩
  | succ count ih =>
      have hstop : ((regions i).base + (regions i).length).toNat = (regions i).stop := by
        rw [BitVec.toNat_add]
        exact Nat.mod_eq_of_lt (hwrap i (by omega) (by omega))
      rw [calcMaxPhysLoop]
      obtain ⟨⟨hstart, hends⟩, hattained⟩ := ih (i + 1)
        (if max < (regions i).base + (regions i).length then
          (regions i).base + (regions i).length else max)
        (fun j hlow hhigh => hwrap j (by omega) (by omega))
      have hnext : max.toNat ≤ (if max < (regions i).base + (regions i).length then
          (regions i).base + (regions i).length else max).toNat ∧
          (regions i).stop ≤ (if max < (regions i).base + (regions i).length then
            (regions i).base + (regions i).length else max).toNat := by
        split
        · next hlt =>
            rw [BitVec.lt_def, hstop] at hlt
            omega
        · next hlt =>
            rw [BitVec.lt_def, hstop] at hlt
            omega
      refine ⟨⟨by omega, fun j hlow hhigh => ?_⟩, ?_⟩
      · by_cases hj : j = i
        · subst hj
          omega
        · exact hends j (by omega) (by omega)
      · rcases hattained with heq | ⟨j, hlow, hhigh, hj⟩
        · rw [heq]
          split
          · exact .inr ⟨i, by omega, by omega, hstop.symm⟩
          · exact .inl rfl
        · exact .inr ⟨j, by omega, by omega, hj⟩

/-- `CalcMaxPhys` is the highest end of a region, or 0, if no region wraps around. -/
theorem isGreatest_calcMaxPhys {info : MemoryInfo}
    (hwrap : ∀ stop ∈ regionEnds info, stop < 2 ^ 64) :
    IsGreatest (insert 0 (regionEnds info)) (calcMaxPhys info).toNat := by
  have hfree := calcMaxPhysLoop_greatest info.freeMemory info.freeRegionCount.toNat 0 0#64
    fun j _ hj => hwrap _ (.inl ⟨j, by omega, rfl⟩)
  have hreserved := calcMaxPhysLoop_greatest info.reservedMemory info.reservedRegionCount.toNat 0
    (calcMaxPhysLoop info.freeMemory info.freeRegionCount.toNat 0 0#64)
    fun j _ hj => hwrap _ (.inr ⟨j, by omega, rfl⟩)
  show IsGreatest _ (calcMaxPhysLoop info.reservedMemory info.reservedRegionCount.toNat 0
    (calcMaxPhysLoop info.freeMemory info.freeRegionCount.toNat 0 0#64)).toNat
  constructor
  · rcases hreserved.2 with heq | ⟨j, _, hj, hstop⟩
    · rw [heq]
      rcases hfree.2 with hzero | ⟨j, _, hj, hstop⟩
      · rw [hzero]
        exact .inl rfl
      · exact .inr (.inl ⟨j, by omega, hstop⟩)
    · exact .inr (.inr ⟨j, by omega, hstop⟩)
  · rintro stop (rfl | ⟨j, hj, rfl⟩ | ⟨j, hj, rfl⟩)
    · exact Nat.zero_le _
    · exact Nat.le_trans (hfree.1.2 j (by omega) (by omega)) hreserved.1.1
    · exact hreserved.1.2 j (by omega) (by omega)

theorem toNat_calcMaxPhys {info : MemoryInfo} {top : Nat}
    (htop : IsGreatest (insert 0 (regionEnds info)) top) (hbound : top < 2 ^ 64) :
    (calcMaxPhys info).toNat = top :=
  (isGreatest_calcMaxPhys fun _ hstop =>
    Nat.lt_of_le_of_lt (htop.2 (.inr hstop)) hbound).unique htop

/-! ## The walk -/

/-- Everything the hardware reads off an entry for a table. -/
theorem tableEntry_fields {table : Nat} (haligned : 4096 ∣ table) (hbound : table < 2 ^ 52) :
    present (tableEntry table) = true ∧ writable (tableEntry table) = true ∧
      large (tableEntry table) = false ∧ frame 12 (tableEntry table) = table := by
  have hvalue := toNat_tableEntry haligned hbound
  obtain ⟨page, rfl⟩ := haligned
  refine ⟨present_iff.mpr (by omega), writable_iff.mpr (by omega), ?_, ?_⟩
  · rw [← Bool.not_eq_true, large_iff]
    omega
  · rw [frame, hvalue]
    omega

/-- Everything the hardware reads off an entry of a directory. -/
theorem directoryEntry_fields (info : MemoryInfo) {phys : BitVec 64}
    (haligned : 2 ^ 21 ∣ phys.toNat) (hbound : phys.toNat < 2 ^ 52) :
    present (directoryEntry info phys) = true ∧ writable (directoryEntry info phys) = true ∧
      large (directoryEntry info phys) = true ∧
      (directoryEntry info phys).toNat / 2 ^ 13 % 2 ^ (21 - 13) = 0 ∧
      frame 21 (directoryEntry info phys) = phys.toNat := by
  have hvalue := toNat_directoryEntry info haligned
  obtain ⟨page, hpage⟩ := haligned
  refine ⟨present_iff.mpr (by omega), writable_iff.mpr (by omega), large_iff.mpr (by omega),
    by omega, ?_⟩
  rw [frame]
  omega

/-- Pages of the sequence are aligned and lie below 64 GiB. -/
theorem nthPage_aligned (bitmap : PageBitmap) (k : Nat) :
    4096 ∣ nthPage bitmap k ∧ nthPage bitmap k < 2 ^ 36 := by
  by_cases hnull : nthPage bitmap k = 0
  · rw [hnull]
    exact ⟨⟨0, rfl⟩, by omega⟩
  · have hfresh := nthPage_fresh hnull
    exact ⟨hfresh.aligned, hfresh.bound⟩

/-- CR3 leads to the PML4. -/
theorem frame_cr3 (bitmap : PageBitmap) :
    frame 12 (BitVec.ofNat 64 (nthPage bitmap 0)) = nthPage bitmap 0 := by
  obtain ⟨⟨page, hpage⟩, hbound⟩ := nthPage_aligned bitmap 0
  rw [frame, BitVec.toNat_ofNat]
  omega

/-- The first entry of the PML4, as the hardware reads it. -/
theorem IdentityTables.pml4_entry {info : MemoryInfo} {bitmap : PageBitmap}
    {before memory : Memory} (h : IdentityTables info bitmap before memory) :
    entryAt memory (nthPage bitmap 0) 0 = tableEntry (nthPage bitmap 1) :=
  h.pml4_first

section Below

variable {info : MemoryInfo} {bitmap : PageBitmap} {before memory : Memory} {v : Nat}

/-- The directory entry that an address below the limit selects, by its offset in the 512 GiB
that the PDPT covers. -/
theorem IdentityTables.directory_entry (h : IdentityTables info bitmap before memory)
    (hv : v % 2 ^ 39 < (mapLimit info).toNat)
    (hlimit : (mapLimit info).toNat ≤ (gibCount info).toNat * 2 ^ 30) :
    entryAt memory (nthPage bitmap 1) (tableIndex 30 v) =
        tableEntry (nthPage bitmap (tableIndex 30 v + 2)) ∧
      entryAt memory (nthPage bitmap (tableIndex 30 v + 2)) (tableIndex 21 v) =
        directoryEntry info (directoryPhys (tableIndex 30 v) (tableIndex 21 v)) := by
  have haddress : tableIndex 30 v * 2 ^ 30 + tableIndex 21 v * 2 ^ 21 ≤ v % 2 ^ 39 ∧
      v % 2 ^ 39 < (tableIndex 30 v + 1) * 2 ^ 30 := by
    unfold tableIndex
    omega
  have hgib : tableIndex 30 v < (gibCount info).toNat := by omega
  refine ⟨h.pdpt_mapped _ hgib, ?_⟩
  rw [entryAt, h.pd_entry _ hgib _ (tableIndex_lt 21 v), if_pos (by omega)]

/-- From the PDPT on, the walk of an address whose offset lies below the limit ends in a
writable 2 MiB page at that offset. -/
theorem IdentityTables.walkPdpt_below (h : IdentityTables info bitmap before memory)
    (hv : v % 2 ^ 39 < (mapLimit info).toNat)
    (hlimit : (mapLimit info).toNat ≤ (gibCount info).toNat * 2 ^ 30) :
    walkPdpt memory (nthPage bitmap 1) v true = .mapped (v % 2 ^ 39) true .mib2 := by
  obtain ⟨hpdpte, hpde⟩ := h.directory_entry hv hlimit
  obtain ⟨hpdAligned, hpdBound⟩ := nthPage_aligned bitmap (tableIndex 30 v + 2)
  obtain ⟨hpresent₂, hwritable₂, hlarge₂, hframe₂⟩ :=
    tableEntry_fields hpdAligned (Nat.lt_trans hpdBound (by omega))
  have hphys := toNat_directoryPhys (tableIndex_lt 30 v) (tableIndex_lt 21 v)
  have haddress : tableIndex 30 v * 2 ^ 30 + tableIndex 21 v * 2 ^ 21 + v % 2 ^ 21 =
      v % 2 ^ 39 := by
    unfold tableIndex
    omega
  obtain ⟨hpresent, hwritable, hlarge, hreserved, hframe⟩ := directoryEntry_fields info
    (show 2 ^ 21 ∣ (directoryPhys (tableIndex 30 v) (tableIndex 21 v)).toNat by
      rw [hphys]; omega) (by rw [hphys]; omega)
  rw [walkPdpt, hpdpte, descend_next hpresent₂ hlarge₂, hframe₂, walkPd, hpde,
    descend_leaf hpresent hlarge, largeLeaf, if_neg (not_not_intro hreserved), hframe, hphys,
    haddress, hwritable, hwritable₂, Bool.and_self, Bool.and_self]

/-- Below the limit, the walk ends in a writable 2 MiB page that maps the address to itself. -/
theorem IdentityTables.walk_below (h : IdentityTables info bitmap before memory)
    (hv : v < (mapLimit info).toNat)
    (hlimit : (mapLimit info).toNat ≤ (gibCount info).toNat * 2 ^ 30) :
    walk memory (BitVec.ofNat 64 (nthPage bitmap 0)) v = .mapped v true .mib2 := by
  have hgibs := h.gibs_le
  have hoffset : v % 2 ^ 39 = v := by omega
  have hindex : tableIndex 39 v = 0 := by
    unfold tableIndex
    omega
  obtain ⟨hpdptAligned, hpdptBound⟩ := nthPage_aligned bitmap 1
  obtain ⟨hpresent, hwritable, hlarge, hframe⟩ :=
    tableEntry_fields hpdptAligned (Nat.lt_trans hpdptBound (by omega))
  rw [walk, frame_cr3, hindex, h.pml4_entry, descend_next hpresent hlarge, hframe, hwritable,
    h.walkPdpt_below (by rw [hoffset]; exact hv) hlimit, hoffset]

end Below

/-- The tables of a successful `BuildIdentityMap2M` resolve every address below the highest region
end, rounded up to 2 MiB, to itself through a writable 2 MiB page. In particular they do so for
every page that `ParseMemoryInfo` marks free. -/
theorem identity_map_resolves {info : MemoryInfo} {heap heap' : Heap} {cr3 : BitVec 64} {top : Nat}
    (htop : IsGreatest (insert 0 (regionEnds info)) top) (hbound : top ≤ 512 * 2 ^ 30)
    (hbuild : buildIdentityMap2M (some info) heap = (some cr3, heap')) :
    (∀ v < (top + (2 ^ 21 - 1)) / 2 ^ 21 * 2 ^ 21,
        walk heap'.memory cr3 v = .mapped v true .mib2) ∧
      ∀ bitmap, ∀ k < pageTotal,
        bitAt (parseMemoryInfo { bitmap := bitmap } info).bitmap k = unusedBit →
        ∀ v, 4096 * k ≤ v → v < 4096 * k + 4096 →
          walk heap'.memory cr3 v = .mapped v true .mib2 := by
  obtain ⟨rfl, htables⟩ := build_tables hbuild
  have hmax := toNat_calcMaxPhys htop (by omega)
  have hlimit : (mapLimit info).toNat = (top + (2 ^ 21 - 1)) / 2 ^ 21 * 2 ^ 21 := by
    rw [toNat_mapLimit, hmax, Nat.mod_eq_of_lt (by omega)]
  have hgibs : (mapLimit info).toNat ≤ (gibCount info).toNat * 2 ^ 30 := by
    rw [hlimit, toNat_gibCount, hmax]
    omega
  have hwalk : ∀ v < (top + (2 ^ 21 - 1)) / 2 ^ 21 * 2 ^ 21,
      walk heap'.memory (BitVec.ofNat 64 (nthPage heap.bitmap 0)) v = .mapped v true .mib2 :=
    fun v hv => htables.walk_below (by rw [hlimit]; exact hv) hgibs
  refine ⟨hwalk, fun bitmap k hk hfree v hlow hhigh => hwalk v ?_⟩
  have hends : ∀ i < info.freeRegionCount.toNat, (info.freeMemory i).stop ≤ top :=
    fun i hi => htop.2 (.inr (.inl ⟨i, hi, rfl⟩))
  obtain ⟨_, i, hi, hpage⟩ := parseMemoryInfo_free bitmap info
    (fun i hi => Nat.le_trans (hends i hi) (by omega)) hk hfree
  have hend := hends i hi
  have hstop := hpage.2
  omega

/-- The heap that a successful build leaves, given the table it returns. -/
theorem exists_build {info : Option MemoryInfo} {heap : Heap} {cr3 : BitVec 64}
    (h : (buildIdentityMap2M info heap).1 = some cr3) :
    ∃ heap', buildIdentityMap2M info heap = (some cr3, heap') :=
  ⟨(buildIdentityMap2M info heap).2, Prod.ext_iff.mpr ⟨h, rfl⟩⟩

/-- One free region, from 1 MiB to 2 MiB, and no reserved one. -/
def oneMegabyte : MemoryInfo where
  freeMemory := fun _ => ⟨0x100000#64, 0x100000#64⟩
  freeRegionCount := 1#64
  reservedMemory := fun _ => ⟨0#64, 0#64⟩
  reservedRegionCount := 0#64

theorem build_oneMegabyte :
    (buildIdentityMap2M (some oneMegabyte) ⟨sevenPages, fun _ => 0⟩).1 = some 4096#64 := by
  decide +kernel

theorem identity_map_resolves_one_megabyte :
    ∃ heap', buildIdentityMap2M (some oneMegabyte) ⟨sevenPages, fun _ => 0⟩ =
        (some 4096#64, heap') ∧
      walk heap'.memory 4096#64 0x123456 = .mapped 0x123456 true .mib2 := by
  have htop : IsGreatest (insert 0 (regionEnds oneMegabyte)) 0x200000 := by
    have hstop : ∀ i, (oneMegabyte.freeMemory i).stop = 0x200000 := fun _ => by
      simp [oneMegabyte, MemoryRegion.stop]
    refine ⟨.inr (.inl ⟨0, by decide, hstop 0⟩), ?_⟩
    rintro stop (rfl | ⟨i, _, rfl⟩ | ⟨i, hi, rfl⟩)
    · exact Nat.zero_le _
    · exact Nat.le_of_eq (hstop i)
    · exact absurd hi (Nat.not_lt_zero i)
  obtain ⟨heap', hbuild⟩ := exists_build build_oneMegabyte
  exact ⟨heap', hbuild, (identity_map_resolves htop (by omega) hbuild).1 0x123456 (by omega)⟩

end HailOS.X86
