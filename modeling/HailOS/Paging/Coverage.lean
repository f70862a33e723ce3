import HailOS.Paging.Caching

/-!
# Coverage of the reported memory

`BuildIdentityMap2M` is to fail if the memory map reaches above the 512 GiB that one PDPT covers.
The check is made on the highest region end after rounding it up to a GiB, in 64-bit arithmetic.
An end in the last GiB of the address space rounds up to 0, and the function then succeeds with
no directory at all. `covers_regions_iff` says that this is the only case in which reported memory
is left out.
-/

namespace HailOS.X86

open Lib Kernel Early PageWalk

/-- The address is a byte of a free or of a reserved region. -/
def ReportedByte (info : MemoryInfo) (v : Nat) : Prop :=
  (∃ i < info.freeRegionCount.toNat, (info.freeMemory i).Contains v) ∨
    ∃ i < info.reservedRegionCount.toNat, (info.reservedMemory i).Contains v

/-- Every reported byte is mapped to itself, and no region ends above 512 GiB. -/
structure CoversRegions (info : MemoryInfo) (memory : Memory) (cr3 : BitVec 64) : Prop where
  mapped : ∀ v, ReportedByte info v → walk memory cr3 v = .mapped v true .mib2
  ends : ∀ stop ∈ regionEnds info, stop ≤ 512 * 2 ^ 30

/-- A reported byte lies below the end of its region. -/
theorem ReportedByte.exists_end {info : MemoryInfo} {v : Nat} (h : ReportedByte info v) :
    ∃ stop ∈ regionEnds info, v < stop := by
  rcases h with ⟨i, hi, hcontains⟩ | ⟨i, hi, hcontains⟩
  · exact ⟨_, .inl ⟨i, hi, rfl⟩, hcontains.2⟩
  · exact ⟨_, .inr ⟨i, hi, rfl⟩, hcontains.2⟩

/-- If rounding up to a GiB does not wrap around, the check bounds the highest end. -/
theorem calcMaxPhys_le_of_gibs {info : MemoryInfo}
    (hround : (calcMaxPhys info).toNat ≤ 2 ^ 64 - 2 ^ 30)
    (hgibs : (gibCount info).toNat ≤ 512) : (calcMaxPhys info).toNat ≤ 512 * 2 ^ 30 := by
  rw [toNat_gibCount] at hgibs
  omega

/-- If rounding up to a GiB does not wrap around, everything below the highest end lies below
the limit, and the directories reach the limit. -/
theorem calcMaxPhys_le_mapLimit {info : MemoryInfo}
    (hround : (calcMaxPhys info).toNat ≤ 2 ^ 64 - 2 ^ 30) :
    (calcMaxPhys info).toNat ≤ (mapLimit info).toNat ∧
      (mapLimit info).toNat ≤ (gibCount info).toNat * 2 ^ 30 := by
  rw [toNat_mapLimit, toNat_gibCount]
  omega

/-- No region wraps around. A successful `BuildIdentityMap2M` maps every reported byte, and no
region ends above 512 GiB, exactly if no region ends in the last GiB of the address space. -/
theorem covers_regions_iff {info : MemoryInfo} {heap heap' : Heap} {cr3 : BitVec 64}
    (hwrap : ∀ stop ∈ regionEnds info, stop < 2 ^ 64)
    (hbuild : buildIdentityMap2M (some info) heap = (some cr3, heap')) :
    CoversRegions info heap'.memory cr3 ↔
      ∀ stop ∈ regionEnds info, stop ≤ 2 ^ 64 - 2 ^ 30 := by
  obtain ⟨rfl, htables⟩ := build_tables hbuild
  have hgreatest := isGreatest_calcMaxPhys hwrap
  constructor
  · intro hcovers stop hstop
    have hend := hcovers.ends stop hstop
    omega
  · intro hends
    have hround : (calcMaxPhys info).toNat ≤ 2 ^ 64 - 2 ^ 30 := by
      rcases hgreatest.1 with hzero | hattained
      · rw [hzero]
        exact Nat.zero_le _
      · exact hends _ hattained
    obtain ⟨hbelow, hreach⟩ := calcMaxPhys_le_mapLimit hround
    refine ⟨fun v hv => ?_, fun stop hstop => ?_⟩
    · obtain ⟨stop, hstop, hlt⟩ := hv.exists_end
      have hmax : stop ≤ (calcMaxPhys info).toNat := hgreatest.2 (.inr hstop)
      exact htables.walk_below (by omega) hreach
    · exact Nat.le_trans (hgreatest.2 (.inr hstop))
        (calcMaxPhys_le_of_gibs hround htables.gibs_le)

/-- The ends of the regions of a map with one reserved region. -/
theorem regionEnds_megabyteAndReserved {reserved : MemoryRegion} {stop : Nat}
    (h : stop ∈ regionEnds (megabyteAndReserved reserved)) :
    stop = 0x200000 ∨ stop = reserved.stop := by
  rcases h with ⟨_, _, rfl⟩ | ⟨_, _, rfl⟩
  · exact .inl (show 0x100000 + 0x100000 = _ by omega)
  · exact .inr rfl

theorem covers_regions_aligned :
    ∃ heap', buildIdentityMap2M (some (megabyteAndReserved ⟨0x200000#64, 0x200000#64⟩))
        ⟨sevenPages, fun _ => 0⟩ = (some 4096#64, heap') ∧
      CoversRegions (megabyteAndReserved ⟨0x200000#64, 0x200000#64⟩) heap'.memory 4096#64 := by
  obtain ⟨heap', hbuild⟩ := exists_build build_megabyteAndReserved
  have hends : ∀ stop ∈ regionEnds (megabyteAndReserved ⟨0x200000#64, 0x200000#64⟩),
      stop ≤ 0x400000 := by
    intro stop hstop
    rcases regionEnds_megabyteAndReserved hstop with rfl | rfl
    · omega
    · exact show 0x200000 + 0x200000 ≤ 0x400000 by omega
  refine ⟨heap', hbuild, (covers_regions_iff (fun stop hstop => ?_) hbuild).2 ?_⟩
  · have := hends stop hstop
    omega
  · intro stop hstop
    have := hends stop hstop
    omega

/-- With a reserved region in the last MiB of the address space the function succeeds, and maps
no reported byte. -/
theorem last_gib_maps_nothing :
    let info := megabyteAndReserved ⟨0xFFFFFFFFFFF00000#64, 0xFFFFF#64⟩
    (∀ stop ∈ regionEnds info, stop < 2 ^ 64) ∧
      ∃ heap', buildIdentityMap2M (some info) ⟨sevenPages, fun _ => 0⟩ = (some 4096#64, heap') ∧
        ReportedByte info 0x123456 ∧ walk heap'.memory 4096#64 0x123456 = .notPresent ∧
        (∃ stop ∈ regionEnds info, 512 * 2 ^ 30 < stop) ∧
        ¬ CoversRegions info heap'.memory 4096#64 := by
  intro info
  have hstop : (info.reservedMemory 0).stop = 2 ^ 64 - 1 :=
    show 0xFFFFFFFFFFF00000 + 0xFFFFF = _ by omega
  have hwrap : ∀ stop ∈ regionEnds info, stop < 2 ^ 64 := by
    intro stop hend
    rcases regionEnds_megabyteAndReserved hend with rfl | rfl
    · omega
    · exact Nat.lt_of_le_of_lt (Nat.le_of_eq hstop) (by omega)
  have hreported : ReportedByte info 0x123456 :=
    .inl ⟨0, show 0 < 1 by omega, show 0x100000 ≤ 0x123456 by omega,
      show 0x123456 < 0x100000 + 0x100000 by omega⟩
  have hcr3 : (buildIdentityMap2M (some info) ⟨sevenPages, fun _ => 0⟩).1 = some 4096#64 := by
    decide +kernel
  have hwalk : walk (buildIdentityMap2M (some info) ⟨sevenPages, fun _ => 0⟩).2.memory 4096#64
      0x123456 = .notPresent := by
    decide +kernel
  refine ⟨hwrap, _, Prod.ext_iff.mpr ⟨hcr3, rfl⟩, hreported, hwalk, ?_, fun hcovers => ?_⟩
  · exact ⟨_, .inr ⟨0, show 0 < 1 by omega, rfl⟩, by rw [hstop]; omega⟩
  · have hmapped := hcovers.mapped _ hreported
    rw [hwalk] at hmapped
    cases hmapped

end HailOS.X86
