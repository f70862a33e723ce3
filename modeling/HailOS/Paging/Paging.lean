import HailOS.Lib.PageWalk
import HailOS.Memory.NewDelete

/-!
# The identity map

`BuildIdentityMap2M` builds page tables that map all reported memory to itself with 2 MiB pages,
after `Arch/x86_64/Paging/Paging.cpp`. It takes one page for the top-level table (PML4), one for
the second level (PDPT) and one page directory for every GiB from the early page allocator, and
writes the entries into memory. Only the directories are cleared first.

This module has the functions of the source and the arithmetic of sizes and entries. What the
loops leave in memory is the subject of `HailOS.Paging.Tables`.
-/

namespace HailOS.X86

open Lib Kernel Early

/-- `PG_P`. -/
def pgP : BitVec 64 := 1#64 <<< 0

/-- `PG_RW`. -/
def pgRw : BitVec 64 := 1#64 <<< 1

/-- `PG_PS`. -/
def pgPs : BitVec 64 := 1#64 <<< 7

/-- `PG_PWT`. -/
def pgPwt : BitVec 64 := 1#64 <<< 3

/-- `PG_PCD`. -/
def pgPcd : BitVec 64 := 1#64 <<< 4

/-- `PG_ADDR_MASK`. -/
def pgAddrMask : BitVec 64 := 0x000FFFFFFFFFF000#64

/-- `PAGE_4K`. -/
def page4K : Nat := 0x1000

/-- `PAGE_2M`. -/
def page2M : BitVec 64 := 0x200000#64

/-- `PAGE_1G`. -/
def page1G : BitVec 64 := 0x40000000#64

/-- `ENTIRIES`. -/
def entiries : Nat := 512

/-- `AlignUp`. -/
def alignUp (addr align : BitVec 64) : BitVec 64 := (addr + align - 1#64) &&& ~~~(align - 1#64)

/-- A loop of `CalcMaxPhys` over one of the two region arrays. -/
def calcMaxPhysLoop (regions : Nat → MemoryRegion) : (count i : Nat) → BitVec 64 → BitVec 64
  | 0, _, max => max
  | count + 1, i, max =>
      let stop := (regions i).base + (regions i).length
      calcMaxPhysLoop regions count (i + 1) (if max < stop then stop else max)

/-- `CalcMaxPhys`. -/
def calcMaxPhys (info : MemoryInfo) : BitVec 64 :=
  calcMaxPhysLoop info.reservedMemory info.reservedRegionCount.toNat 0
    (calcMaxPhysLoop info.freeMemory info.freeRegionCount.toNat 0 0#64)

/-- The loop of `IsMMIORegion`. -/
def isMMIORegionLoop (phys : BitVec 64) (regions : Nat → MemoryRegion) :
    (count i : Nat) → Bool
  | 0, _ => false
  | count + 1, i =>
      let base := (regions i).base
      let stop := base + (regions i).length
      if base ≤ phys ∧ phys < stop then true else isMMIORegionLoop phys regions count (i + 1)

/-- `IsMMIORegion`. -/
def isMMIORegion (phys : BitVec 64) (info : MemoryInfo) : Bool :=
  isMMIORegionLoop phys info.reservedMemory info.reservedRegionCount.toNat 0

/-- An entry that points to the table at `table`. -/
def tableEntry (table : Nat) : BitVec 64 := (BitVec.ofNat 64 table &&& pgAddrMask) ||| pgP ||| pgRw

/-- The directory entry for the 2 MiB from `phys` on. Reserved memory is not cached. -/
def directoryEntry (info : MemoryInfo) (phys : BitVec 64) : BitVec 64 :=
  let flags := pgP ||| pgRw ||| pgPs
  let flags := if isMMIORegion phys info then flags ||| (pgPcd ||| pgPwt) else flags
  (phys &&& 0xFFFFFFFFFFE00000#64) ||| flags

/-- The inner loop of `BuildIdentityMap2M`: fill the directory at `pd`, up to `lim`. -/
def fillDirectoryLoop (info : MemoryInfo) (lim base : BitVec 64) (pd : Nat) :
    (count i : Nat) → Memory → Memory
  | 0, _, memory => memory
  | count + 1, i, memory =>
      let phys := base + BitVec.ofNat 64 i * page2M
      if lim ≤ phys then memory
      else
        fillDirectoryLoop info lim base pd count (i + 1)
          (Memory.store64 memory (pd + 8 * i) (directoryEntry info phys))

/-- The outer loop of `BuildIdentityMap2M`: one directory for every GiB. It gives up if there is
no page left. -/
def mapGibLoop (info : MemoryInfo) (lim : BitVec 64) (pdpt : Nat) :
    (count g : Nat) → Heap → Bool × Heap
  | 0, _, heap => (true, heap)
  | count + 1, g, heap =>
      let pd := (allocatePage heap.bitmap).1
      let bitmap := (allocatePage heap.bitmap).2
      if pd = 0 then (false, { heap with bitmap := bitmap })
      else
        let memory := fillMemory heap.memory pd page4K 0
        let memory := Memory.store64 memory (pdpt + 8 * g) (tableEntry pd)
        let memory :=
          fillDirectoryLoop info lim (BitVec.ofNat 64 g * page1G) pd entiries 0 memory
        mapGibLoop info lim pdpt count (g + 1) ⟨bitmap, memory⟩

/-- The end of the map, `lim` in the source. -/
def mapLimit (info : MemoryInfo) : BitVec 64 := alignUp (calcMaxPhys info) page2M

/-- The number of directories, `gibCount` in the source. -/
def gibCount (info : MemoryInfo) : BitVec 64 := alignUp (calcMaxPhys info) page1G / page1G

/-- `BuildIdentityMap2M`. The result is the value for CR3, or `none` if it returns false. The
source tests `pml4` a second time where it means `pdpt`. -/
def buildIdentityMap2M (info : Option MemoryInfo) (heap : Heap) : Option (BitVec 64) × Heap :=
  match info with
  | none => (none, heap)
  | some info =>
      if BitVec.ofNat 64 entiries < gibCount info then (none, heap)
      else
        let pml4 := (allocatePage heap.bitmap).1
        let bitmap := (allocatePage heap.bitmap).2
        if pml4 = 0 then (none, { heap with bitmap := bitmap })
        else
          let pdpt := (allocatePage bitmap).1
          let bitmap := (allocatePage bitmap).2
          if pml4 = 0 then (none, { heap with bitmap := bitmap })
          else
            let memory := Memory.store64 heap.memory (pml4 + 8 * 0) (tableEntry pdpt)
            let result := mapGibLoop info (mapLimit info) pdpt (gibCount info).toNat 0
              ⟨bitmap, memory⟩
            if result.1 then (some (BitVec.ofNat 64 pml4), result.2) else (none, result.2)

/-! ## Arithmetic -/

/-- Rounding up to a power of two, modulo the word size. -/
theorem toNat_alignUp (addr : BitVec 64) {k : Nat} (hk : k < 64) :
    (alignUp addr (BitVec.ofNat 64 (2 ^ k))).toNat =
      (addr.toNat + (2 ^ k - 1)) % 2 ^ 64 / 2 ^ k * 2 ^ k := by
  have hassoc : addr + BitVec.ofNat 64 (2 ^ k) - 1#64 =
      addr + (BitVec.ofNat 64 (2 ^ k) - 1#64) := add_sub_assoc _ _ _
  rw [alignUp, hassoc, toNat_align_up addr hk]

theorem toNat_mapLimit (info : MemoryInfo) :
    (mapLimit info).toNat =
      ((calcMaxPhys info).toNat + (2 ^ 21 - 1)) % 2 ^ 64 / 2 ^ 21 * 2 ^ 21 :=
  toNat_alignUp (calcMaxPhys info) (k := 21) (by omega)

theorem toNat_gibCount (info : MemoryInfo) :
    (gibCount info).toNat = ((calcMaxPhys info).toNat + (2 ^ 30 - 1)) % 2 ^ 64 / 2 ^ 30 := by
  have halign := toNat_alignUp (calcMaxPhys info) (k := 30) (by omega)
  rw [gibCount, BitVec.toNat_udiv, show page1G = BitVec.ofNat 64 (2 ^ 30) from rfl, halign,
    BitVec.toNat_ofNat, Nat.mod_eq_of_lt (show 2 ^ 30 < 2 ^ 64 by omega),
    Nat.mul_div_cancel _ (by omega)]

/-- Every mapped GiB starts below the limit. -/
theorem gib_lt_mapLimit {info : MemoryInfo} {g : Nat} (hg : g < (gibCount info).toNat) :
    g * 2 ^ 30 < (mapLimit info).toNat := by
  have hmax := (calcMaxPhys info).isLt
  rw [toNat_gibCount] at hg
  rw [toNat_mapLimit]
  omega

/-- The directories reach the limit, unless rounding up to a GiB wraps around. Then there is no
directory at all, and the limit is 0 or lies in the last GiB. -/
theorem mapLimit_cases (info : MemoryInfo) :
    (mapLimit info).toNat ≤ (gibCount info).toNat * 2 ^ 30 ∨
      ((gibCount info).toNat = 0 ∧ 2 ^ 64 - 2 ^ 30 ≤ (mapLimit info).toNat) := by
  have hmax := (calcMaxPhys info).isLt
  rw [toNat_gibCount, toNat_mapLimit]
  omega

/-! ## Entries -/

/-- An entry for a table is the table's address with the present and write bits. -/
theorem toNat_tableEntry {table : Nat} (haligned : 4096 ∣ table) (hbound : table < 2 ^ 52) :
    (tableEntry table).toNat = table + 3 := by
  obtain ⟨page, rfl⟩ := haligned
  have hmask : (BitVec.ofNat 64 (4096 * page) &&& pgAddrMask).toNat = 4096 * page := by
    have hword : (BitVec.ofNat 64 (4096 * page)).toNat = 4096 * page := by
      rw [BitVec.toNat_ofNat, Nat.mod_eq_of_lt (by omega)]
    rw [BitVec.toNat_and, hword, show pgAddrMask.toNat = 2 ^ 52 - 2 ^ 12 from rfl,
      and_high_mask hbound (by omega)]
    omega
  rw [tableEntry, BitVec.or_assoc, toNat_or_low (k := 12) (by rw [hmask]; exact ⟨page, rfl⟩)
    (by decide), hmask]
  rfl

/-- A directory entry is its physical address with the flags of a writable leaf. -/
theorem toNat_directoryEntry (info : MemoryInfo) {phys : BitVec 64}
    (haligned : 2 ^ 21 ∣ phys.toNat) :
    (directoryEntry info phys).toNat = phys.toNat + 0x83 ∨
      (directoryEntry info phys).toNat = phys.toNat + 0x9B := by
  obtain ⟨page, hpage⟩ := haligned
  have hphys := phys.isLt
  have hmask : (phys &&& 0xFFFFFFFFFFE00000#64).toNat = phys.toNat := by
    rw [BitVec.toNat_and, show (0xFFFFFFFFFFE00000#64).toNat = 2 ^ 64 - 2 ^ 21 from rfl,
      and_high_mask phys.isLt (by omega)]
    omega
  have hor : ∀ flags : BitVec 64, flags.toNat < 2 ^ 21 →
      ((phys &&& 0xFFFFFFFFFFE00000#64) ||| flags).toNat = phys.toNat + flags.toNat := by
    intro flags hflags
    rw [toNat_or_low (k := 21) (by rw [hmask]; exact ⟨page, hpage⟩) hflags, hmask]
  simp only [directoryEntry]
  split
  · exact .inr (hor _ (by decide))
  · exact .inl (hor _ (by decide))

/-- The physical address that entry `i` of the directory for GiB `g` maps. -/
def directoryPhys (g i : Nat) : BitVec 64 :=
  BitVec.ofNat 64 g * page1G + BitVec.ofNat 64 i * page2M

theorem toNat_directoryPhys {g i : Nat} (hg : g < 512) (hi : i < 512) :
    (directoryPhys g i).toNat = g * 2 ^ 30 + i * 2 ^ 21 := by
  rw [directoryPhys, BitVec.toNat_add, BitVec.toNat_mul, BitVec.toNat_mul, BitVec.toNat_ofNat,
    BitVec.toNat_ofNat, show page1G.toNat = 2 ^ 30 from rfl, show page2M.toNat = 2 ^ 21 from rfl]
  omega

end HailOS.X86
