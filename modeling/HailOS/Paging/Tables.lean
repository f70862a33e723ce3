import HailOS.Paging.Paging

/-!
# The tables in memory

`build_tables` describes the memory that a successful `BuildIdentityMap2M` leaves: the entries
it wrote, and everything that is still as it was, which includes the other entries of the PML4
and of the PDPT. The tables do not overlap, since the allocator returns a different page for
every call.
-/

namespace HailOS.X86

open Lib Kernel Early

/-! ## The pages taken from the allocator -/

/-- The bitmap after `k` calls of `AllocatePage()`. -/
def bitmapAfter (bitmap : PageBitmap) : Nat → PageBitmap
  | 0 => bitmap
  | k + 1 => bitmapAfter (allocatePage bitmap).2 k

/-- The page that call `k` of `AllocatePage()` returns. -/
def nthPage (bitmap : PageBitmap) (k : Nat) : Nat := (allocatePage (bitmapAfter bitmap k)).1

theorem nthPage_zero (bitmap : PageBitmap) :
    nthPage bitmap 0 = (allocatePage bitmap).1 := rfl

theorem nthPage_succ (bitmap : PageBitmap) (k : Nat) :
    nthPage bitmap (k + 1) = nthPage (allocatePage bitmap).2 k := rfl

/-- The page lies inside the bitmap and is unused. -/
structure FreshPage (bitmap : PageBitmap) (page : Nat) : Prop where
  nonnull : page ≠ 0
  aligned : 4096 ∣ page
  bound : page < 2 ^ 36
  unused : bitAt bitmap (page / 4096) = unusedBit

/-- A page that `AllocatePage()` returns was fresh, and is used afterwards. -/
theorem allocatePage_fresh {bitmap : PageBitmap} (h : (allocatePage bitmap).1 ≠ 0) :
    FreshPage bitmap (allocatePage bitmap).1 ∧
      bitAt (allocatePage bitmap).2 ((allocatePage bitmap).1 / 4096) = usedBit := by
  obtain ⟨s, hs, haddress, hgrant⟩ := allocatePage_grant h
  have hpage : 4096 * s / 4096 = s := by omega
  rw [pageTotal_eq] at hs
  rw [haddress, hpage, hgrant.marked (by rw [pageTotal_eq]; omega) s, if_pos (by omega)]
  refine ⟨⟨by omega, ⟨s, rfl⟩, by omega, ?_⟩, rfl⟩
  rw [hpage]
  exact hgrant.unused (Nat.le_refl s) (by omega)

/-- A page that is fresh later was fresh before. -/
theorem FreshPage.before {bitmap : PageBitmap} {page : Nat}
    (h : FreshPage (allocatePage bitmap).2 page) : FreshPage bitmap page := by
  refine { h with unused := ?_ }
  by_contra hunused
  have hused := allocatePage_used_mono (bit_ne_unused.mp hunused)
  rw [h.unused] at hused
  cases hused

/-- Every page of the sequence was fresh at the start. -/
theorem nthPage_fresh {bitmap : PageBitmap} {k : Nat} (h : nthPage bitmap k ≠ 0) :
    FreshPage bitmap (nthPage bitmap k) := by
  induction k generalizing bitmap with
  | zero => exact (allocatePage_fresh h).1
  | succ k ih => exact (ih h).before

/-- Pages returned by different calls are different. -/
theorem nthPage_ne {bitmap : PageBitmap} {j k : Nat} (hjk : j < k)
    (hj : nthPage bitmap j ≠ 0) (hk : nthPage bitmap k ≠ 0) :
    nthPage bitmap j ≠ nthPage bitmap k := by
  induction j generalizing bitmap k with
  | zero =>
      obtain ⟨k, rfl⟩ := Nat.exists_eq_succ_of_ne_zero (Nat.ne_of_gt hjk)
      intro heq
      -- Page 0 of the sequence is used from then on, page `k + 1` still unused.
      rw [nthPage_zero] at hj heq
      rw [nthPage_succ] at hk heq
      have hunused := (nthPage_fresh hk).unused
      rw [← heq, (allocatePage_fresh hj).2] at hunused
      cases hunused
  | succ j ih =>
      obtain ⟨k, rfl⟩ := Nat.exists_eq_succ_of_ne_zero (show k ≠ 0 by omega)
      exact ih (by omega) hj hk

/-! ## The memory the loops leave -/

/-- The byte lies in the page. -/
def InPage (page x : Nat) : Prop := page ≤ x ∧ x < page + 4096

/-- Two different pages have no common byte. -/
theorem InPage.disjoint {p q x : Nat} (hp : 4096 ∣ p) (hq : 4096 ∣ q) (hne : p ≠ q)
    (hx : InPage p x) : ¬ InPage q x := by
  obtain ⟨i, rfl⟩ := hp
  obtain ⟨j, rfl⟩ := hq
  unfold InPage at *
  omega

section Directory

variable (info : MemoryInfo) (lim : BitVec 64) {g pd : Nat}

/-- The inner loop writes entries of the directory only. -/
theorem fillDirectoryLoop_outside (base : BitVec 64) (count i : Nat) (memory : Memory) {x : Nat}
    (hx : x < pd + 8 * i ∨ pd + 8 * (i + count) ≤ x) :
    fillDirectoryLoop info lim base pd count i memory x = memory x := by
  induction count generalizing i memory with
  | zero => rfl
  | succ count ih =>
      rw [fillDirectoryLoop]
      split
      · rfl
      · rw [ih (i + 1) _ (by omega), Memory.store64_outside (by omega)]

/-- The inner loop writes the entries whose 2 MiB start below the limit, and leaves the others.
It may stop at the first one above, since the addresses only grow. -/
theorem fillDirectoryLoop_entry (hg : g < 512) {count i j : Nat} (memory : Memory)
    (hlow : i ≤ j) (hhigh : j < i + count) (hcount : i + count ≤ 512) :
    Memory.load64 (fillDirectoryLoop info lim (BitVec.ofNat 64 g * page1G) pd count i memory)
        (pd + 8 * j) =
      if g * 2 ^ 30 + j * 2 ^ 21 < lim.toNat then
        directoryEntry info (directoryPhys g j)
      else Memory.load64 memory (pd + 8 * j) := by
  induction count generalizing i memory with
  | zero => omega
  | succ count ih =>
      have hphys := toNat_directoryPhys hg (show i < 512 by omega)
      rw [fillDirectoryLoop]
      rw [directoryPhys] at hphys
      split
      · next hlim =>
          rw [BitVec.le_def, hphys] at hlim
          rw [if_neg (by omega)]
      · next hlim =>
          rw [BitVec.le_def, hphys] at hlim
          by_cases hj : j = i
          · subst hj
            rw [if_pos (by omega), Memory.load64_congr (fun b hb => fillDirectoryLoop_outside
              info lim _ count (j + 1) _ (by omega)), Memory.load64_store64_same, directoryPhys]
          · rw [ih _ (by omega) (by omega) (by omega), Memory.load64_store64_other (by omega)]

end Directory

/-- A fresh page is not a used one. -/
theorem FreshPage.ne_of_used {bitmap : PageBitmap} {page q : Nat} (h : FreshPage bitmap page)
    (hq : bitAt bitmap (q / 4096) = usedBit) : page ≠ q := by
  rintro rfl
  rw [h.unused] at hq
  cases hq

/-- The memory after the outer loop: `count` directories for the GiBs from `g` on, their entries
in the PDPT, and nothing else changed. -/
structure Directories (info : MemoryInfo) (lim : BitVec 64) (pdpt : Nat) (bitmap : PageBitmap)
    (count g : Nat) (memory memory' : Memory) : Prop where
  granted : ∀ j < count, nthPage bitmap j ≠ 0
  pointer : ∀ j < count,
    Memory.load64 memory' (pdpt + 8 * (g + j)) = tableEntry (nthPage bitmap j)
  entry : ∀ j < count, ∀ i < 512,
    Memory.load64 memory' (nthPage bitmap j + 8 * i) =
      if (g + j) * 2 ^ 30 + i * 2 ^ 21 < lim.toNat then
        directoryEntry info (directoryPhys (g + j) i)
      else 0
  outside : ∀ x, (∀ j < count, ¬ InPage (nthPage bitmap j) x) →
    x < pdpt + 8 * g ∨ pdpt + 8 * (g + count) ≤ x → memory' x = memory x

/-- One round of the outer loop, for a directory page `pd` other than the PDPT. -/
theorem map_gib_round (info : MemoryInfo) (lim : BitVec 64) {pdpt pd g : Nat} (memory : Memory)
    (hpdpt : 4096 ∣ pdpt) (hpd : 4096 ∣ pd) (hne : pd ≠ pdpt) (hg : g < 512) :
    let memory' := fillDirectoryLoop info lim (BitVec.ofNat 64 g * page1G) pd entiries 0
      (Memory.store64 (fillMemory memory pd page4K 0) (pdpt + 8 * g) (tableEntry pd))
    Memory.load64 memory' (pdpt + 8 * g) = tableEntry pd ∧
      (∀ i < 512, Memory.load64 memory' (pd + 8 * i) =
        if g * 2 ^ 30 + i * 2 ^ 21 < lim.toNat then
          directoryEntry info (directoryPhys g i)
        else 0) ∧
      ∀ x, ¬ InPage pd x → x < pdpt + 8 * g ∨ pdpt + 8 * (g + 1) ≤ x → memory' x = memory x := by
  intro memory'
  have hentiries : entiries = 512 := rfl
  have hapart : ∀ {x}, InPage pdpt x → x < pd ∨ pd + 4096 ≤ x := by
    intro x hx
    have := InPage.disjoint hpdpt hpd hne.symm hx
    unfold InPage at this
    omega
  refine ⟨?_, fun i hi => ?_, fun x hx hword => ?_⟩
  · have hkept : ∀ b < 8, memory' (pdpt + 8 * g + b) = Memory.store64 (fillMemory memory pd page4K
        0) (pdpt + 8 * g) (tableEntry pd) (pdpt + 8 * g + b) := by
      intro b hb
      have := hapart (x := pdpt + 8 * g + b) ⟨by omega, by omega⟩
      exact fillDirectoryLoop_outside info lim _ entiries 0 _ (by omega)
    rw [Memory.load64_congr hkept, Memory.load64_store64_same]
  · rw [fillDirectoryLoop_entry info lim hg _ (Nat.zero_le i) (by omega) (by omega)]
    split
    · rfl
    · have hfirst := hapart (x := pdpt + 8 * g) ⟨by omega, by omega⟩
      have hlast := hapart (x := pdpt + 8 * g + 7) ⟨by omega, by omega⟩
      rw [Memory.load64_store64_other (by omega)]
      refine Memory.load64_eq_zero fun b hb => ?_
      rw [fillMemory_apply, if_pos ⟨by omega, by simp only [page4K]; omega⟩]
  · unfold InPage at hx
    show fillDirectoryLoop info lim _ pd entiries 0 _ x = memory x
    rw [fillDirectoryLoop_outside info lim _ entiries 0 _ (by omega),
      Memory.store64_outside (by omega), fillMemory_apply, if_neg (by simp only [page4K]; omega)]

/-- The directories after a first round and the rounds that follow. The later directories are
fresh pages, so they are neither the PDPT nor the first directory. -/
theorem Directories.cons {info : MemoryInfo} {lim : BitVec 64} {pdpt : Nat}
    {bitmap : PageBitmap} {count g : Nat} {memory middle memory' : Memory}
    (hpdpt : 4096 ∣ pdpt) (hcount : g + (count + 1) ≤ 512)
    (hused : bitAt bitmap (pdpt / 4096) = usedBit) (hnull : (allocatePage bitmap).1 ≠ 0)
    (hpointer : Memory.load64 middle (pdpt + 8 * g) = tableEntry (allocatePage bitmap).1)
    (hentry : ∀ i < 512, Memory.load64 middle ((allocatePage bitmap).1 + 8 * i) =
      if g * 2 ^ 30 + i * 2 ^ 21 < lim.toNat then
        directoryEntry info (directoryPhys g i)
      else 0)
    (houtside : ∀ x, ¬ InPage (allocatePage bitmap).1 x →
      x < pdpt + 8 * g ∨ pdpt + 8 * (g + 1) ≤ x → middle x = memory x)
    (hrest : Directories info lim pdpt (allocatePage bitmap).2 count (g + 1) middle memory') :
    Directories info lim pdpt bitmap (count + 1) g memory memory' := by
  obtain ⟨hfresh, hpdUsed⟩ := allocatePage_fresh hnull
  have hne := hfresh.ne_of_used hused
  have hlater : ∀ {q x}, 4096 ∣ q → bitAt (allocatePage bitmap).2 (q / 4096) = usedBit →
      InPage q x → ∀ j < count, ¬ InPage (nthPage (allocatePage bitmap).2 j) x := by
    intro q x hq hqUsed hx j hj
    have hpage := nthPage_fresh (hrest.granted j hj)
    exact InPage.disjoint hq hpage.aligned (hpage.ne_of_used hqUsed).symm hx
  have hshift : ∀ j, g + 1 + j = g + (j + 1) := fun j => by omega
  refine ⟨fun j hj => ?_, fun j hj => ?_, fun j hj i hi => ?_, fun x hx hword => ?_⟩
  · cases j with
    | zero => exact hnull
    | succ j => exact hrest.granted j (by omega)
  · cases j with
    | zero =>
        rw [Nat.add_zero, nthPage_zero, ← hpointer]
        refine Memory.load64_congr fun b hb => hrest.outside _ ?_ (by omega)
        have hin : InPage pdpt (pdpt + 8 * g + b) := ⟨by omega, by omega⟩
        exact hlater hpdpt (allocatePage_used_mono hused) hin
    | succ j =>
        rw [← hshift, nthPage_succ]
        exact hrest.pointer j (by omega)
  · cases j with
    | zero =>
        rw [Nat.add_zero, nthPage_zero, ← hentry i hi]
        refine Memory.load64_congr fun b hb => ?_
        have hin : InPage (allocatePage bitmap).1 ((allocatePage bitmap).1 + 8 * i + b) :=
          ⟨by omega, by omega⟩
        have hapart := InPage.disjoint hfresh.aligned hpdpt hne hin
        unfold InPage at hapart
        exact hrest.outside _ (hlater hfresh.aligned hpdUsed hin) (by omega)
    | succ j =>
        rw [← hshift, nthPage_succ]
        exact hrest.entry j (by omega) i hi
  · rw [hrest.outside x (fun j hj => hx (j + 1) (by omega)) (by omega)]
    exact houtside x (hx 0 (by omega)) (by omega)

/-- If the outer loop finishes, it leaves the directories. -/
theorem mapGibLoop_directories (info : MemoryInfo) (lim : BitVec 64) {pdpt : Nat}
    (hpdpt : 4096 ∣ pdpt) {count g : Nat} {heap : Heap} (hcount : g + count ≤ 512)
    (hused : bitAt heap.bitmap (pdpt / 4096) = usedBit)
    (h : (mapGibLoop info lim pdpt count g heap).1 = true) :
    Directories info lim pdpt heap.bitmap count g heap.memory
      (mapGibLoop info lim pdpt count g heap).2.memory := by
  induction count generalizing g heap with
  | zero => exact ⟨by simp, by simp, by simp, fun _ _ _ => rfl⟩
  | succ count ih =>
      rw [mapGibLoop] at h ⊢
      by_cases hnull : (allocatePage heap.bitmap).1 = 0
      · simp [hnull] at h
      · simp only [hnull, if_false] at h ⊢
        have hfresh := (allocatePage_fresh hnull).1
        obtain ⟨hpointer, hentry, houtside⟩ := map_gib_round info lim heap.memory hpdpt
          hfresh.aligned (hfresh.ne_of_used hused) (show g < 512 by omega)
        have hrest := fun hused' => ih (show g + 1 + count ≤ 512 by omega) hused' h
        exact .cons hpdpt hcount hused hnull hpointer hentry houtside
          (hrest (allocatePage_used_mono hused))

/-- The tables in memory after `BuildIdentityMap2M` has returned true. Page 0 of the sequence is
the PML4, page 1 the PDPT, and page `g + 2` the directory of GiB `g`. -/
structure IdentityTables (info : MemoryInfo) (bitmap : PageBitmap) (before memory : Memory) :
    Prop where
  gibs_le : (gibCount info).toNat ≤ 512
  pml4_granted : nthPage bitmap 0 ≠ 0
  pdpt_granted : 0 < (gibCount info).toNat → nthPage bitmap 1 ≠ 0
  pd_granted : ∀ g < (gibCount info).toNat, nthPage bitmap (g + 2) ≠ 0
  pml4_first : Memory.load64 memory (nthPage bitmap 0) = tableEntry (nthPage bitmap 1)
  pml4_rest : ∀ i, 0 < i → i < 512 →
    Memory.load64 memory (nthPage bitmap 0 + 8 * i) =
      Memory.load64 before (nthPage bitmap 0 + 8 * i)
  pdpt_mapped : ∀ g < (gibCount info).toNat,
    Memory.load64 memory (nthPage bitmap 1 + 8 * g) =
      tableEntry (nthPage bitmap (g + 2))
  pdpt_rest : ∀ g, (gibCount info).toNat ≤ g → g < 512 →
    Memory.load64 memory (nthPage bitmap 1 + 8 * g) =
      Memory.load64 before (nthPage bitmap 1 + 8 * g)
  pd_entry : ∀ g < (gibCount info).toNat, ∀ i < 512,
    Memory.load64 memory (nthPage bitmap (g + 2) + 8 * i) =
      if g * 2 ^ 30 + i * 2 ^ 21 < (mapLimit info).toNat then
        directoryEntry info (directoryPhys g i)
      else 0
  outside : ∀ x, (∀ k < (gibCount info).toNat + 2, nthPage bitmap k ≠ 0 →
    ¬ InPage (nthPage bitmap k) x) → memory x = before x

/-- A first page other than null means that page 0 is used. -/
theorem null_used_of_granted {bitmap : PageBitmap} (h : (allocatePage bitmap).1 ≠ 0) :
    bitAt bitmap 0 = usedBit := by
  obtain ⟨s, _, _, hgrant⟩ := allocatePage_grant h
  rw [← bit_ne_unused]
  intro hunused
  refine hgrant.first.first 0 hgrant.start_pos fun k _ hk => ?_
  rw [show k = 0 by omega, isUnused_iff]
  exact hunused

/-- With page 0 used, a page that a call of `AllocatePage()` returns is used afterwards, and so
is the page a null result stands for. -/
theorem allocatePage_result_used {bitmap : PageBitmap} (hzero : bitAt bitmap 0 = usedBit) :
    4096 ∣ (allocatePage bitmap).1 ∧
      bitAt (allocatePage bitmap).2 ((allocatePage bitmap).1 / 4096) = usedBit := by
  by_cases hnull : (allocatePage bitmap).1 = 0
  · rw [hnull]
    exact ⟨⟨0, rfl⟩, allocatePage_used_mono hzero⟩
  · obtain ⟨hfresh, hused⟩ := allocatePage_fresh hnull
    exact ⟨hfresh.aligned, hused⟩

/-- After a null result, the next call returns null too. -/
theorem allocatePage_stays_null {bitmap : PageBitmap} (hzero : bitAt bitmap 0 = usedBit)
    (hnull : (allocatePage bitmap).1 = 0) : (allocatePage (allocatePage bitmap).2).1 = 0 := by
  rw [(allocatePage_null hzero hnull).2]
  exact hnull

/-- The PML4 is not the PDPT, also if the latter is null. -/
theorem pml4_ne_pdpt {bitmap : PageBitmap} (hpml4 : nthPage bitmap 0 ≠ 0) :
    nthPage bitmap 0 ≠ nthPage bitmap 1 := by
  by_cases hnull : nthPage bitmap 1 = 0
  · rw [hnull]
    exact hpml4
  · exact nthPage_ne (by omega) hpml4 hnull

/-- A page in use is none of the directories. -/
theorem Directories.apart {info : MemoryInfo} {limit : BitVec 64} {pdpt n start : Nat}
    {bitmap : PageBitmap} {before memory : Memory}
    (h : Directories info limit pdpt bitmap n start before memory) {q x : Nat} (hq : 4096 ∣ q)
    (hused : bitAt bitmap (q / 4096) = usedBit) (hx : InPage q x) :
    ∀ j < n, ¬ InPage (nthPage bitmap j) x := by
  intro j hj
  have hpage := nthPage_fresh (h.granted j hj)
  exact InPage.disjoint hq hpage.aligned (hpage.ne_of_used hused).symm hx

/-- The PML4 entry and the directories together make up the tables. -/
theorem Directories.tables {info : MemoryInfo} {bitmap : PageBitmap}
    {before memory : Memory}
    (hgibs : (gibCount info).toNat ≤ 512) (hpml4 : nthPage bitmap 0 ≠ 0)
    (h : Directories info (mapLimit info) (nthPage bitmap 1) (bitmapAfter bitmap 2)
      (gibCount info).toNat 0
      (Memory.store64 before (nthPage bitmap 0) (tableEntry (nthPage bitmap 1)))
      memory) :
    IdentityTables info bitmap before memory := by
  have hfresh : FreshPage bitmap (nthPage bitmap 0) := nthPage_fresh hpml4
  have hzero : bitAt (bitmapAfter bitmap 1) 0 = usedBit :=
    allocatePage_used_mono (null_used_of_granted hpml4)
  have hpml4Used : bitAt (bitmapAfter bitmap 1) (nthPage bitmap 0 / 4096) = usedBit :=
    (allocatePage_fresh hpml4).2
  have hpdptAligned : 4096 ∣ nthPage bitmap 1 := (allocatePage_result_used hzero).1
  have hpdptUsed : bitAt (bitmapAfter bitmap 2) (nthPage bitmap 1 / 4096) = usedBit :=
    (allocatePage_result_used hzero).2
  have hpdpt : 0 < (gibCount info).toNat → nthPage bitmap 1 ≠ 0 :=
    fun hgib hnull => h.granted 0 hgib (allocatePage_stays_null hzero hnull)
  have hshift : ∀ g, nthPage (bitmapAfter bitmap 2) g = nthPage bitmap (g + 2) :=
    fun _ => rfl
  have hne := pml4_ne_pdpt hpml4
  have hkept : ∀ i < 512, ∀ b < 8, memory (nthPage bitmap 0 + 8 * i + b) =
      Memory.store64 before (nthPage bitmap 0) (tableEntry (nthPage bitmap 1))
        (nthPage bitmap 0 + 8 * i + b) := by
    intro i hi b hb
    have hin : InPage (nthPage bitmap 0) (nthPage bitmap 0 + 8 * i + b) :=
      ⟨by omega, by omega⟩
    have hapart := InPage.disjoint hfresh.aligned hpdptAligned hne hin
    unfold InPage at hapart
    exact h.outside _ (h.apart hfresh.aligned (allocatePage_used_mono hpml4Used) hin) (by omega)
  refine ⟨hgibs, hpml4, hpdpt, fun g hg => h.granted g hg, ?_, fun i hlow hhigh => ?_,
    fun g hg => ?_, fun g hlow hhigh => ?_, fun g hg i hi => ?_, fun x hx => ?_⟩
  · have hword := Memory.load64_congr (hkept 0 (by omega))
    rw [Nat.mul_zero, Nat.add_zero, Memory.load64_store64_same] at hword
    exact hword
  · rw [Memory.load64_congr (hkept i hhigh), Memory.load64_store64_other (by omega)]
  · simpa only [Nat.zero_add, hshift] using h.pointer g hg
  · refine Memory.load64_congr fun b hb => ?_
    have hin : InPage (nthPage bitmap 1) (nthPage bitmap 1 + 8 * g + b) :=
      ⟨by omega, by omega⟩
    have hapart := InPage.disjoint hpdptAligned hfresh.aligned hne.symm hin
    unfold InPage at hapart
    rw [h.outside _ (h.apart hpdptAligned hpdptUsed hin) (by omega),
      Memory.store64_outside (by omega)]
  · simpa only [Nat.zero_add, hshift] using h.entry g hg i hi
  · have hpml4Out := hx 0 (by omega) hpml4
    have hpdptOut := fun hgib => hx 1 (by omega) (hpdpt hgib)
    unfold InPage at hpml4Out hpdptOut
    rw [h.outside x (fun j hj => hx (j + 2) (by omega) (h.granted j hj)) (by omega),
      Memory.store64_outside (by omega)]

/-- If `BuildIdentityMap2M` returns true, the value for CR3 is the PML4, and the tables are in
memory. -/
theorem build_tables {info : MemoryInfo} {heap heap' : Heap} {cr3 : BitVec 64}
    (h : buildIdentityMap2M (some info) heap = (some cr3, heap')) :
    cr3 = BitVec.ofNat 64 (nthPage heap.bitmap 0) ∧
      IdentityTables info heap.bitmap heap.memory heap'.memory := by
  simp only [buildIdentityMap2M] at h
  by_cases hgibs : BitVec.ofNat 64 entiries < gibCount info
  · simp [hgibs] at h
  by_cases hpml4 : (allocatePage heap.bitmap).1 = 0
  · simp [hgibs, hpml4] at h
  simp only [hgibs, hpml4, if_false, Nat.mul_zero, Nat.add_zero] at h
  split at h
  · next hdone =>
      rw [Prod.mk.injEq, Option.some.injEq] at h
      obtain ⟨rfl, rfl⟩ := h
      have hcount : (gibCount info).toNat ≤ 512 := by simpa [BitVec.lt_def, entiries] using hgibs
      have hzero := allocatePage_used_mono (null_used_of_granted hpml4)
      obtain ⟨haligned, hused⟩ := allocatePage_result_used hzero
      have hdirectories := fun hused' =>
        mapGibLoop_directories info (mapLimit info) haligned (by omega) hused' hdone
      exact ⟨rfl, (hdirectories hused).tables hcount hpml4⟩
  · cases h

end HailOS.X86
