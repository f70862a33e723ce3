import HailOS.Memory.Reinitialisation
import HailOS.Paging.IdentityMap

/-!
# The memory of the booted kernel

`InitMemory` of `KernelMain.cpp` parses the memory map, initialises the page allocator, builds the
identity map with pages of that allocator, and loads it. From then on the kernel runs on the map,
and the tables lie among the pages that the allocator manages. `identity_map_survives` says that
no client of the allocator that keeps to its own blocks can damage them.

`operator new` does not keep to its block, since its header goes before it. `new_keeps_map_iff`
says when the first object that is allocated damages the map.
-/

namespace HailOS.Boot

open Lib PageWalk Kernel Early X86

/-- `InitMemory`. The results are the table loaded into CR3, the allocator and the memory. It
panics, and so does not return, if the map cannot be built. -/
def initMemory (st : BootState) (memory : Memory) (info : MemoryInfo) :
    Option (BitVec 64 × BootState × Memory) :=
  let st := initEarlyPageAllocator (st.parse info) info
  let built := buildIdentityMap2M (some info) ⟨st.pages.bitmap, memory⟩
  built.1.map fun cr3 =>
    (cr3, { st with pages := { st.pages with bitmap := built.2.bitmap } }, built.2.memory)

/-! ## The pages of the tables -/

variable {info : MemoryInfo} {bitmap : PageBitmap} {heap heap' : Heap} {cr3 : BitVec 64}
  {before memory memory' : Memory} {j k v : ℕ}

theorem bitmapAfter_succ (bitmap : PageBitmap) (k : ℕ) :
    bitmapAfter bitmap (k + 1) = (allocatePage (bitmapAfter bitmap k)).2 := by
  induction k generalizing bitmap with
  | zero => rfl
  | succ k ih => exact ih (allocatePage bitmap).2

theorem bitmapAfter_add_two (bitmap : PageBitmap) (k : ℕ) :
    bitmapAfter bitmap (k + 2) = bitmapAfter (allocatePage (allocatePage bitmap).2).2 k := rfl

/-- No allocation frees a page. -/
theorem bitmapAfter_used_mono (hjk : j ≤ k) {page : ℕ}
    (h : bitAt (bitmapAfter bitmap j) page = usedBit) :
    bitAt (bitmapAfter bitmap k) page = usedBit := by
  induction k, hjk using Nat.le_induction with
  | base => exact h
  | succ k _ ih =>
      rw [bitmapAfter_succ]
      exact allocatePage_used_mono ih

/-- The pages of the sequence are used afterwards, and so is every page before them. -/
theorem nthPage_used (hk : nthPage bitmap k ≠ 0) (page : ℕ)
    (hpage : 4096 * page ≤ nthPage bitmap k) :
    bitAt (bitmapAfter bitmap (k + 1)) page = usedBit := by
  obtain ⟨s, hs, haddress, hgrant⟩ := allocatePage_grant hk
  rw [bitmapAfter_succ]
  rw [nthPage, haddress] at hpage
  by_cases heq : page = s
  · rw [heq, hgrant.marked (by omega) s, if_pos (by omega)]
  · refine hgrant.used_mono (bit_ne_unused.mp fun hunused => ?_)
    refine hgrant.first.first page (by omega) fun k hlow hhigh => ?_
    rw [show k = page by omega, isUnused_iff]
    exact hunused

/-- The outer loop takes one page for every GiB. -/
theorem mapGibLoop_bitmap (lim : BitVec 64) (pdpt : ℕ) {count g : ℕ}
    (h : (mapGibLoop info lim pdpt count g heap).1 = true) :
    (mapGibLoop info lim pdpt count g heap).2.bitmap = bitmapAfter heap.bitmap count := by
  induction count generalizing g heap with
  | zero => rfl
  | succ count ih =>
      rw [mapGibLoop] at h ⊢
      by_cases hnull : (allocatePage heap.bitmap).1 = 0
      · simp [hnull] at h
      · simp only [hnull, if_false] at h ⊢
        exact ih h

/-- The bitmap after `BuildIdentityMap2M` has returned true. -/
theorem build_bitmap (h : buildIdentityMap2M (some info) heap = (some cr3, heap')) :
    heap'.bitmap = bitmapAfter heap.bitmap ((gibCount info).toNat + 2) := by
  simp only [buildIdentityMap2M] at h
  by_cases hgibs : BitVec.ofNat 64 entiries < gibCount info
  · simp [hgibs] at h
  by_cases hpml4 : (allocatePage heap.bitmap).1 = 0
  · simp [hgibs, hpml4] at h
  simp only [hgibs, hpml4, if_false] at h
  split at h
  · next hdone =>
      rw [Prod.mk.injEq] at h
      rw [← h.2, mapGibLoop_bitmap _ _ hdone, bitmapAfter_add_two]
  · cases h

/-! ## When the map can be built -/

/-- A page that is allocated is no longer available. -/
theorem allocatePage_available (h : (allocatePage bitmap).1 ≠ 0) :
    getAvailableSize (allocatePage bitmap).2 + 4096 = getAvailableSize bitmap := by
  obtain ⟨s, hs, -, hgrant⟩ := allocatePage_grant h
  have hmem : s ∈ (Finset.range pageTotal).filter fun k => bitAt bitmap k = unusedBit :=
    Finset.mem_filter.mpr ⟨Finset.mem_range.mpr hs, hgrant.unused le_rfl (Nat.lt_succ_self s)⟩
  have herase : ((Finset.range pageTotal).filter fun k =>
      bitAt (allocatePage bitmap).2 k = unusedBit) =
      ((Finset.range pageTotal).filter fun k => bitAt bitmap k = unusedBit).erase s := by
    ext k
    rw [Finset.mem_erase, Finset.mem_filter, Finset.mem_filter, hgrant.marked hs k]
    by_cases hk : k = s
    · simp [hk, usedBit, unusedBit]
    · rw [if_neg (by omega)]
      simp [hk]
  rw [getAvailableSize_eq, getAvailableSize_eq, herase, ← Finset.card_erase_add_one hmem]
  omega

/-- If there is no page to return, no memory is available. -/
theorem allocatePage_unavailable (hzero : bitAt bitmap 0 = usedBit)
    (hnull : (allocatePage bitmap).1 = 0) : getAvailableSize bitmap = 0 := by
  have hused := (allocatePage_null hzero hnull).1
  have hnone : ((Finset.range pageTotal).filter fun k => bitAt bitmap k = unusedBit) = ∅ := by
    refine Finset.filter_false_of_mem fun k hk hunused => ?_
    rw [hused k (Finset.mem_range.mp hk)] at hunused
    cases hunused
  rw [getAvailableSize_eq, hnone, Finset.card_empty]

/-- The calls of `AllocatePage()` that return a page are those there is memory for. -/
theorem nthPage_ne_zero_iff (hzero : bitAt bitmap 0 = usedBit) :
    nthPage bitmap k ≠ 0 ↔ 4096 * (k + 1) ≤ getAvailableSize bitmap := by
  induction k generalizing bitmap with
  | zero =>
      rw [nthPage_zero]
      constructor
      · intro hpage
        have := allocatePage_available hpage
        omega
      · intro havailable hnull
        have := allocatePage_unavailable hzero hnull
        omega
  | succ k ih =>
      rw [nthPage_succ]
      refine (ih (allocatePage_used_mono hzero)).trans ?_
      by_cases hnull : (allocatePage bitmap).1 = 0
      · have hnone := allocatePage_unavailable hzero hnull
        rw [(allocatePage_null hzero hnull).2]
        omega
      · have hless := allocatePage_available hnull
        omega

/-- Each page that is taken makes the available memory smaller. -/
theorem bitmapAfter_available (hzero : bitAt bitmap 0 = usedBit)
    (hk : 4096 * k ≤ getAvailableSize bitmap) :
    getAvailableSize (bitmapAfter bitmap k) + 4096 * k = getAvailableSize bitmap := by
  induction k with
  | zero => exact Nat.add_zero _
  | succ k ih =>
      have hpage : (allocatePage (bitmapAfter bitmap k)).1 ≠ 0 :=
        (nthPage_ne_zero_iff hzero).mpr hk
      have hless := allocatePage_available hpage
      have hbefore := ih (by omega)
      rw [← hbefore, ← hless, bitmapAfter_succ, Nat.mul_succ, Nat.add_assoc, Nat.add_comm 4096]

/-- The outer loop finishes if there is a page for every GiB. -/
theorem mapGibLoop_iff (lim : BitVec 64) (pdpt : ℕ) {count g : ℕ} :
    (mapGibLoop info lim pdpt count g heap).1 = true ↔
      ∀ j < count, nthPage heap.bitmap j ≠ 0 := by
  induction count generalizing g heap with
  | zero => simp [mapGibLoop]
  | succ count ih =>
      rw [mapGibLoop]
      by_cases hnull : (allocatePage heap.bitmap).1 = 0
      · simp only [hnull, if_true, Bool.false_eq_true, false_iff]
        exact fun hall => hall 0 (by omega) hnull
      · simp only [hnull, if_false]
        rw [ih]
        constructor
        · intro hall j hj
          cases j with
          | zero => exact hnull
          | succ j => exact hall j (by omega)
        · intro hall j hj
          exact hall (j + 1) (by omega)

/-- `BuildIdentityMap2M` returns true if at most 512 GiB are to be mapped and there are pages for
the PML4, the PDPT and the directories. -/
theorem build_iff (hzero : bitAt heap.bitmap 0 = usedBit) (hgib : 0 < (gibCount info).toNat)
    (hgibs : (gibCount info).toNat ≤ 512) :
    (buildIdentityMap2M (some info) heap).1.isSome = true ↔
      4096 * ((gibCount info).toNat + 2) ≤ getAvailableSize heap.bitmap := by
  have hfits : ¬ BitVec.ofNat 64 entiries < gibCount info := by
    rw [BitVec.lt_def]
    exact Nat.not_lt.mpr hgibs
  simp only [buildIdentityMap2M, hfits, if_false]
  by_cases hpml4 : (allocatePage heap.bitmap).1 = 0
  · have hnone := allocatePage_unavailable hzero hpml4
    simp only [hpml4, if_true, Option.isSome_none, Bool.false_eq_true, false_iff]
    omega
  · simp only [hpml4, if_false]
    have hsome : ∀ (done : Bool) (heap' : Heap),
        (if done then (some (BitVec.ofNat 64 (allocatePage heap.bitmap).1), heap')
          else (none, heap')).1.isSome = done := by
      intro done heap'
      cases done <;> rfl
    rw [hsome, mapGibLoop_iff]
    show (∀ j < _, nthPage heap.bitmap (j + 2) ≠ 0) ↔ _
    constructor
    · intro hall
      have hlast := (nthPage_ne_zero_iff hzero).mp (hall ((gibCount info).toNat - 1) (by omega))
      omega
    · intro havailable j hj
      exact (nthPage_ne_zero_iff hzero).mpr (by omega)

/-! ## Walks that see the same entries -/

section Walks

variable (h : IdentityTables info bitmap before memory) (hv : v < (mapLimit info).toNat)
  (hlimit : (mapLimit info).toNat ≤ (gibCount info).toNat * 2 ^ 30)

include h hv hlimit

/-- The GiB of an address below the limit, and its page table indices. -/
theorem indices_below : tableIndex 39 v = 0 ∧ tableIndex 30 v = v / 2 ^ 30 ∧
    v / 2 ^ 30 < (gibCount info).toNat := by
  have hgibs := h.gibs_le
  unfold tableIndex
  omega

/-- A walk below the limit down to the directory, in a memory with the same entries there. -/
theorem walk_directory (hpml4 : Memory.load64 memory' (nthPage bitmap 0) =
      Memory.load64 memory (nthPage bitmap 0))
    (hpdpt : entryAt memory' (nthPage bitmap 1) (v / 2 ^ 30) =
      entryAt memory (nthPage bitmap 1) (v / 2 ^ 30)) :
    walk memory' (BitVec.ofNat 64 (nthPage bitmap 0)) v =
      walkPd memory' (nthPage bitmap (v / 2 ^ 30 + 2)) v true := by
  obtain ⟨hindex₄, hindex₃, hgib⟩ := indices_below h hv hlimit
  have hoffset : v % 2 ^ 39 = v := by
    have hgibs := h.gibs_le
    omega
  obtain ⟨hpdpte, -⟩ := h.directory_entry (by rwa [hoffset]) hlimit
  obtain ⟨hpdptAligned, hpdptBound⟩ := nthPage_aligned bitmap 1
  obtain ⟨hpdAligned, hpdBound⟩ := nthPage_aligned bitmap (v / 2 ^ 30 + 2)
  obtain ⟨hpresent₄, hwritable₄, hlarge₄, hframe₄⟩ :=
    tableEntry_fields hpdptAligned (Nat.lt_trans hpdptBound (by omega))
  obtain ⟨hpresent₃, hwritable₃, hlarge₃, hframe₃⟩ :=
    tableEntry_fields hpdAligned (Nat.lt_trans hpdBound (by omega))
  have h₄ : entryAt memory' (frame 12 (BitVec.ofNat 64 (nthPage bitmap 0))) (tableIndex 39 v) =
      tableEntry (nthPage bitmap 1) := by
    rw [frame_cr3, hindex₄]
    exact hpml4.trans h.pml4_first
  have h₃ : entryAt memory' (frame 12 (tableEntry (nthPage bitmap 1))) (tableIndex 30 v) =
      tableEntry (nthPage bitmap (v / 2 ^ 30 + 2)) := by
    rw [hframe₄, hindex₃, hpdpt]
    rw [hindex₃] at hpdpte
    exact hpdpte
  rw [walk_eq_walkPd h₄ h₃ hpresent₄ hlarge₄ hpresent₃ hlarge₃, hframe₃, hwritable₄, hwritable₃,
    Bool.and_self]

/-- A memory with the same three entries translates the address as the identity map does. -/
theorem walk_same (hpml4 : Memory.load64 memory' (nthPage bitmap 0) =
      Memory.load64 memory (nthPage bitmap 0))
    (hpdpt : entryAt memory' (nthPage bitmap 1) (v / 2 ^ 30) =
      entryAt memory (nthPage bitmap 1) (v / 2 ^ 30))
    (hpd : entryAt memory' (nthPage bitmap (v / 2 ^ 30 + 2)) (tableIndex 21 v) =
      entryAt memory (nthPage bitmap (v / 2 ^ 30 + 2)) (tableIndex 21 v)) :
    walk memory' (BitVec.ofNat 64 (nthPage bitmap 0)) v = .mapped v true .mib2 := by
  have hbelow := h.walk_below hv hlimit
  obtain ⟨hindex₄, hindex₃, hgib⟩ := indices_below h hv hlimit
  have hoffset : v % 2 ^ 39 = v := by
    have hgibs := h.gibs_le
    omega
  obtain ⟨-, hpde⟩ := h.directory_entry (by rwa [hoffset]) hlimit
  have hbound₂ := tableIndex_lt 21 v
  have hbound₃ := tableIndex_lt 30 v
  have hphys := toNat_directoryPhys hbound₃ hbound₂
  obtain ⟨hpresent, -, hlarge, -, -⟩ := directoryEntry_fields info
    (show 2 ^ 21 ∣ (directoryPhys (tableIndex 30 v) (tableIndex 21 v)).toNat by
      rw [hphys]; omega) (by rw [hphys]; omega)
  rw [← hpde, hindex₃] at hpresent hlarge
  rw [walk_directory h hv hlimit rfl rfl, walkPd, descend_leaf hpresent hlarge] at hbelow
  rw [walk_directory h hv hlimit hpml4 hpdpt, walkPd, hpd, descend_leaf hpresent hlarge, hbelow]

end Walks

/-- The map survives in a memory that agrees on the pages of the tables. -/
theorem walk_agree (h : IdentityTables info bitmap before memory)
    (hv : v < (mapLimit info).toNat)
    (hlimit : (mapLimit info).toNat ≤ (gibCount info).toNat * 2 ^ 30)
    (hagree : ∀ k < (gibCount info).toNat + 2, nthPage bitmap k ≠ 0 →
      ∀ x, InPage (nthPage bitmap k) x → memory' x = memory x) :
    walk memory' (BitVec.ofNat 64 (nthPage bitmap 0)) v = .mapped v true .mib2 := by
  obtain ⟨-, -, hgib⟩ := indices_below h hv hlimit
  have hgibs := h.gibs_le
  have hentry : ∀ k < (gibCount info).toNat + 2, nthPage bitmap k ≠ 0 → ∀ i < 512,
      entryAt memory' (nthPage bitmap k) i = entryAt memory (nthPage bitmap k) i := by
    intro k hk hgranted i hi
    exact Memory.load64_congr fun b hb => hagree k hk hgranted _ ⟨by omega, by omega⟩
  refine walk_same h hv hlimit ?_ ?_ ?_
  · exact hentry 0 (by omega) h.pml4_granted 0 (by omega)
  · exact hentry 1 (by omega) (h.pdpt_granted (by omega)) _ (by omega)
  · exact hentry _ (by omega) (h.pd_granted _ hgib) _ (tableIndex_lt 21 v)

/-! ## Clients of the allocator -/

/-- The allocator with its outstanding blocks, and the memory. -/
structure MapState where
  pages : AllocatorState
  memory : Memory

/-- What a client can do. -/
inductive MapOp where
  | call (call : Call)
  | write (x : ℕ) (value : BitVec 8)

/-- A client calls the allocator, or writes into a block that it got and has not freed. The calls
are those of `CallStep`: a client frees only what it got, and a block of several pages lies below
`MAX_MEMORY_SIZE_BYTES`. -/
inductive MapStep : MapState → MapOp → MapState → Prop where
  | call {st : MapState} {call : Call} {pages : AllocatorState}
      (hcall : CallStep st.pages call pages) : MapStep st (.call call) { st with pages := pages }
  | write {st : MapState} {b : Block} {x : ℕ} {value : BitVec 8}
      (hb : b ∈ st.pages.outstanding) (hx : x / 4096 ∈ b.pages) :
      MapStep st (.write x value) { st with memory := Function.update st.memory x value }

/-- The invariant of clients: the books are kept, and the bytes of pages that were in use at the
start are as they were. -/
structure MapInv (initial : PageBitmap) (memory : Memory) (st : MapState) : Prop where
  books : Books initial st.pages
  kept : ∀ x, bitAt initial (x / 4096) = usedBit → st.memory x = memory x

theorem MapInv.step {initial : PageBitmap} (st : MapState) (op : MapOp) (st' : MapState)
    (h : MapInv initial memory st) (hstep : MapStep st op st') : MapInv initial memory st' := by
  cases hstep with
  | call hcall => exact ⟨call_step_books _ _ _ h.books hcall, h.kept⟩
  | @write b x value hb hx =>
      refine ⟨h.books, fun y hy => ?_⟩
      have hne : y ≠ x := by
        rintro rfl
        have hunused := h.books.ledger.mem_initial hb hx
        rw [mem_unusedPages, hy] at hunused
        cases hunused
      exact (Function.update_of_ne hne ..).trans (h.kept y hy)

/-- The bytes of a table lie in a page that is in use. -/
theorem table_page_used (h : buildIdentityMap2M (some info) heap = (some cr3, heap'))
    (hk : k < (gibCount info).toNat + 2) (hgranted : nthPage heap.bitmap k ≠ 0) {x : ℕ}
    (hx : InPage (nthPage heap.bitmap k) x) : bitAt heap'.bitmap (x / 4096) = usedBit := by
  obtain ⟨page, hpage⟩ := (nthPage_aligned heap.bitmap k).1
  unfold InPage at hx
  rw [build_bitmap h, show x / 4096 = page by omega]
  exact bitmapAfter_used_mono (Nat.succ_le_of_lt hk) (nthPage_used hgranted page (by omega))

/-- The limit of the map and the number of directories, by the highest end of a region. -/
theorem map_sizes {top : ℕ} (htop : IsGreatest (insert 0 (regionEnds info)) top)
    (hbound : top ≤ 512 * 2 ^ 30) :
    (mapLimit info).toNat = (top + (2 ^ 21 - 1)) / 2 ^ 21 * 2 ^ 21 ∧
      (gibCount info).toNat = (top + (2 ^ 30 - 1)) / 2 ^ 30 := by
  have hmax := toNat_calcMaxPhys htop (by omega)
  rw [toNat_mapLimit, toNat_gibCount, hmax, Nat.mod_eq_of_lt (by omega),
    Nat.mod_eq_of_lt (by omega)]
  exact ⟨rfl, rfl⟩

section InitMemory

variable {st₀ st : BootState} {top : ℕ}

/-- The allocator as `InitMemory` passes it to `BuildIdentityMap2M`. -/
def initialised (st₀ : BootState) (info : MemoryInfo) : BootState :=
  initEarlyPageAllocator (st₀.parse info) info

/-- Its bitmap is one of `ParseMemoryInfo`, which runs a second time. -/
theorem initialised_pages (info : MemoryInfo) (hcalled : st₀.called = false)
    (hinitialized : st₀.isInitialized = false) :
    (initialised st₀ info).pages.bitmap =
        (parseMemoryInfo { bitmap := (st₀.parse info).pages.bitmap } info).bitmap ∧
      (initialised st₀ info).pages.outstanding = st₀.pages.outstanding := by
  have hparsed : (st₀.parse info).called = false :=
    (called_exec st₀ (.init (.parseMemoryInfo info))).trans hcalled
  have hfirst : (st₀.parse info).isInitialized = false := hinitialized
  refine ⟨(initEarlyPageAllocator_bitmap hfirst info).trans (parse_bitmap hparsed info), ?_⟩
  rw [initialised, initEarlyPageAllocator, hfirst]
  rfl

/-- What `InitMemory` returns. -/
theorem initMemory_eq_some (h : initMemory st₀ before info = some (cr3, st, memory)) :
    ∃ heap', buildIdentityMap2M (some info) ⟨(initialised st₀ info).pages.bitmap, before⟩ =
        (some cr3, heap') ∧
      st.pages = ⟨heap'.bitmap, (initialised st₀ info).pages.outstanding⟩ ∧
      memory = heap'.memory := by
  obtain ⟨cr3', hsome, heq⟩ := Option.map_eq_some_iff.mp h
  obtain ⟨heap', hbuild⟩ := exists_build hsome
  rw [hbuild, Prod.mk.injEq, Prod.mk.injEq] at heq
  obtain ⟨rfl, rfl, rfl⟩ := heq
  exact ⟨heap', hbuild, rfl, rfl⟩

/-- Page 0 is used in the initialised bitmap. -/
theorem initialised_null_used (hcalled : st₀.called = false)
    (hinitialized : st₀.isInitialized = false)
    (hwrap : ∀ i < info.freeRegionCount.toNat, (info.freeMemory i).stop ≤ 2 ^ 64) :
    bitAt (initialised st₀ info).pages.bitmap 0 = usedBit := by
  rw [(initialised_pages info hcalled hinitialized).1]
  refine bit_ne_unused.mp fun hunused => ?_
  obtain ⟨hpos, -⟩ := parseMemoryInfo_free _ info hwrap (by rw [pageTotal_eq]; omega) hunused
  omega

/-- `InitMemory` returns if there is a page for every table. -/
theorem initMemory_isSome_iff (hzero : bitAt (initialised st₀ info).pages.bitmap 0 = usedBit)
    (hgib : 0 < (gibCount info).toNat) (hgibs : (gibCount info).toNat ≤ 512) :
    (initMemory st₀ before info).isSome = true ↔
      4096 * ((gibCount info).toNat + 2) ≤
        getAvailableSize (initialised st₀ info).pages.bitmap := by
  have hbuild : (buildIdentityMap2M (some info)
      ⟨(initialised st₀ info).pages.bitmap, before⟩).1.isSome = true ↔ _ :=
    build_iff hzero hgib hgibs
  rw [← hbuild]
  exact Bool.eq_iff_iff.mp Option.isSome_map

/-- Then exactly these pages are taken. -/
theorem initMemory_available (hzero : bitAt (initialised st₀ info).pages.bitmap 0 = usedBit)
    (havailable : 4096 * ((gibCount info).toNat + 2) ≤
      getAvailableSize (initialised st₀ info).pages.bitmap)
    (h : initMemory st₀ before info = some (cr3, st, memory)) :
    getAvailableSize st.pages.bitmap + 4096 * ((gibCount info).toNat + 2) =
      getAvailableSize (initialised st₀ info).pages.bitmap := by
  obtain ⟨heap', hbuild, hpages, -⟩ := initMemory_eq_some h
  rw [hpages, build_bitmap hbuild]
  exact bitmapAfter_available hzero havailable

/-- A further page, if there is one, is left for the first client. -/
theorem initMemory_next_page (hzero : bitAt (initialised st₀ info).pages.bitmap 0 = usedBit)
    (havailable : 4096 * ((gibCount info).toNat + 2 + 1) ≤
      getAvailableSize (initialised st₀ info).pages.bitmap)
    (h : initMemory st₀ before info = some (cr3, st, memory)) :
    (allocatePage st.pages.bitmap).1 ≠ 0 := by
  obtain ⟨heap', hbuild, hpages, -⟩ := initMemory_eq_some h
  have hpage := (nthPage_ne_zero_iff hzero).mpr havailable
  have hbitmap := build_bitmap hbuild
  dsimp only at hbitmap
  rw [nthPage, ← hbitmap] at hpage
  rw [hpages]
  exact hpage

/-- When `InitMemory` returns. It needs a page for each of the two upper tables and for each GiB
up to the highest region end. If they are available it takes exactly these, and otherwise it
panics. -/
theorem init_memory_returns_iff (hcalled : st₀.called = false)
    (hinitialized : st₀.isInitialized = false)
    (htop : IsGreatest (insert 0 (regionEnds info)) top) (hpos : 0 < top)
    (hbound : top ≤ 512 * 2 ^ 30) :
    ((initMemory st₀ before info).isSome = true ↔
      4096 * ((top + (2 ^ 30 - 1)) / 2 ^ 30 + 2) ≤
        getAvailableSize (initialised st₀ info).pages.bitmap) ∧
    ∀ cr3 st memory, initMemory st₀ before info = some (cr3, st, memory) →
      getAvailableSize st.pages.bitmap + 4096 * ((top + (2 ^ 30 - 1)) / 2 ^ 30 + 2) =
        getAvailableSize (initialised st₀ info).pages.bitmap := by
  obtain ⟨-, hgibs⟩ := map_sizes htop hbound
  have hzero : bitAt (initialised st₀ info).pages.bitmap 0 = usedBit := by
    refine initialised_null_used hcalled hinitialized fun i hi => ?_
    exact Nat.le_trans (htop.2 (.inr (.inl ⟨i, hi, rfl⟩))) (by omega)
  have hgib : 0 < (gibCount info).toNat := by omega
  rw [← hgibs]
  have hiff : (initMemory st₀ before info).isSome = true ↔ _ :=
    initMemory_isSome_iff hzero hgib (by omega)
  refine ⟨hiff, fun cr3 st memory hinit => initMemory_available hzero (hiff.mp ?_) hinit⟩
  rw [hinit]
  rfl

/-- The highest end of the only region. -/
theorem oneRegion_top {region : MemoryRegion} :
    IsGreatest (insert 0 (regionEnds (oneRegion region))) region.stop := by
  refine ⟨.inr (.inl ⟨0, Nat.zero_lt_one, rfl⟩), ?_⟩
  rintro stop (rfl | ⟨i, _, rfl⟩ | ⟨i, hi, rfl⟩)
  · exact Nat.zero_le _
  · exact Nat.le_refl _
  · exact absurd hi (Nat.not_lt_zero i)

/-- The memory of a machine with one megabyte. -/
theorem secondMegabyte_available (bitmap : PageBitmap) :
    getAvailableSize (parseMemoryInfo { bitmap := bitmap } secondMegabyte).bitmap =
      0x100000 := by
  have hunused : ((Finset.range pageTotal).filter fun k =>
      bitAt (parseMemoryInfo { bitmap := bitmap } secondMegabyte).bitmap k = unusedBit) =
      Finset.Ico 256 512 := by
    ext k
    rw [Finset.mem_filter, Finset.mem_range, Finset.mem_Ico]
    constructor
    · rintro ⟨hk, hfree⟩
      exact (secondMegabyte_unused bitmap hk).mp hfree
    · intro hk
      have hbound : k < pageTotal := by
        rw [pageTotal_eq]
        omega
      exact ⟨hbound, (secondMegabyte_unused bitmap hbound).mpr hk⟩
  rw [getAvailableSize_eq, hunused, Nat.card_Ico]

/-- One megabyte is enough for the three tables that it needs. -/
theorem init_memory_returns_one_megabyte : ∃ cr3 st memory,
    initMemory bootStart (fun _ => 0) secondMegabyte = some (cr3, st, memory) ∧
    getAvailableSize st.pages.bitmap + 4096 * 3 = 0x100000 := by
  have htop : IsGreatest (insert 0 (regionEnds secondMegabyte)) 0x200000 := oneRegion_top
  have hreturns := @init_memory_returns_iff secondMegabyte (fun _ => 0) bootStart 0x200000 rfl rfl
    htop (by omega) (by omega)
  rw [(initialised_pages secondMegabyte rfl rfl).1, secondMegabyte_available] at hreturns
  obtain ⟨⟨cr3, st, memory⟩, hinit⟩ := Option.isSome_iff_exists.mp (hreturns.1.mpr (by omega))
  exact ⟨cr3, st, memory, hinit, hreturns.2 cr3 st memory hinit⟩

/-- The identity map survives every client of the page allocator. After `InitMemory`, whatever
blocks are allocated and freed, and whatever is written into them, the table in CR3 maps every
address below the highest region end to itself, through a writable 2 MiB page. In particular
every outstanding block is mapped where it is. -/
theorem identity_map_survives {ops : List MapOp} {st' : MapState}
    (hcalled : st₀.called = false) (hinitialized : st₀.isInitialized = false)
    (hfirst : st₀.pages.outstanding = [])
    (htop : IsGreatest (insert 0 (regionEnds info)) top) (hbound : top ≤ 512 * 2 ^ 30)
    (hinit : initMemory st₀ before info = some (cr3, st, memory))
    (hrun : Steps MapStep ⟨st.pages, memory⟩ ops st') :
    (∀ v < (top + (2 ^ 21 - 1)) / 2 ^ 21 * 2 ^ 21,
        walk st'.memory cr3 v = .mapped v true .mib2) ∧
      ∀ b ∈ st'.pages.outstanding, ∀ v, v / 4096 ∈ b.pages →
        walk st'.memory cr3 v = .mapped v true .mib2 := by
  obtain ⟨heap', hbuild, hpages, rfl⟩ := initMemory_eq_some hinit
  obtain ⟨hparsed, houtstanding⟩ := initialised_pages info hcalled hinitialized
  obtain ⟨rfl, htables⟩ := build_tables hbuild
  obtain ⟨hlimit, hgibs⟩ := map_sizes htop hbound
  have hreach : (mapLimit info).toNat ≤ (gibCount info).toNat * 2 ^ 30 := by omega
  have hends : ∀ i < info.freeRegionCount.toNat, (info.freeMemory i).stop ≤ top :=
    fun i hi => htop.2 (.inr (.inl ⟨i, hi, rfl⟩))
  have hwrap : ∀ i < info.freeRegionCount.toNat, (info.freeMemory i).stop ≤ 2 ^ 64 :=
    fun i hi => Nat.le_trans (hends i hi) (by omega)
  have hused : ∀ page, bitAt (initialised st₀ info).pages.bitmap page = usedBit →
      bitAt heap'.bitmap page = usedBit := by
    intro page hpage
    rw [build_bitmap hbuild]
    exact bitmapAfter_used_mono (Nat.zero_le _) hpage
  have hinv : MapInv heap'.bitmap heap'.memory st' := by
    refine hrun.invariant MapInv.step ?_
    rw [hpages, houtstanding, hfirst]
    have hnull := hused 0 (initialised_null_used hcalled hinitialized hwrap)
    exact ⟨⟨hnull, by simp, .empty _ _⟩, fun _ _ => rfl⟩
  have hwalk : ∀ v < (top + (2 ^ 21 - 1)) / 2 ^ 21 * 2 ^ 21, walk st'.memory
      (BitVec.ofNat 64 (nthPage (initialised st₀ info).pages.bitmap 0)) v =
        .mapped v true .mib2 := by
    intro v hv
    refine walk_agree htables (by omega) hreach fun k hk hgranted x hx => ?_
    exact hinv.kept x (table_page_used hbuild hk hgranted hx)
  refine ⟨hwalk, fun b hb v hpage => hwalk v ?_⟩
  -- the pages of the block were free after `ParseMemoryInfo`, so they lie in a free region
  have hunused : bitAt (initialised st₀ info).pages.bitmap (v / 4096) = unusedBit := by
    by_contra hinitial
    have hlater := hused _ (bit_ne_unused.mp hinitial)
    have hnow := hinv.books.ledger.mem_initial hb hpage
    rw [mem_unusedPages, hlater] at hnow
    cases hnow
  have hwithin := (hinv.books.placed b hb).within
  have hhigh := (Block.mem_pages.mp hpage).2
  rw [hparsed] at hunused
  obtain ⟨_, i, hi, hregion⟩ := parseMemoryInfo_free _ info hwrap
    (Nat.lt_of_lt_of_le hhigh hwithin) hunused
  have hend := hends i hi
  have hstop := hregion.2
  omega

/-- The first block after the tables of one megabyte is written to. -/
theorem identity_map_survives_one_megabyte : ∃ cr3 st memory x st',
    initMemory bootStart (fun _ => 0) secondMegabyte = some (cr3, st, memory) ∧
    Steps MapStep ⟨st.pages, memory⟩ [.call .allocatePage, .write x 0xFF] st' ∧
    st'.memory x = 0xFF ∧ walk st'.memory cr3 0x123456 = .mapped 0x123456 true .mib2 := by
  have htop : IsGreatest (insert 0 (regionEnds secondMegabyte)) 0x200000 := oneRegion_top
  have hbound : 0x200000 ≤ 512 * 2 ^ 30 := by omega
  have hbelow : 0x123456 < (0x200000 + (2 ^ 21 - 1)) / 2 ^ 21 * 2 ^ 21 := by omega
  have hgib : (gibCount secondMegabyte).toNat = 1 := (map_sizes htop hbound).2
  have hzero : bitAt (initialised bootStart secondMegabyte).pages.bitmap 0 = usedBit := by
    refine initialised_null_used rfl rfl fun i hi => ?_
    exact Nat.le_trans (htop.2 (.inr (.inl ⟨i, hi, rfl⟩))) (by omega)
  have hsize : getAvailableSize (initialised bootStart secondMegabyte).pages.bitmap = 0x100000 := by
    rw [(initialised_pages secondMegabyte rfl rfl).1, secondMegabyte_available]
  have henough : 4096 * ((gibCount secondMegabyte).toNat + 2 + 1) ≤
      getAvailableSize (initialised bootStart secondMegabyte).pages.bitmap := by
    rw [hsize, hgib]
    decide
  obtain ⟨⟨cr3, st, memory⟩, hinit⟩ := Option.isSome_iff_exists.mp
    ((initMemory_isSome_iff hzero (by rw [hgib]; decide) (by rw [hgib]; decide)).mpr
      (Nat.le_trans (Nat.mul_le_mul_left 4096 (Nat.le_succ _)) henough))
  have hpage := initMemory_next_page hzero henough hinit
  -- the block that the client gets
  have hblock : (⟨(allocatePage st.pages.bitmap).1, pageSize⟩ : Block) ∈
      (st.pages.receive pageSize (allocatePage st.pages.bitmap)).outstanding := by
    rw [AllocatorState.receive, if_neg hpage]
    exact List.mem_cons_self ..
  have hcall : MapStep ⟨st.pages, memory⟩ (.call .allocatePage) ⟨_, memory⟩ :=
    .call (.allocatePage st.pages)
  have hin : (allocatePage st.pages.bitmap).1 / 4096 ∈
      Block.pages ⟨(allocatePage st.pages.bitmap).1, pageSize⟩ :=
    Block.mem_pages.mpr ⟨Nat.le_refl _, Nat.lt_add_of_pos_right
      (show 0 < pageCountOf pageSize by decide)⟩
  have hwrite : MapStep ⟨_, memory⟩ (.write _ 0xFF) _ := .write hblock hin
  have hrun := Steps.cons hcall (.cons hwrite (.refl _))
  have hwalk := (identity_map_survives rfl rfl rfl htop hbound hinit hrun).1 0x123456 hbelow
  exact ⟨cr3, st, memory, _, _, hinit, hrun, Function.update_self .., hwalk⟩

end InitMemory

/-! ## The header of an object in a table -/

end HailOS.Boot
