import HailOS.Paging.IdentityMap

/-!
# What the page tables map besides

`BuildIdentityMap2M` writes the first entry of the PML4 and one entry of the PDPT for every GiB.
It does not clear the rest of the two pages, so whatever they held before is taken for table
entries. `maps_nothing_above_iff` says exactly for which prior contents no address at or above the
limit is mapped, whatever the rest of memory holds: the stale words that such an address selects
must not be present.

The argument from right to left follows the walk. From left to right, a stale present entry leads
to some page. If that page is no table, the rest of memory can be chosen to map something there,
and if it is one, an address can be chosen for which the tables themselves do.
-/

namespace HailOS.X86

open Lib Kernel Early PageWalk

/-- The two memories agree on the pages that the allocator returns for the tables. -/
def AgreeOnTables (info : MemoryInfo) (bitmap : PageBitmap) (memory memory' : Memory) : Prop :=
  ∀ k < (gibCount info).toNat + 2, nthPage bitmap k ≠ 0 →
    ∀ x, InPage (nthPage bitmap k) x → memory' x = memory x

/-- With the prior contents of the table pages as in `heap`, and whatever the rest of memory
holds, the tables map no canonical address at or above the limit. -/
def MapsNothingAbove (info : MemoryInfo) (heap : Heap) : Prop :=
  ∀ memory, AgreeOnTables info heap.bitmap heap.memory memory →
    ∀ cr3 heap', buildIdentityMap2M (some info) ⟨heap.bitmap, memory⟩ = (some cr3, heap') →
      ∀ v, Canonical v → (mapLimit info).toNat ≤ v → walk heap'.memory cr3 v = .notPresent

/-- Word `i` that the page of the PML4 held before. -/
def stalePml4 (heap : Heap) (i : Nat) : BitVec 64 :=
  entryAt heap.memory (nthPage heap.bitmap 0) i

/-- Word `i` that the page of the PDPT held before. -/
def stalePdpt (heap : Heap) (i : Nat) : BitVec 64 :=
  entryAt heap.memory (nthPage heap.bitmap 1) i

/-- The stale words that the address `v` selects end its walk. In the PML4 that is a word that is
not present, or one that points to the PDPT while the latter has no directory and its own stale
word is not present. In the PDPT it is a word that is not present, and there has to be a PDPT. -/
def StaleWordsEnd (info : MemoryInfo) (heap : Heap) (v : Nat) : Prop :=
  (tableIndex 39 v ≠ 0 →
    present (stalePml4 heap (tableIndex 39 v)) = false ∨
      ((gibCount info).toNat = 0 ∧ nthPage heap.bitmap 1 ≠ 0 ∧
        large (stalePml4 heap (tableIndex 39 v)) = false ∧
        frame 12 (stalePml4 heap (tableIndex 39 v)) = nthPage heap.bitmap 1 ∧
        present (stalePdpt heap (tableIndex 30 v)) = false)) ∧
  (tableIndex 39 v = 0 → (gibCount info).toNat ≤ tableIndex 30 v →
    nthPage heap.bitmap 1 ≠ 0 ∧ present (stalePdpt heap (tableIndex 30 v)) = false)

/-! ## The tables for other contents of memory -/

/-- Whether the outer loop finishes depends on the bitmap only. -/
theorem mapGibLoop_result (info : MemoryInfo) (lim : BitVec 64) (pdpt count g : Nat)
    (bitmap : PageBitmap) (memory memory' : Memory) :
    (mapGibLoop info lim pdpt count g ⟨bitmap, memory⟩).1 =
      (mapGibLoop info lim pdpt count g ⟨bitmap, memory'⟩).1 := by
  induction count generalizing g bitmap memory memory' with
  | zero => rfl
  | succ count ih =>
      rw [mapGibLoop, mapGibLoop]
      by_cases hnull : (allocatePage bitmap).1 = 0
      · simp [hnull]
      · simp only [hnull, if_false]
        exact ih _ _ _ _

/-- Whether the tables can be built depends on the bitmap only. -/
theorem build_other_memory {info : MemoryInfo} {heap heap' : Heap} {cr3 : BitVec 64}
    (h : buildIdentityMap2M (some info) heap = (some cr3, heap')) (memory : Memory) :
    ∃ heap'', buildIdentityMap2M (some info) ⟨heap.bitmap, memory⟩ = (some cr3, heap'') := by
  refine ⟨_, Prod.ext_iff.mpr ⟨?_, rfl⟩⟩
  have hcr3 := congrArg Prod.fst h
  simp only [buildIdentityMap2M] at hcr3 ⊢
  by_cases hgibs : BitVec.ofNat 64 entiries < gibCount info
  · simp [hgibs] at hcr3
  by_cases hpml4 : (allocatePage heap.bitmap).1 = 0
  · simp [hgibs, hpml4] at hcr3
  simp only [hgibs, hpml4, if_false] at hcr3 ⊢
  rw [mapGibLoop_result info _ _ _ _ _ _ (Memory.store64 heap.memory _ _)]
  rw [apply_ite Prod.fst] at hcr3 ⊢
  exact hcr3

variable {info : MemoryInfo} {heap : Heap} {memory final : Memory}

/-- The untouched words of the PML4. -/
theorem IdentityTables.stale_pml4 (h : IdentityTables info heap.bitmap memory final)
    (hagree : AgreeOnTables info heap.bitmap heap.memory memory) {i : Nat} (hlow : i ≠ 0)
    (hhigh : i < 512) : entryAt final (nthPage heap.bitmap 0) i = stalePml4 heap i := by
  have hrest := h.pml4_rest i (by omega) hhigh
  refine Eq.trans hrest (Memory.load64_congr fun b hb => ?_)
  exact hagree 0 (by omega) h.pml4_granted _ ⟨by omega, by omega⟩

/-- The untouched words of the PDPT. -/
theorem IdentityTables.stale_pdpt (h : IdentityTables info heap.bitmap memory final)
    (hagree : AgreeOnTables info heap.bitmap heap.memory memory)
    (hpdpt : nthPage heap.bitmap 1 ≠ 0) {i : Nat} (hlow : (gibCount info).toNat ≤ i)
    (hhigh : i < 512) : entryAt final (nthPage heap.bitmap 1) i = stalePdpt heap i := by
  have hrest := h.pdpt_rest i hlow hhigh
  refine Eq.trans hrest (Memory.load64_congr fun b hb => ?_)
  exact hagree 1 (by omega) hpdpt _ ⟨by omega, by omega⟩

/-- The first entry of the PML4 leads to the PDPT. -/
theorem IdentityTables.pml4_leads (h : IdentityTables info heap.bitmap memory final) :
    present (entryAt final (nthPage heap.bitmap 0) 0) = true ∧
      large (entryAt final (nthPage heap.bitmap 0) 0) = false ∧
      frame 12 (entryAt final (nthPage heap.bitmap 0) 0) = nthPage heap.bitmap 1 := by
  obtain ⟨haligned, hbound⟩ := nthPage_aligned heap.bitmap 1
  obtain ⟨hpresent, _, hlarge, hframe⟩ :=
    tableEntry_fields haligned (Nat.lt_trans hbound (by omega))
  rw [h.pml4_entry]
  exact ⟨hpresent, hlarge, hframe⟩

/-- The first entry of a directory is a leaf. -/
theorem IdentityTables.pd_leaf (h : IdentityTables info heap.bitmap memory final) {g : Nat}
    (hg : g < (gibCount info).toNat) :
    present (entryAt final (nthPage heap.bitmap (g + 2)) 0) = true ∧
      large (entryAt final (nthPage heap.bitmap (g + 2)) 0) = true := by
  have hgibs := h.gibs_le
  have hphys : (directoryPhys g 0).toNat = g * 2 ^ 30 := by
    rw [toNat_directoryPhys (by omega) (by omega), Nat.zero_mul, Nat.add_zero]
  obtain ⟨hpresent, _, hlarge, _, _⟩ := directoryEntry_fields info
    (show 2 ^ 21 ∣ (directoryPhys g 0).toNat by rw [hphys]; omega) (by rw [hphys]; omega)
  rw [entryAt, h.pd_entry g hg 0 (by omega), Nat.zero_mul, Nat.add_zero,
    if_pos (gib_lt_mapLimit hg)]
  exact ⟨hpresent, hlarge⟩

/-! ## Stale words that end every walk -/

/-- If the stale words end the walk of `v`, the walk finds a non-present entry. -/
theorem IdentityTables.walk_above (h : IdentityTables info heap.bitmap memory final)
    (hagree : AgreeOnTables info heap.bitmap heap.memory memory) {v : Nat}
    (hv : (mapLimit info).toNat ≤ v) (hcanonical : Canonical v)
    (hends : StaleWordsEnd info heap v) :
    walk final (BitVec.ofNat 64 (nthPage heap.bitmap 0)) v = .notPresent := by
  have hgibs := h.gibs_le
  have hindex := tableIndex_lt 30 v
  rw [walk_notPresent_iff, frame_cr3]
  by_cases hzero : tableIndex 39 v = 0
  · obtain ⟨_, hlarge, hframe⟩ := h.pml4_leads
    rw [hzero, hframe, walkPdpt_notPresent_iff]
    refine .inr ⟨hlarge, ?_⟩
    by_cases hgib : (gibCount info).toNat ≤ tableIndex 30 v
    · obtain ⟨hpdpt, hstale⟩ := hends.2 hzero hgib
      rw [h.stale_pdpt hagree hpdpt hgib hindex]
      exact .inl hstale
    · -- The directory was cleared above the limit.
      obtain ⟨haligned, hbound⟩ := nthPage_aligned heap.bitmap (tableIndex 30 v + 2)
      obtain ⟨_, _, hpdLarge, hpdFrame⟩ :=
        tableEntry_fields haligned (Nat.lt_trans hbound (by omega))
      have hpdpte : entryAt final (nthPage heap.bitmap 1) (tableIndex 30 v) =
          tableEntry (nthPage heap.bitmap (tableIndex 30 v + 2)) := h.pdpt_mapped _ (by omega)
      have hpde : entryAt final (nthPage heap.bitmap (tableIndex 30 v + 2)) (tableIndex 21 v) =
          0 := by
        have hlimit := toNat_mapLimit info
        rw [entryAt, h.pd_entry _ (by omega) _ (tableIndex_lt 21 v), if_neg]
        unfold Canonical at hcanonical
        unfold tableIndex at *
        omega
      rw [hpdpte, hpdFrame, walkPd_notPresent_iff, hpde]
      exact .inr ⟨hpdLarge, .inl rfl⟩
  · have hhigh := tableIndex_lt 39 v
    rw [h.stale_pml4 hagree hzero hhigh]
    rcases hends.1 hzero with hstale | ⟨hgib, hpdpt, hlarge, hframe, hstale⟩
    · exact .inl hstale
    · rw [hframe, walkPdpt_notPresent_iff, h.stale_pdpt hagree hpdpt (by omega) hindex]
      exact .inr ⟨hlarge, .inl hstale⟩

/-! ## Stale words that do not -/

/-- Whatever the rest of memory holds, no walk above the limit leads anywhere. -/
def Sealed (info : MemoryInfo) (heap : Heap) : Prop :=
  ∀ memory, AgreeOnTables info heap.bitmap heap.memory memory →
    ∃ final, IdentityTables info heap.bitmap memory final ∧
      ∀ v, Canonical v → (mapLimit info).toNat ≤ v →
        walk final (BitVec.ofNat 64 (nthPage heap.bitmap 0)) v = .notPresent

/-- The page is none of the tables. -/
def NoTable (info : MemoryInfo) (heap : Heap) (page : Nat) : Prop :=
  ∀ k < (gibCount info).toNat + 2, nthPage heap.bitmap k ≠ 0 → page ≠ nthPage heap.bitmap k

/-- A page is no table, or it is the PML4, the PDPT or a directory. -/
theorem table_cases (info : MemoryInfo) (heap : Heap) (page : Nat) :
    NoTable info heap page ∨ page = nthPage heap.bitmap 0 ∨
      (nthPage heap.bitmap 1 ≠ 0 ∧ page = nthPage heap.bitmap 1) ∨
      ∃ g < (gibCount info).toNat, page = nthPage heap.bitmap (g + 2) := by
  by_cases htable : NoTable info heap page
  · exact .inl htable
  · simp only [NoTable, not_forall, not_not] at htable
    obtain ⟨k, hk, hgranted, heq⟩ := htable
    match k with
    | 0 => exact .inr (.inl heq)
    | 1 => exact .inr (.inr (.inl ⟨hgranted, heq⟩))
    | g + 2 => exact .inr (.inr (.inr ⟨g, by omega, heq⟩))

/-- The memory with every bit of one page set. -/
def fillPage (memory : Memory) (page : Nat) : Memory := fillMemory memory page 4096 0xFF

/-- A page that is no table can be filled without touching the tables. -/
theorem NoTable.agree {page : Nat} (h : NoTable info heap page) (haligned : 4096 ∣ page) :
    AgreeOnTables info heap.bitmap heap.memory (fillPage heap.memory page) := by
  intro k hk hgranted x hx
  have hapart := InPage.disjoint (nthPage_aligned heap.bitmap k).1 haligned
    (h k hk hgranted).symm hx
  rw [fillPage, fillMemory_apply]
  exact if_neg hapart

/-- The words of a filled page are present leaves. -/
theorem IdentityTables.filled {page : Nat}
    (h : IdentityTables info heap.bitmap (fillPage heap.memory page) final)
    (hpage : NoTable info heap page) (haligned : 4096 ∣ page) {i : Nat} (hi : i < 512) :
    present (entryAt final page i) = true ∧ large (entryAt final page i) = true := by
  have hones : entryAt final page i = BitVec.allOnes 64 := by
    refine Memory.load64_eq_ones fun b hb => ?_
    have hin : InPage page (page + 8 * i + b) := ⟨by omega, by omega⟩
    rw [h.outside _ fun k hk hgranted => InPage.disjoint haligned
      (nthPage_aligned heap.bitmap k).1 (hpage k hk hgranted) hin, fillPage, fillMemory_apply]
    exact if_pos hin
  rw [hones]
  decide

/-- However the rest of memory is filled, entry `i` of the PML4 leads to the PDPT. -/
def LeadsToPdpt (info : MemoryInfo) (heap : Heap) (i : Nat) : Prop :=
  ∀ memory final, AgreeOnTables info heap.bitmap heap.memory memory →
    IdentityTables info heap.bitmap memory final →
      present (entryAt final (nthPage heap.bitmap 0) i) = true ∧
        large (entryAt final (nthPage heap.bitmap 0) i) = false ∧
        frame 12 (entryAt final (nthPage heap.bitmap 0) i) = nthPage heap.bitmap 1

/-- In a sealed map, a walk through a present stale word of the PDPT ends in the page that the
word points to, or in the one after it. -/
theorem Sealed.pdpt_walk (h : Sealed info heap) (hpdpt : nthPage heap.bitmap 1 ≠ 0)
    {i j i₂ i₁ : Nat} (hi : i < 512) (hj : j < 512) (hgib : (gibCount info).toNat ≤ j)
    (hleads : LeadsToPdpt info heap i) (hpresent : present (stalePdpt heap j) = true)
    {memory : Memory} (hagree : AgreeOnTables info heap.bitmap heap.memory memory)
    (hi₂ : i₂ < 512) (hi₁ : i₁ < 512)
    (hlimit : (mapLimit info).toNat ≤ virtualAddress i j i₂ i₁) :
    ∃ final, IdentityTables info heap.bitmap memory final ∧
      (present (entryAt final (frame 12 (stalePdpt heap j)) i₂) = false ∨
        (large (entryAt final (frame 12 (stalePdpt heap j)) i₂) = false ∧
          present (entryAt final (frame 12 (entryAt final (frame 12 (stalePdpt heap j)) i₂))
            i₁) = false)) := by
  obtain ⟨final, htables, hwalk⟩ := h memory hagree
  obtain ⟨hfirst, hlarge, hframe⟩ := hleads memory final hagree htables
  obtain ⟨hx₄, hx₃, hx₂, hx₁⟩ := tableIndex_virtualAddress hi hj hi₂ hi₁
  have hend := hwalk _ (virtualAddress_canonical hi hj hi₂ hi₁) hlimit
  rw [walk_notPresent_iff, frame_cr3, hx₄, hframe, walkPdpt_notPresent_iff, hx₃,
    htables.stale_pdpt hagree hpdpt hgib hj, walkPd_notPresent_iff, hx₂, hx₁] at hend
  simp only [hfirst, hpresent, Bool.true_eq_false, false_or] at hend
  exact ⟨final, htables, hend.2.2⟩

/-- In a sealed map, a stale word of the PDPT that some entry of the PML4 leads to is not
present. -/
theorem Sealed.stale_pdpt_absent (h : Sealed info heap) (hpdpt : nthPage heap.bitmap 1 ≠ 0)
    {i j : Nat} (hi : i < 512) (hj : j < 512) (hgib : (gibCount info).toNat ≤ j)
    (hleads : LeadsToPdpt info heap i)
    (habove : (∀ i₂ i₁, (mapLimit info).toNat ≤ virtualAddress i j i₂ i₁) ∨
      ((gibCount info).toNat = 0 ∧ i = 511 ∧ j = 511)) :
    present (stalePdpt heap j) = false := by
  rw [← Bool.not_eq_true]
  intro hpresent
  have hself : AgreeOnTables info heap.bitmap heap.memory heap.memory := fun _ _ _ _ _ => rfl
  have hlast := (mapLimit info).isLt
  have hlimit : (mapLimit info).toNat ≤ virtualAddress i j i j ∧
      (mapLimit info).toNat ≤ virtualAddress i j j j := by
    rcases habove with hall | ⟨_, rfl, rfl⟩
    · exact ⟨hall i j, hall j j⟩
    · rw [virtualAddress_last]
      omega
  rcases table_cases info heap (frame 12 (stalePdpt heap j)) with
    hpage | hpage | ⟨_, hpage⟩ | ⟨g, hg, hpage⟩
  · obtain ⟨final, htables, hend⟩ := h.pdpt_walk hpdpt hi hj hgib hleads hpresent
      (hpage.agree (dvd_frame _)) hj hj hlimit.2
    obtain ⟨hleaf, hlarge⟩ := htables.filled hpage (dvd_frame _) hj
    simp [hleaf, hlarge] at hend
  · -- It points to the PML4, which leads to the PDPT and so to the stale word again.
    obtain ⟨final, htables, hend⟩ := h.pdpt_walk hpdpt hi hj hgib hleads hpresent hself hi hj
      hlimit.1
    obtain ⟨hfirst, _, hframe⟩ := hleads _ final hself htables
    rw [hpage, hframe, htables.stale_pdpt hself hpdpt hgib hj] at hend
    simp [hfirst, hpresent] at hend
  · obtain ⟨final, htables, hend⟩ := h.pdpt_walk hpdpt hi hj hgib hleads hpresent hself hj hj
      hlimit.2
    rw [hpage, htables.stale_pdpt hself hpdpt hgib hj, hpage,
      htables.stale_pdpt hself hpdpt hgib hj] at hend
    simp [hpresent] at hend
  · obtain ⟨final, htables, hend⟩ := h.pdpt_walk hpdpt hi hj hgib hleads hpresent hself
      (show 0 < 512 by omega) (show 0 < 512 by omega)
      (habove.elim (fun hall => hall 0 0) (by omega))
    obtain ⟨hleaf, hlarge⟩ := htables.pd_leaf hg
    rw [hpage] at hend
    simp [hleaf, hlarge] at hend

/-- In a sealed map, a walk through a present stale word of the PML4 ends in a table below it. -/
theorem Sealed.pml4_walk (h : Sealed info heap) {i i₃ i₂ i₁ : Nat} (hzero : i ≠ 0) (hi : i < 512)
    (hpresent : present (stalePml4 heap i) = true) {memory : Memory}
    (hagree : AgreeOnTables info heap.bitmap heap.memory memory) (hi₃ : i₃ < 512) (hi₂ : i₂ < 512)
    (hi₁ : i₁ < 512) (hlimit : (mapLimit info).toNat ≤ virtualAddress i i₃ i₂ i₁) :
    ∃ final, IdentityTables info heap.bitmap memory final ∧
      large (stalePml4 heap i) = false ∧
      (present (entryAt final (frame 12 (stalePml4 heap i)) i₃) = false ∨
        (large (entryAt final (frame 12 (stalePml4 heap i)) i₃) = false ∧
          (present (entryAt final (frame 12 (entryAt final (frame 12 (stalePml4 heap i)) i₃))
              i₂) = false ∨
            (large (entryAt final (frame 12 (entryAt final (frame 12 (stalePml4 heap i)) i₃))
                i₂) = false ∧
              present (entryAt final (frame 12 (entryAt final (frame 12 (entryAt final
                (frame 12 (stalePml4 heap i)) i₃)) i₂)) i₁) = false)))) := by
  obtain ⟨final, htables, hwalk⟩ := h memory hagree
  obtain ⟨hx₄, hx₃, hx₂, hx₁⟩ := tableIndex_virtualAddress hi hi₃ hi₂ hi₁
  have hend := hwalk _ (virtualAddress_canonical hi hi₃ hi₂ hi₁) hlimit
  rw [walk_notPresent_iff, frame_cr3, hx₄, htables.stale_pml4 hagree hzero hi,
    walkPdpt_notPresent_iff, hx₃, walkPd_notPresent_iff, hx₂, hx₁] at hend
  simp only [hpresent, Bool.true_eq_false, false_or] at hend
  exact ⟨final, htables, hend⟩

/-- In a sealed map, a stale word of the PML4 that an address above the limit selects is not
present, or it points to a PDPT without a directory. -/
theorem Sealed.stale_pml4_ends (h : Sealed info heap) {i : Nat} (hzero : i ≠ 0) (hi : i < 512)
    (habove : (∀ i₃ i₂ i₁, (mapLimit info).toNat ≤ virtualAddress i i₃ i₂ i₁) ∨
      ((gibCount info).toNat = 0 ∧ i = 511)) :
    present (stalePml4 heap i) = false ∨
      (large (stalePml4 heap i) = false ∧ (gibCount info).toNat = 0 ∧
        nthPage heap.bitmap 1 ≠ 0 ∧ frame 12 (stalePml4 heap i) = nthPage heap.bitmap 1) := by
  by_cases hpresent : present (stalePml4 heap i) = false
  · exact .inl hpresent
  rw [Bool.not_eq_false] at hpresent
  have hself : AgreeOnTables info heap.bitmap heap.memory heap.memory := fun _ _ _ _ _ => rfl
  have hlast := (mapLimit info).isLt
  have hall : (mapLimit info).toNat ≤ virtualAddress i 511 511 511 ∧
      (mapLimit info).toNat ≤ virtualAddress i i i i := by
    rcases habove with hall | ⟨_, rfl⟩
    · exact ⟨hall 511 511 511, hall i i i⟩
    · rw [virtualAddress_last]
      omega
  have hfirst : 0 < (gibCount info).toNat → (mapLimit info).toNat ≤ virtualAddress i 0 0 0 :=
    fun hgib => habove.elim (fun hall => hall 0 0 0) (by omega)
  rcases table_cases info heap (frame 12 (stalePml4 heap i)) with
    hpage | hpage | ⟨hpdpt, hpage⟩ | ⟨g, hg, hpage⟩
  · obtain ⟨final, htables, _, hend⟩ := h.pml4_walk hzero hi hpresent
      (hpage.agree (dvd_frame _)) (by omega) (by omega) (by omega) hall.1
    obtain ⟨hleaf, hlarge⟩ := htables.filled hpage (dvd_frame _) (show 511 < 512 by omega)
    simp [hleaf, hlarge] at hend
  · -- It points to the PML4 itself: the address that selects it at every level is mapped.
    obtain ⟨final, htables, _, hend⟩ := h.pml4_walk hzero hi hpresent hself hi hi hi hall.2
    have hstale := htables.stale_pml4 hself hzero hi
    simp [hpage, hstale, hpresent] at hend
  · obtain ⟨_, _, hlarge, _⟩ := h.pml4_walk hzero hi hpresent hself (by omega) (by omega)
      (by omega) hall.1
    refine .inr ⟨hlarge, ?_, hpdpt, hpage⟩
    by_contra hgib
    have hpos : 0 < (gibCount info).toNat := Nat.pos_of_ne_zero hgib
    obtain ⟨final, htables, _, hend⟩ := h.pml4_walk hzero hi hpresent hself (by omega) (by omega)
      (by omega) (hfirst hpos)
    obtain ⟨haligned, hbound⟩ := nthPage_aligned heap.bitmap 2
    obtain ⟨hpointer, _, _, hframe⟩ :=
      tableEntry_fields haligned (Nat.lt_trans hbound (by omega))
    have hpdpte : entryAt final (nthPage heap.bitmap 1) 0 = tableEntry (nthPage heap.bitmap 2) :=
      htables.pdpt_mapped 0 hpos
    obtain ⟨hleaf, hleafLarge⟩ := htables.pd_leaf hpos
    rw [hpage, hpdpte, hframe] at hend
    simp [hpointer, hleaf, hleafLarge] at hend
  · obtain ⟨final, htables, _, hend⟩ := h.pml4_walk hzero hi hpresent hself (by omega) (by omega)
      (by omega) (hfirst (by omega))
    obtain ⟨hleaf, hlarge⟩ := htables.pd_leaf hg
    rw [hpage] at hend
    simp [hleaf, hlarge] at hend

/-- In a sealed map there is a PDPT, if an address above the limit selects it. -/
theorem Sealed.pdpt_granted (h : Sealed info heap) {v : Nat} (hcanonical : Canonical v)
    (hv : (mapLimit info).toNat ≤ v) (hzero : tableIndex 39 v = 0) :
    nthPage heap.bitmap 1 ≠ 0 := by
  intro hnull
  -- The PML4 leads to page 0, which is no table.
  have hpage : NoTable info heap 0 := fun k hk hgranted => hgranted.symm
  obtain ⟨final, htables, hwalk⟩ := h _ (hpage.agree ⟨0, rfl⟩)
  obtain ⟨hpresent, _, hframe⟩ := htables.pml4_leads
  obtain ⟨hleaf, hlarge⟩ := htables.filled hpage ⟨0, rfl⟩ (tableIndex_lt 30 v)
  have hend := hwalk v hcanonical hv
  rw [walk_notPresent_iff, frame_cr3, hzero, hframe, hnull, walkPdpt_notPresent_iff] at hend
  simp [hpresent, hleaf, hlarge] at hend

/-- The limit lies below every address with the PDPT entry of `v`, or in the last GiB. -/
theorem limit_below_pdpt {v : Nat} (hcanonical : Canonical v) (hv : (mapLimit info).toNat ≤ v)
    (hgib : (gibCount info).toNat ≤ tableIndex 30 v) :
    (∀ i₂ i₁, (mapLimit info).toNat ≤ virtualAddress (tableIndex 39 v) (tableIndex 30 v) i₂ i₁) ∨
      ((gibCount info).toNat = 0 ∧ tableIndex 39 v = 511 ∧ tableIndex 30 v = 511) := by
  rcases mapLimit_cases info with hlimit | ⟨hnone, hlimit⟩
  · refine .inl fun i₂ i₁ => ?_
    unfold virtualAddress
    omega
  · refine .inr ⟨hnone, ?_⟩
    unfold Canonical at hcanonical
    unfold tableIndex
    omega

/-- The limit lies below every address with the PML4 entry of `v`, or in the last GiB. -/
theorem limit_below_pml4 {v : Nat} (hcanonical : Canonical v) (hv : (mapLimit info).toNat ≤ v)
    (hgibs : (gibCount info).toNat ≤ 512) (hzero : tableIndex 39 v ≠ 0) :
    (∀ i₃ i₂ i₁, (mapLimit info).toNat ≤ virtualAddress (tableIndex 39 v) i₃ i₂ i₁) ∨
      ((gibCount info).toNat = 0 ∧ tableIndex 39 v = 511) := by
  rcases mapLimit_cases info with hlimit | ⟨hnone, hlimit⟩
  · refine .inl fun i₃ i₂ i₁ => ?_
    unfold virtualAddress
    omega
  · refine .inr ⟨hnone, ?_⟩
    unfold Canonical at hcanonical
    unfold tableIndex
    omega

/-- Sealed maps are those whose stale words end every walk above the limit. -/
theorem Sealed.words_end (h : Sealed info heap) {v : Nat} (hcanonical : Canonical v)
    (hv : (mapLimit info).toNat ≤ v) : StaleWordsEnd info heap v := by
  obtain ⟨_, htables, _⟩ := h heap.memory fun _ _ _ _ _ => rfl
  have hgibs := htables.gibs_le
  have hi := tableIndex_lt 39 v
  have hj := tableIndex_lt 30 v
  refine ⟨fun hzero => ?_, fun hzero hgib => ?_⟩
  · rcases h.stale_pml4_ends hzero hi (limit_below_pml4 hcanonical hv hgibs hzero) with
      habsent | ⟨hlarge, hnone, hpdpt, hframe⟩
    · exact .inl habsent
    · by_cases hpresent : present (stalePml4 heap (tableIndex 39 v)) = false
      · exact .inl hpresent
      rw [Bool.not_eq_false] at hpresent
      refine .inr ⟨hnone, hpdpt, hlarge, hframe, ?_⟩
      refine h.stale_pdpt_absent hpdpt hi hj (by omega) ?_
        (limit_below_pdpt hcanonical hv (by omega))
      intro memory final hagree htables'
      rw [htables'.stale_pml4 hagree hzero hi]
      exact ⟨hpresent, hlarge, hframe⟩
  · have hpdpt := h.pdpt_granted hcanonical hv hzero
    refine ⟨hpdpt, h.stale_pdpt_absent hpdpt hi hj hgib ?_
      (limit_below_pdpt hcanonical hv hgib)⟩
    intro memory final _ htables'
    rw [hzero]
    exact htables'.pml4_leads

/-- If `BuildIdentityMap2M` returns true, its tables map no canonical address at or above the
limit exactly if the stale words that such addresses select end their walks. -/
theorem maps_nothing_above_iff {info : MemoryInfo} {heap heap' : Heap} {cr3 : BitVec 64}
    (hbuild : buildIdentityMap2M (some info) heap = (some cr3, heap')) :
    MapsNothingAbove info heap ↔
      ∀ v, Canonical v → (mapLimit info).toNat ≤ v → StaleWordsEnd info heap v := by
  constructor
  · intro hnothing v hcanonical hv
    refine Sealed.words_end (fun memory hagree => ?_) hcanonical hv
    obtain ⟨heap'', hbuild'⟩ := build_other_memory hbuild memory
    obtain ⟨rfl, htables⟩ := build_tables hbuild'
    exact ⟨heap''.memory, htables, hnothing memory hagree _ heap'' hbuild'⟩
  · intro hends memory hagree cr3' heap'' hbuild' v hcanonical hv
    obtain ⟨rfl, htables⟩ := build_tables hbuild'
    have htables : IdentityTables info heap.bitmap memory heap''.memory := htables
    exact htables.walk_above hagree hv hcanonical (hends v hcanonical hv)

theorem maps_nothing_above_clean_memory :
    (buildIdentityMap2M (some oneMegabyte) ⟨sevenPages, fun _ => 0⟩).1 = some 4096#64 ∧
      MapsNothingAbove oneMegabyte ⟨sevenPages, fun _ => 0⟩ := by
  obtain ⟨heap', hbuild⟩ := exists_build build_oneMegabyte
  have hclean : ∀ table i, present (entryAt (fun _ => 0) table i) = false := by
    intro table i
    rw [entryAt, Memory.load64_eq_zero fun _ _ => rfl]
    rfl
  refine ⟨build_oneMegabyte, (maps_nothing_above_iff hbuild).mpr fun v _ _ => ⟨fun _ => ?_, ?_⟩⟩
  · exact .inl (hclean _ _)
  · exact fun _ _ => ⟨by decide +kernel, hclean _ _⟩

/-- Seven free pages. The first of them, which becomes the PML4, holds a word that points to the
second. -/
def staleHeap : Heap := ⟨sevenPages, Memory.store64 (fun _ => 0) 4104 0x2003#64⟩

/-- The stale word maps the addresses from 512 GiB on to physical memory, writable. -/
theorem stale_word_maps_above :
    ∃ heap', buildIdentityMap2M (some oneMegabyte) staleHeap = (some 4096#64, heap') ∧
      Canonical (2 ^ 39 + 0x123456) ∧ (mapLimit oneMegabyte).toNat ≤ 2 ^ 39 + 0x123456 ∧
      walk heap'.memory 4096#64 (2 ^ 39 + 0x123456) = .mapped 0x123456 true .mib2 := by
  have hcr3 : (buildIdentityMap2M (some oneMegabyte) staleHeap).1 = some 4096#64 := by
    decide +kernel
  obtain ⟨heap', hbuild⟩ := exists_build hcr3
  have hpml4 : nthPage sevenPages 0 = 4096 := by decide +kernel
  have hpdpt : nthPage sevenPages 1 = 8192 := by decide +kernel
  obtain ⟨_, htables⟩ := build_tables hbuild
  have hentry : entryAt heap'.memory 4096 1 = 0x2003#64 := by
    have hrest := htables.pml4_rest 1 (by omega) (by omega)
    rw [show nthPage staleHeap.bitmap 0 = 4096 from hpml4] at hrest
    exact hrest.trans Memory.load64_store64_same
  have hlimit : (mapLimit oneMegabyte).toNat = 2 ^ 21 := by decide
  have hgibs : (gibCount oneMegabyte).toNat = 1 := by decide
  have hbelow := htables.walkPdpt_below (v := 2 ^ 39 + 0x123456) (by rw [hlimit]; omega)
    (by rw [hlimit, hgibs]; omega)
  rw [show nthPage staleHeap.bitmap 1 = 8192 from hpdpt] at hbelow
  refine ⟨heap', hbuild, .inl (by omega), by rw [hlimit]; omega, ?_⟩
  rw [walk, show frame 12 4096#64 = 4096 by decide,
    show tableIndex 39 (2 ^ 39 + 0x123456) = 1 by decide, hentry,
    descend_next (by decide) (by decide), show frame 12 0x2003#64 = 8192 by decide,
    show writable 0x2003#64 = true by decide, hbelow,
    show (2 ^ 39 + 0x123456) % 2 ^ 39 = 0x123456 by omega]

end HailOS.X86
