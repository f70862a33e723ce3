import Mathlib.Order.Interval.Finset.Nat
import HailOS.Memory.GrantedBlocks
import HailOS.Memory.NewDelete

/-!
# Room for what was asked

A block of `operator new` is to hold the bytes asked for, in pages that were free and are then
used, and its header is to record how many pages were taken. The size the operators pass on has
the 8 bytes of the header added in 64 bits. For the seven largest sizes the sum wraps around to a
size of a few bytes, and one page is granted for all of them. The other sizes are granted in full,
unless the allocator comes upon a run of pages past its bitmap.

`new_enough_room_iff` says exactly when both operators return enough room.
-/

namespace HailOS.Early

open Lib Kernel

/-- The bytes of the block lie in pages that were unused and became used, and the header records
the number of all pages that did. -/
structure EnoughRoom (heap heap' : Heap) (size p : Nat) : Prop where
  room : ∀ x, p ≤ x → x < p + size →
    bitAt heap.bitmap (x / 4096) = unusedBit ∧ bitAt heap'.bitmap (x / 4096) = usedBit
  recorded : ∃ marked : Finset Nat,
    (∀ k, k ∈ marked ↔ bitAt heap.bitmap k = unusedBit ∧ bitAt heap'.bitmap k = usedBit) ∧
      allocatedPages heap'.memory (allocatedAddr p) = marked.card

/-- Both forms of `operator new` give enough room whenever they give any. -/
structure NewEnoughRoom (heap : Heap) (size : Nat) : Prop where
  throwing : ∀ p heap', operatorNew heap size = some (p, heap') → EnoughRoom heap heap' size p
  nothrow : ∀ p heap', operatorNewNothrow heap size = (p, heap') → p ≠ 0 →
    EnoughRoom heap heap' size p

variable {heap heap' : Heap} {size p s : Nat}

/-- The two forms differ only in what they do without a block. -/
theorem operatorNew_eq_some :
    operatorNew heap size = some (p, heap') ↔
      operatorNewNothrow heap size = (p, heap') ∧ p ≠ 0 := by
  unfold operatorNew operatorNewNothrow
  by_cases hnull : (allocatePageSize heap.bitmap (sizeAlloc size)).1 = 0
  · simp only [hnull, if_true, reduceCtorEq, false_iff, Prod.mk.injEq]
    intro h
    exact h.2 h.1.1.symm
  · simp only [hnull, if_false, Option.some.injEq, Prod.mk.injEq]
    constructor
    · intro h
      exact ⟨h, by rw [← h.1]; exact hnull⟩
    · exact And.left

theorem newEnoughRoom_iff :
    NewEnoughRoom heap size ↔
      ∀ p heap', operatorNew heap size = some (p, heap') → EnoughRoom heap heap' size p := by
  constructor
  · exact NewEnoughRoom.throwing
  · intro h
    exact ⟨h, fun p heap' hresult hp => h p heap' (operatorNew_eq_some.2 ⟨hresult, hp⟩)⟩

/-- A block is returned only if the allocator granted one. -/
theorem operatorNew_ne_null (h : operatorNew heap size = some (p, heap')) :
    (allocatePageSize heap.bitmap (sizeAlloc size)).1 ≠ 0 := by
  intro hnull
  simp [operatorNew, hnull] at h

/-- The size asked for, if the header fits on top of it. -/
theorem sizeAlloc_eq (h : size + 8 < 2 ^ 64) : sizeAlloc size = size + 8 :=
  Nat.mod_eq_of_lt h

/-- The size asked for, if the header makes it wrap around. -/
theorem sizeAlloc_wrapped (h : 2 ^ 64 - 8 < size) (hsize : size < 2 ^ 64) :
    pageCountOf (sizeAlloc size) = 1 := by
  rw [pageCountOf_eq, sizeAlloc, wrap64, allocatedMemoryInfoSize]
  omega

/-- The recorded page count of a granted block. -/
theorem operatorNew_recorded (h : operatorNew heap size = some (p, heap')) :
    allocatedPages heap'.memory (allocatedAddr p) = pageCountOf (sizeAlloc size) := by
  obtain ⟨s, -, hgrant, hheader, hmemory⟩ := operatorNew_grant h
  rw [hheader, hmemory, allocatedPages_write, Nat.mod_eq_of_lt hgrant.count_lt]

/-- The pages that a grant inside the bitmap takes. -/
theorem Grant.mem_marked {bitmap bitmap' : PageBitmap} {pageCount : Nat}
    (h : Grant bitmap bitmap' pageCount s) (hinside : s + pageCount ≤ pageTotal) (k : Nat) :
    k ∈ Finset.Ico s (s + pageCount) ↔
      bitAt bitmap k = unusedBit ∧ bitAt bitmap' k = usedBit := by
  rw [Finset.mem_Ico, h.marked hinside]
  constructor
  · intro hk
    exact ⟨h.unused hk.1 hk.2, if_pos hk⟩
  · intro hk
    by_contra hout
    rw [if_neg hout, hk.1] at hk
    cases hk.2

/-- A block inside the bitmap has enough room if its pages have. -/
theorem enoughRoom_of_inside (h : operatorNew heap size = some (4096 * s, heap'))
    (hgrant : Grant heap.bitmap heap'.bitmap (pageCountOf (sizeAlloc size)) s)
    (hinside : s + pageCountOf (sizeAlloc size) ≤ pageTotal)
    (hroom : size ≤ 4096 * pageCountOf (sizeAlloc size)) :
    EnoughRoom heap heap' size (4096 * s) := by
  refine ⟨?_, Finset.Ico s (s + pageCountOf (sizeAlloc size)), hgrant.mem_marked hinside, ?_⟩
  · intro x hlow hhigh
    exact (hgrant.mem_marked hinside _).1 (Finset.mem_Ico.2 ⟨by omega, by omega⟩)
  · rw [operatorNew_recorded h, Nat.card_Ico]
    omega

/-- A block outside the bitmap is recorded with pages that were not marked. -/
theorem not_enoughRoom_of_past (hpast : RunPastBitmap heap.bitmap (pageCountOf (sizeAlloc size))) :
    ¬ NewEnoughRoom heap size := by
  intro hroom
  obtain ⟨s, hs, -, hresult⟩ := hpast.granted
  have hnull : (allocatePageSize heap.bitmap (sizeAlloc size)).1 ≠ 0 := by
    rw [hresult]
    show 4096 * s ≠ 0
    omega
  have hnew := operatorNew_eq hnull
  obtain ⟨marked, hmarked, hcard⟩ := (hroom.throwing _ _ hnew).recorded
  have hempty : marked = ∅ := by
    refine Finset.eq_empty_of_forall_notMem fun k hk => ?_
    obtain ⟨hbefore, hafter⟩ := (hmarked k).1 hk
    rw [hresult, hbefore] at hafter
    cases hafter
  have hcount := hpast.1
  rw [operatorNew_recorded hnew, hempty, Finset.card_empty] at hcard
  omega

/-- A block of one page has no room for a second one. -/
theorem not_enoughRoom_of_wrapped (hone : pageCountOf (sizeAlloc size) = 1)
    (hlarge : 4096 < size) (h : operatorNew heap size = some (p, heap')) :
    ¬ EnoughRoom heap heap' size p := by
  intro hroom
  obtain ⟨s, rfl, hgrant, -⟩ := operatorNew_grant h
  obtain ⟨k, -, hpage, haddress, -⟩ := operatorNew_one_page hone h
  have hinside : s + pageCountOf (sizeAlloc size) ≤ pageTotal := by omega
  have hnext := hroom.room (4096 * s + 4096) (by omega) (by omega)
  have hmarked := Finset.mem_Ico.1 ((hgrant.mem_marked hinside _).2 hnext)
  omega

/-- One page is granted unless page 0 is free or no page is. -/
theorem allocatePage_ne_null {bitmap : PageBitmap} :
    (allocatePage bitmap).1 ≠ 0 ↔
      bitAt bitmap 0 ≠ unusedBit ∧ ∃ k < pageTotal, bitAt bitmap k ≠ usedBit := by
  rcases allocatePage_cases bitmap with ⟨k, hk, hfirst, haddress, -⟩ | ⟨hused, heq⟩
  · have hfree := isUnused_iff.1 (hfirst.run k (Nat.le_refl k) (Nat.lt_succ_self k))
    rw [haddress]
    constructor
    · intro hnull
      refine ⟨?_, k, hk, by rw [hfree]; decide⟩
      intro hzero
      refine hfirst.first 0 (by omega) ?_
      intro j _ hj
      obtain rfl : j = 0 := by omega
      exact isUnused_iff.2 hzero
    · intro h hnull
      obtain rfl : k = 0 := by omega
      exact h.1 hfree
  · rw [heq]
    simp only [ne_eq, not_true_eq_false, false_iff]
    intro h
    obtain ⟨-, k, hk, hne⟩ := h
    exact hne (hused k hk)

/-- A size that the header fits on is granted in full, away from the end of the bitmap. -/
theorem newEnoughRoom_of_fits (hfits : size + 8 < 2 ^ 64)
    (hpast : ¬ RunPastBitmap heap.bitmap (pageCountOf (sizeAlloc size))) :
    NewEnoughRoom heap size := by
  rw [newEnoughRoom_iff]
  intro p heap' hnew
  obtain ⟨s, rfl, hgrant, -⟩ := operatorNew_grant hnew
  have hinside : s + pageCountOf (sizeAlloc size) ≤ pageTotal := by
    have hnull : (allocatePageSize heap.bitmap (sizeAlloc size)).1 ≠ 0 := operatorNew_ne_null hnew
    obtain ⟨s', haddress, hinside, -⟩ := granted_inside hpast hnull
    rw [operatorNew_eq hnull] at hnew
    simp only [Option.some.injEq, Prod.mk.injEq] at hnew
    omega
  have hcount := pageCountOf_eq (sizeAlloc size)
  refine enoughRoom_of_inside hnew hgrant hinside ?_
  rw [hcount, sizeAlloc_eq hfits]
  omega

/-- A larger size is granted only by a wrapped sum, so only if a page other than page 0 is the
first free one. -/
theorem newEnoughRoom_of_refused (hsize : size < 2 ^ 64) (hlarge : ¬ size + 8 < 2 ^ 64)
    (hrefused : 2 ^ 64 - 8 < size →
      bitAt heap.bitmap 0 = unusedBit ∨ ∀ k < pageTotal, bitAt heap.bitmap k = usedBit) :
    NewEnoughRoom heap size := by
  rw [newEnoughRoom_iff]
  intro p heap' hnew
  obtain ⟨s, -, hgrant, -⟩ := operatorNew_grant hnew
  have hwraps : 2 ^ 64 - 8 < size := by
    -- The sum is 0 for the size below, and no page holds 0 bytes.
    by_contra hsmall
    have hpos := hgrant.count_pos
    rw [pageCountOf_eq, sizeAlloc, wrap64, allocatedMemoryInfoSize] at hpos
    omega
  have hnull := operatorNew_ne_null hnew
  rw [allocatePageSize_one (sizeAlloc_wrapped hwraps hsize), allocatePage_ne_null] at hnull
  obtain ⟨hzero, k, hk, hfree⟩ := hnull
  rcases hrefused hwraps with hunused | hused
  · exact absurd hunused hzero
  · exact absurd (hused k hk) hfree

/-- A wrapped sum takes one page, if there is one to be found. -/
theorem refused_of_newEnoughRoom (hsize : size < 2 ^ 64) (hwraps : 2 ^ 64 - 8 < size)
    (hroom : NewEnoughRoom heap size) :
    bitAt heap.bitmap 0 = unusedBit ∨ ∀ k < pageTotal, bitAt heap.bitmap k = usedBit := by
  by_contra hfree
  simp only [not_or, not_forall] at hfree
  obtain ⟨hzero, k, hk, hne⟩ := hfree
  have hone := sizeAlloc_wrapped hwraps hsize
  have hnull : (allocatePageSize heap.bitmap (sizeAlloc size)).1 ≠ 0 := by
    rw [allocatePageSize_one hone]
    exact allocatePage_ne_null.2 ⟨hzero, k, hk, hne⟩
  have hnew := operatorNew_eq hnull
  exact not_enoughRoom_of_wrapped hone (by omega) hnew (hroom.throwing _ _ hnew)

/-- Both operators give enough room iff a size that the header fits on does not meet a run past
the bitmap, and a larger one is refused: page 0 is free, so that it is found and taken for null,
or no page is free. -/
theorem new_enough_room_iff (heap : Heap) {size : Nat} (hsize : size < 2 ^ 64) :
    NewEnoughRoom heap size ↔
      (size + 8 < 2 ^ 64 → ¬ RunPastBitmap heap.bitmap ((size + 8 + 4095) / 4096)) ∧
        (2 ^ 64 - 8 < size →
          bitAt heap.bitmap 0 = unusedBit ∨ ∀ k < pageTotal, bitAt heap.bitmap k = usedBit) := by
  have hcount : size + 8 < 2 ^ 64 →
      pageCountOf (sizeAlloc size) = (size + 8 + 4095) / 4096 := by
    intro hfits
    rw [pageCountOf_eq, sizeAlloc_eq hfits]
  constructor
  · intro hroom
    refine ⟨?_, fun hwraps => refused_of_newEnoughRoom hsize hwraps hroom⟩
    intro hfits hpast
    rw [← hcount hfits] at hpast
    exact not_enoughRoom_of_past hpast hroom
  · intro hcondition
    by_cases hfits : size + 8 < 2 ^ 64
    · have hpast := hcondition.1 hfits
      rw [← hcount hfits] at hpast
      exact newEnoughRoom_of_fits hfits hpast
    · exact newEnoughRoom_of_refused hsize hfits hcondition.2

/-- With pages 1 to 7 free, 100 bytes get enough room. -/
theorem new_hundred_bytes_enough_room : NewEnoughRoom ⟨sevenPages, fun _ => 0⟩ 100 := by
  refine (new_enough_room_iff _ (by omega)).2 ⟨?_, by omega⟩
  intro _ hpast
  exact absurd hpast.1 (by omega)

/-- With pages 1 to 7 free, a request for all of the address space is granted one page. -/
theorem new_largest_size_one_page :
    (operatorNewNothrow ⟨sevenPages, fun _ => 0⟩ (2 ^ 64 - 1)).1 = 4096 ∧
      ¬ NewEnoughRoom ⟨sevenPages, fun _ => 0⟩ (2 ^ 64 - 1) := by
  refine ⟨by decide +kernel, ?_⟩
  intro hroom
  rcases refused_of_newEnoughRoom (by omega) (by omega) hroom with hzero | hused
  · exact absurd hzero (by decide)
  · exact absurd (hused 1 (by rw [pageTotal_eq]; omega)) (by decide)

end HailOS.Early
