import HailOS.Memory.HeapRuns

/-!
# What operator delete gives back

A block of `operator new` should come back whole: `GivesBack` says that `operator delete` clears
exactly the bits that this `operator new` set, whatever other objects were created and deleted in
between. Since the header lies in the page before the block and records pages where `FreePage`
takes bytes, `operator delete` frees that page instead of the last page of the block.

`delete_gives_back_iff` finds the blocks that do come back whole: those that start past the last
page of the bitmap, for which `operator new` sets no bit and `operator delete` clears none.
-/

namespace HailOS.Early

open Lib Kernel

/-- The action creates an object or deletes one other than `id`. -/
def HeapOp.OnOthers (id : Nat) : HeapOp → Prop
  | .new _ => True
  | .delete other => other ≠ id
  | _ => False

/-- The block at `p` that `operator new(size)` has just returned, leaving `heap`, comes back
whole: after any creations and deletions of other objects, `operator delete(p)` clears exactly
the bits of the pages that this `operator new` marked used. -/
def GivesBack (st : HeapState) (size p : Nat) (heap : Heap) : Prop :=
  ∀ ops st', Steps (fun s op t => HeapStep s op t ∧ op.OnOthers st.issued)
      (st.addBlock heap p size .operatorNew) ops st' →
    ∀ k, bitAt (operatorDelete st'.heap p).bitmap k = unusedBit ↔
      bitAt st'.heap.bitmap k = unusedBit ∨
        (bitAt st.heap.bitmap k = unusedBit ∧ bitAt heap.bitmap k = usedBit)

/-- Only objects are created and deleted, and every new one starts past the last page of the
bitmap. -/
def PastBitmap (st : HeapState) : HeapOp → Prop
  | .new size => ∀ p heap, operatorNew st.heap size = some (p, heap) → maxMemorySizeBytes < p
  | .delete _ => True
  | _ => False

/-- A block of the allocator starts past the bitmap if its first page does. -/
theorem max_lt_address_iff {s : Nat} : maxMemorySizeBytes < 4096 * s ↔ pageTotal < s := by
  rw [maxMemorySizeBytes_eq]
  omega

/-- A granted block starts below `2 ^ 64`. -/
theorem Grant.address_lt {bitmap bitmap' : PageBitmap} {count s : Nat}
    (h : Grant bitmap bitmap' count s) : 4096 * s < 2 ^ 64 := by
  have hscan : scanTotal = 2 ^ 24 + 8 := by rw [scanTotal_eq, pageTotal_eq]
  have hfits := h.first.fits
  omega

/-- The page before a granted block is used, or the search would have started there. -/
theorem Grant.before_used {bitmap bitmap' : PageBitmap} {count s : Nat}
    (h : Grant bitmap bitmap' count s) : bitAt bitmap (s - 1) = usedBit := by
  have hused := h.first.used_before h.start_pos
  rw [← bit_ne_unused]
  intro hunused
  rw [isUnused_iff.mpr hunused] at hused
  cases hused

/-- `operator delete` right after `operator new` frees the page before the block, unless the
block starts past the bitmap. -/
theorem delete_frees_page_before {heap heap' : Heap} {size s : Nat}
    (hnew : operatorNew heap size = some (4096 * s, heap')) (hs : s ≤ pageTotal) :
    bitAt (operatorDelete heap' (4096 * s)).bitmap (s - 1) = unusedBit := by
  obtain ⟨s', heq, hgrant, _, hmemory⟩ := operatorNew_grant hnew
  obtain rfl : s = s' := by omega
  have hstart := hgrant.start_pos
  have hfits := hgrant.first.fits
  rw [scanTotal_eq] at hfits
  have hrecorded : allocatedPages heap'.memory (4096 * s - 8) = pageCountOf (sizeAlloc size) := by
    rw [hmemory, allocatedPages_write, Nat.mod_eq_of_lt hgrant.count_lt]
  generalize pageCountOf (sizeAlloc size) = count at *
  have hcount := hgrant.count_pos
  have hcleared := pageCountOf_eq count
  rw [bitAt_operatorDelete heap' hstart hgrant.address_lt rfl (by rw [hrecorded]; omega),
    if_pos (by rw [hrecorded]; omega)]

/-- Past the bitmap, neither operator changes it. -/
theorem new_past_bitmap {heap heap' : Heap} {size s : Nat}
    (hnew : operatorNew heap size = some (4096 * s, heap')) (hs : pageTotal < s) :
    heap'.bitmap = heap.bitmap := by
  obtain ⟨s', heq, hgrant, _, _⟩ := operatorNew_grant hnew
  obtain rfl : s = s' := by omega
  exact hgrant.overrun (by omega)

/-- The invariant of runs past the bitmap: no live block has a bit. -/
structure PastInv (bitmap : PageBitmap) (st : HeapState) : Prop where
  unchanged : st.heap.bitmap = bitmap
  past : ∀ b ∈ st.live, ∃ s, b.address = 4096 * s ∧ pageTotal < s ∧ 4096 * s < 2 ^ 64

/-- Creating and deleting objects past the bitmap keeps the invariant. -/
theorem past_step_inv {bitmap : PageBitmap} (st : HeapState) (op : HeapOp) (st' : HeapState)
    (h : PastInv bitmap st) (hstep : HeapStep st op st' ∧ PastBitmap st op) :
    PastInv bitmap st' := by
  obtain ⟨hstep, hpast⟩ := hstep
  cases hstep with
  | @new size p heap _ hnew =>
      have hp : maxMemorySizeBytes < p := hpast p heap hnew
      obtain ⟨s, rfl, hgrant, _, _⟩ := operatorNew_grant hnew
      rw [max_lt_address_iff] at hp
      refine ⟨(new_past_bitmap hnew hp).trans h.unchanged, fun b hb => ?_⟩
      rcases List.mem_cons.mp hb with rfl | hb
      · exact ⟨s, rfl, hp, hgrant.address_lt⟩
      · exact h.past b hb
  | delete b hb _ =>
      obtain ⟨s, haddress, hs, hbound⟩ := h.past b hb
      refine ⟨?_, fun c hc => h.past c (List.mem_of_mem_erase hc)⟩
      show (operatorDelete st.heap b.address).bitmap = bitmap
      rw [haddress, operatorDelete_past _ hs hbound]
      exact h.unchanged
  | allocatePage => exact hpast.elim
  | allocatePageSize => exact hpast.elim
  | write => exact hpast.elim

/-- A run of objects past the bitmap leaves the bitmap alone. -/
theorem past_run_bitmap {start st : HeapState} {ops : List HeapOp} (hstart : start.live = [])
    (hrun : Steps (fun s op t => HeapStep s op t ∧ PastBitmap s op) start ops st) :
    st.heap.bitmap = start.heap.bitmap :=
  (hrun.invariant past_step_inv ⟨rfl, by simp [hstart]⟩).unchanged

/-- A block of `operator new` comes back whole exactly if it starts past the bitmap, and that is
also when `operator delete` right after `operator new` restores the bitmap. In a run whose
objects all start past the bitmap, deleting all of them restores the bitmap. -/
theorem delete_gives_back_iff {st : HeapState} {size p : Nat} {heap : Heap}
    (hnew : operatorNew st.heap size = some (p, heap)) :
    (GivesBack st size p heap ↔ maxMemorySizeBytes < p) ∧
      ((operatorDelete heap p).bitmap = st.heap.bitmap ↔ maxMemorySizeBytes < p) ∧
      ∀ ops st', st.live = [] →
        Steps (fun s op t => HeapStep s op t ∧ PastBitmap s op) st ops st' → st'.live = [] →
        st'.heap.bitmap = st.heap.bitmap := by
  obtain ⟨s, rfl, hgrant, _, _⟩ := operatorNew_grant hnew
  have hbefore := hgrant.before_used
  have hafter := hgrant.used_mono hbefore
  rw [max_lt_address_iff]
  refine ⟨⟨fun hgives => ?_, fun hs => ?_⟩, ⟨fun hrestored => ?_, fun hs => ?_⟩,
    fun ops st' hstart hrun _ => past_run_bitmap hstart hrun⟩
  · by_contra hs
    have hcleared := delete_frees_page_before hnew (Nat.le_of_not_lt hs)
    have hiff := hgives [] _ (.refl _) (s - 1)
    rcases hiff.mp hcleared with hunused | ⟨hunused, _⟩
    · exact absurd (hunused.symm.trans hafter) (by decide)
    · exact absurd (hunused.symm.trans hbefore) (by decide)
  · intro ops st' _ k
    rw [operatorDelete_past _ hs hgrant.address_lt, new_past_bitmap hnew hs]
    constructor
    · exact .inl
    · rintro (hunused | ⟨hunused, hused⟩)
      · exact hunused
      · exact absurd (hunused.symm.trans hused) (by decide)
  · by_contra hs
    have hcleared := delete_frees_page_before hnew (Nat.le_of_not_lt hs)
    rw [hrestored, hbefore] at hcleared
    cases hcleared
  · rw [operatorDelete_past _ hs hgrant.address_lt, new_past_bitmap hnew hs]

/-- Every page of the bitmap is used, and of the byte that `FindAvailableAddress` reads past its
end, bits 1 and 2 are clear. -/
def onlyPastPages : PageBitmap := fun i => if i = 2 ^ 21 then 0xF9 else 0xFF

theorem onlyPastPages_unused {k : Nat} :
    isUnused onlyPastPages k = true ↔ k = 2 ^ 24 + 1 ∨ k = 2 ^ 24 + 2 := by
  have hlast : ∀ b < 8, bit 0xF9 b = unusedBit ↔ b = 1 ∨ b = 2 := by decide
  have hb : k % 8 < 8 := Nat.mod_lt k (by omega)
  rw [isUnused_iff]
  by_cases hbyte : k / 8 = 2 ^ 21
  · show bit (onlyPastPages (k / 8)) (k % 8) = unusedBit ↔ _
    rw [onlyPastPages, if_pos hbyte, hlast _ hb]
    omega
  · have hfull : onlyPastPages (k / 8) = 0xFF := if_neg hbyte
    rw [bitAt_full hfull]
    constructor
    · intro hused
      cases hused
    · omega

theorem delete_gives_back_past_bitmap :
    ∃ heap, operatorNew ⟨onlyPastPages, fun _ => 0⟩ 5000 = some (4096 * (2 ^ 24 + 1), heap) ∧
      GivesBack ⟨⟨onlyPastPages, fun _ => 0⟩, [], 0⟩ 5000 (4096 * (2 ^ 24 + 1)) heap := by
  have hcount : pageCountOf (sizeAlloc 5000) = 2 := by decide
  have hfirst : FirstRun (isUnused onlyPastPages) (pageCountOf (sizeAlloc 5000)) scanTotal
      (2 ^ 24 + 1) := by
    rw [hcount]
    refine ⟨by decide, fun k hlow hhigh => onlyPastPages_unused.mpr (by omega), ?_⟩
    intro s hs hrun
    have hstart := onlyPastPages_unused.mp (hrun s (by omega) (by omega))
    omega
  have haddress := allocatePageSize_address (by rw [hcount]; omega) hfirst (by omega)
  have hnew := @operatorNew_eq ⟨onlyPastPages, fun _ => 0⟩ 5000
    fun hnull => absurd (haddress.symm.trans hnull) (by decide)
  rw [haddress] at hnew
  have hiff := @delete_gives_back_iff ⟨⟨onlyPastPages, fun _ => 0⟩, [], 0⟩ _ _ _ hnew
  exact ⟨_, hnew, hiff.1.mpr (by decide)⟩

/-- With page 0 used and page 1 free, deleting a one-byte object frees page 0 and leaves page 1,
which it was given, used. -/
theorem delete_frees_wrong_page :
    ∃ heap, operatorNew sevenPagesStart.heap 1 = some (4096, heap) ∧
      ¬ GivesBack sevenPagesStart 1 4096 heap ∧
      bitAt sevenPages 0 = usedBit ∧ bitAt (operatorDelete heap 4096).bitmap 0 = unusedBit ∧
      bitAt sevenPages 1 = unusedBit ∧ bitAt (operatorDelete heap 4096).bitmap 1 = usedBit := by
  have haddress : (allocatePageSize sevenPagesStart.heap.bitmap (sizeAlloc 1)).1 = 4096 := by
    decide +kernel
  have hnew := @operatorNew_eq sevenPagesStart.heap 1
    fun hnull => absurd (haddress.symm.trans hnull) (by decide)
  rw [haddress] at hnew
  have hzero := delete_frees_page_before (s := 1) hnew (by decide)
  refine ⟨_, hnew, fun hgives => ?_, by decide, hzero, by decide, by decide +kernel⟩
  rcases (hgives [] _ (.refl _) 0).mp hzero with hunused | ⟨hunused, _⟩
  · exact absurd hunused (by decide +kernel)
  · exact absurd hunused (by decide)

end HailOS.Early
