import Mathlib.Order.Interval.Finset.Nat
import HailOS.Lib.Ledger
import HailOS.Lib.Steps
import HailOS.Memory.EarlyPageAllocator

/-!
# Runs of the early page allocator

A run calls `AllocatePage` and `FreePage` in any order, each free on a block that is
outstanding. The abstract view of such a run is a ledger: the pool of initially unused pages is
split into the pages that are unused now and the outstanding blocks. `run_ledger` shows that the
bitmap keeps that ledger, and `allocator_bookkeeping` reads it back as a statement about bits,
addresses and `GetAvailableSize`.
-/

namespace HailOS.Early

open Lib Kernel

/-- A block that `AllocatePage` returned, with the size it was requested with. A block of
`AllocatePage()` has the size of one page. -/
structure Block where
  address : Nat
  size : Nat
  deriving DecidableEq, Repr

/-- The number of pages of a block. -/
def Block.pageCount (b : Block) : Nat := pageCountOf b.size

/-- The pages of a block. -/
def Block.pages (b : Block) : Finset Nat :=
  Finset.Ico (b.address / pageSize) (b.address / pageSize + b.pageCount)

/-- The block lies below `MAX_MEMORY_SIZE_BYTES`. -/
def Block.Below (b : Block) : Prop :=
  b.address + pageSize * b.pageCount ≤ maxMemorySizeBytes

theorem Block.mem_pages {b : Block} {k : Nat} :
    k ∈ b.pages ↔ b.address / 4096 ≤ k ∧ k < b.address / 4096 + b.pageCount :=
  Finset.mem_Ico

theorem Block.card_pages (b : Block) : b.pages.card = b.pageCount := by
  simp [Block.pages]

/-- The bitmap and the blocks that were returned and not yet freed. -/
structure AllocatorState where
  bitmap : PageBitmap
  outstanding : List Block

/-- A call of the allocator. -/
inductive Call where
  | allocatePage
  | allocatePageSize (minSize : Nat)
  | freePage (ptr : Nat)
  | freePageSize (ptr allocatedSize : Nat)
  deriving DecidableEq, Repr

/-- The state after an allocation: a null result is not a block. -/
def AllocatorState.receive (st : AllocatorState) (size : Nat) (result : Nat × PageBitmap) :
    AllocatorState where
  bitmap := result.2
  outstanding :=
    if result.1 = 0 then st.outstanding else ⟨result.1, size⟩ :: st.outstanding

theorem bitmap_receive (st : AllocatorState) (size : Nat) (result : Nat × PageBitmap) :
    (st.receive size result).bitmap = result.2 := rfl

/-- The calls a client may make. A returned block has to lie below `MAX_MEMORY_SIZE_BYTES`,
`FreePage(ptr)` takes an outstanding block of one page, and `FreePage(ptr, size)` an outstanding
block with the size it was requested with. -/
inductive CallStep : AllocatorState → Call → AllocatorState → Prop where
  | allocatePage (st : AllocatorState) :
      CallStep st .allocatePage (st.receive pageSize (allocatePage st.bitmap))
  | allocatePageSize (st : AllocatorState) (minSize : Nat)
      (hbelow : (allocatePageSize st.bitmap minSize).1 ≠ 0 →
        Block.Below ⟨(allocatePageSize st.bitmap minSize).1, minSize⟩) :
      CallStep st (.allocatePageSize minSize)
        (st.receive minSize (allocatePageSize st.bitmap minSize))
  | freePage (st : AllocatorState) (b : Block) (hb : b ∈ st.outstanding)
      (hone : b.pageCount = 1) :
      CallStep st (.freePage b.address)
        { bitmap := freePage st.bitmap b.address, outstanding := st.outstanding.erase b }
  | freePageSize (st : AllocatorState) (b : Block) (hb : b ∈ st.outstanding) :
      CallStep st (.freePageSize b.address b.size)
        { bitmap := freePageSize st.bitmap b.address b.size,
          outstanding := st.outstanding.erase b }

/-! ## The ledger -/

/-- The pages a bitmap marks unused. -/
def unusedPages (bitmap : PageBitmap) : Set Nat := { k | bitAt bitmap k = unusedBit }

theorem mem_unusedPages {bitmap : PageBitmap} {k : Nat} :
    k ∈ unusedPages bitmap ↔ bitAt bitmap k = unusedBit := Iff.rfl

/-- A block that the allocator may have returned. -/
structure Block.WellPlaced (b : Block) : Prop where
  aligned : pageSize ∣ b.address
  nonnull : b.address ≠ 0
  occupied : 0 < b.pageCount
  within : b.address / pageSize + b.pageCount ≤ pageTotal

/-- The invariant of a run: page 0 stays used, the outstanding blocks are well placed, and the
bitmap keeps the ledger of the initial one. -/
structure Books (initial : PageBitmap) (st : AllocatorState) : Prop where
  null_used : bitAt st.bitmap 0 = usedBit
  placed : ∀ b ∈ st.outstanding, b.WellPlaced
  ledger : Ledger Block.pages (unusedPages initial) (unusedPages st.bitmap) st.outstanding

/-- A granted block below `MAX_MEMORY_SIZE_BYTES` is entered in the ledger. -/
theorem Books.grant {initial bitmap' : PageBitmap} {st : AllocatorState} {size s : Nat}
    (h : Books initial st) (hgrant : Grant st.bitmap bitmap' (pageCountOf size) s)
    (hfits : s + pageCountOf size ≤ pageTotal) :
    Books initial (st.receive size (4096 * s, bitmap')) := by
  have hs := hgrant.start_pos
  have hpage : 4096 * s / 4096 = s := by omega
  have hpages : ∀ k, k ∈ Block.pages ⟨4096 * s, size⟩ ↔
      s ≤ k ∧ k < s + pageCountOf size := by
    intro k
    rw [Block.mem_pages]
    simp only [hpage, Block.pageCount]
  have hreceive : st.receive size (4096 * s, bitmap') =
      ⟨bitmap', ⟨4096 * s, size⟩ :: st.outstanding⟩ := by
    rw [AllocatorState.receive, if_neg (show 4096 * s ≠ 0 by omega)]
  rw [hreceive]
  refine ⟨hgrant.used_mono h.null_used, fun b hb => ?_, h.ledger.take ?_ ?_⟩
  · rcases List.mem_cons.mp hb with rfl | hb
    · exact ⟨⟨s, rfl⟩, show 4096 * s ≠ 0 by omega, hgrant.count_pos, by
        show 4096 * s / 4096 + pageCountOf size ≤ pageTotal
        omega⟩
    · exact h.placed b hb
  · intro k hk
    obtain ⟨hlow, hhigh⟩ := (hpages k).mp hk
    exact hgrant.unused hlow hhigh
  · intro k
    rw [hpages k, mem_unusedPages, mem_unusedPages, hgrant.marked hfits k]
    split
    · next hin => simp [hin, usedBit, unusedBit]
    · next hout => simp [hout]

/-- A freed block leaves the ledger. -/
theorem Books.release {initial bitmap' : PageBitmap} {st : AllocatorState} {b : Block}
    (h : Books initial st) (hb : b ∈ st.outstanding)
    (hbits : ∀ k, bitAt bitmap' k = if k ∈ b.pages then unusedBit else bitAt st.bitmap k) :
    Books initial ⟨bitmap', st.outstanding.erase b⟩ := by
  have hplaced := h.placed b hb
  refine ⟨?_, fun c hc => h.placed c (List.mem_of_mem_erase hc), h.ledger.give hb fun k => ?_⟩
  · have hpositive : 0 < b.address / 4096 := by
      obtain ⟨page, hpage⟩ := hplaced.aligned
      have hnonnull := hplaced.nonnull
      rw [show pageSize = 4096 from rfl] at hpage
      omega
    rw [hbits 0, if_neg fun hzero => by have := (Block.mem_pages.mp hzero).1; omega]
    exact h.null_used
  · rw [mem_unusedPages, mem_unusedPages, hbits k]
    split
    · next hin => simp [hin]
    · next hout => simp [hout]

/-- Every call keeps the books. -/
theorem call_step_books {initial : PageBitmap} (st : AllocatorState) (call : Call)
    (st' : AllocatorState) (h : Books initial st) (hstep : CallStep st call st') :
    Books initial st' := by
  have hnull : ∀ {size : Nat} {result : Nat × PageBitmap}, result.1 = 0 →
      result.2 = st.bitmap → st.receive size result = st := by
    intro size result hresult hbitmap
    rw [AllocatorState.receive, if_pos hresult, hbitmap]
  cases hstep with
  | allocatePage =>
      by_cases hresult : (allocatePage st.bitmap).1 = 0
      · rw [hnull hresult (allocatePage_null h.null_used hresult).2]
        exact h
      · obtain ⟨s, hs, haddress, hgrant⟩ := allocatePage_grant hresult
        rw [← Prod.mk.eta (p := allocatePage st.bitmap), haddress]
        exact h.grant (show Grant _ _ (pageCountOf pageSize) s from hgrant)
          (show s + 1 ≤ pageTotal from hs)
  | allocatePageSize minSize hbelow =>
      by_cases hresult : (allocatePageSize st.bitmap minSize).1 = 0
      · rw [hnull hresult (allocatePageSize_null h.null_used hresult)]
        exact h
      · obtain ⟨s, haddress, hgrant⟩ := allocatePageSize_grant hresult
        have hend := hbelow hresult
        have htotal := maxMemorySizeBytes_eq
        rw [Block.Below, haddress, htotal] at hend
        rw [← Prod.mk.eta (p := allocatePageSize st.bitmap minSize), haddress]
        exact h.grant hgrant (Nat.le_of_mul_le_mul_left
          (by rw [Nat.mul_add]; exact hend) (show 0 < 4096 by decide))
  | freePage b hb hone =>
      refine h.release hb fun k => ?_
      have hiff : k ∈ b.pages ↔ k = b.address / 4096 := by
        rw [Block.mem_pages, hone]
        omega
      rw [bitAt_freePage]
      simp only [hiff]
  | freePageSize b hb =>
      refine h.release hb fun k => ?_
      rw [bitAt_freePageSize st.bitmap (h.placed b hb).within]
      simp only [Block.mem_pages, Block.pageCount]

/-- Every run from a bitmap with page 0 used keeps the books. -/
theorem run_ledger {initial : PageBitmap} (hzero : bitAt initial 0 = usedBit)
    {calls : List Call} {st : AllocatorState} (hrun : Steps CallStep ⟨initial, []⟩ calls st) :
    Books initial st :=
  hrun.invariant call_step_books ⟨hzero, by simp, .empty _ _⟩

/-- In every state of every run from a bitmap with page 0 used, the used pages are the initially
used ones and those of the outstanding blocks. The outstanding blocks are page-aligned, non-null,
pairwise disjoint and made of initially free pages, and the available size accounts for them. -/
theorem allocator_bookkeeping {initial : PageBitmap} (hzero : bitAt initial 0 = usedBit)
    {calls : List Call} {st : AllocatorState} (hrun : Steps CallStep ⟨initial, []⟩ calls st) :
    (∀ k, bitAt st.bitmap k = usedBit ↔
        bitAt initial k = usedBit ∨ ∃ b ∈ st.outstanding, k ∈ b.pages) ∧
      (∀ b ∈ st.outstanding, pageSize ∣ b.address ∧ b.address ≠ 0 ∧ 0 < b.pageCount ∧
        ∀ k ∈ b.pages, bitAt initial k = unusedBit) ∧
      st.outstanding.Pairwise (fun b c => Disjoint b.pages c.pages) ∧
      getAvailableSize st.bitmap + 4096 * (st.outstanding.map Block.pageCount).sum =
        getAvailableSize initial := by
  have hbooks := run_ledger hzero hrun
  refine ⟨fun k => ?_, fun b hb => ?_, hbooks.ledger.disjoint, ?_⟩
  · rw [← bit_ne_unused, ← bit_ne_unused]
    have haccounted := hbooks.ledger.accounted k
    have hreserved := fun b hb => hbooks.ledger.reserved b hb k
    simp only [mem_unusedPages] at haccounted hreserved
    constructor
    · intro hused
      by_cases hinitial : bitAt initial k = unusedBit
      · exact .inr ((haccounted.mp hinitial).resolve_left hused)
      · exact .inl hinitial
    · rintro (hinitial | ⟨b, hb, hk⟩) hunused
      · exact hinitial (haccounted.mpr (.inl hunused))
      · exact hreserved b hb hk hunused
  · have hplaced := hbooks.placed b hb
    exact ⟨hplaced.aligned, hplaced.nonnull, hplaced.occupied,
      fun k hk => hbooks.ledger.mem_initial hb hk⟩
  · have hwindow : ∀ b ∈ st.outstanding, b.pages ⊆ Finset.range pageTotal := by
      intro b hb k hk
      have hwithin := (hbooks.placed b hb).within
      have hhigh := (Block.mem_pages.mp hk).2
      exact Finset.mem_range.mpr (Nat.lt_of_lt_of_le hhigh hwithin)
    classical
    have hcard := hbooks.ledger.card (Finset.range pageTotal) hwindow
    simp only [mem_unusedPages, Block.card_pages] at hcard
    rw [getAvailableSize_eq, getAvailableSize_eq, ← Nat.mul_add]
    exact congrArg (4096 * ·) (by convert hcard)

theorem allocator_bookkeeping_seven_pages :
    ∃ st, Steps CallStep ⟨sevenPages, []⟩
        [.allocatePageSize 5000, .allocatePage, .freePageSize 4096 5000] st ∧
      st.outstanding = [⟨12288, pageSize⟩] ∧
      getAvailableSize st.bitmap + 4096 = getAvailableSize sevenPages := by
  have hfirst : (allocatePageSize sevenPages 5000).1 = 4096 := by decide +kernel
  have hsecond : (allocatePage (allocatePageSize sevenPages 5000).2).1 = 12288 := by
    decide +kernel
  have hstep₁ := CallStep.allocatePageSize ⟨sevenPages, []⟩ 5000 fun _ => by
    rw [hfirst]
    exact show 4096 + 4096 * 2 ≤ maxMemorySizeBytes by decide
  have hstep₂ := CallStep.allocatePage ⟨(allocatePageSize sevenPages 5000).2, [⟨4096, 5000⟩]⟩
  have hstep₃ := CallStep.freePageSize
    ⟨(allocatePage (allocatePageSize sevenPages 5000).2).2, [⟨12288, pageSize⟩, ⟨4096, 5000⟩]⟩
    ⟨4096, 5000⟩ (by simp)
  rw [AllocatorState.receive, hfirst] at hstep₁
  rw [AllocatorState.receive, hsecond] at hstep₂
  have hrun := Steps.cons hstep₁ (.cons hstep₂ (.cons hstep₃ (.refl _)))
  have hsize := (allocator_bookkeeping (show bitAt sevenPages 0 = usedBit by decide) hrun).2.2.2
  refine ⟨_, hrun, rfl, ?_⟩
  rw [← hsize]
  exact congrArg (getAvailableSize _ + ·) (show 4096 = 4096 * 1 from rfl)

end HailOS.Early
