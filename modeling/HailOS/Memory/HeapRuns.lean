import Mathlib.Data.List.Pairwise
import HailOS.Lib.Steps
import HailOS.Memory.NewDelete

/-!
# Runs of the heap

Clients of the heap take blocks from `operator new` and from `AllocatePage`, delete the former,
and write to blocks they hold. `HeapStep` is one such action. The state records the live blocks,
so that it can be said which bytes belong to whom.

`HeapInv` is what a run keeps as long as every granted block lies inside the bitmap and no
`operator delete` frees a page of another live block (`Separated`). Where a block is granted is read
off the bitmap before the call (`GrantedAt`), and what `operator delete` frees off the header
(`Frees`). From the invariant follows which live blocks an action can touch.
-/

namespace HailOS.Early

open Lib Kernel

/-- How a block was obtained. -/
inductive Origin where
  | operatorNew
  | allocatePage
  deriving DecidableEq, Repr

/-- A block a client holds: its client may write the `size` bytes from `address` on. -/
structure LiveBlock where
  id : Nat
  address : Nat
  size : Nat
  origin : Origin
  deriving DecidableEq, Repr

namespace LiveBlock

/-- The byte at `x` belongs to the block. -/
def Owns (b : LiveBlock) (x : Nat) : Prop := b.address ≤ x ∧ x < b.address + b.size

/-- The number of pages granted for the block. -/
def pageCount (b : LiveBlock) : Nat :=
  match b.origin with
  | .operatorNew => pageCountOf (b.size + allocatedMemoryInfoSize)
  | .allocatePage => pageCountOf b.size

/-- Page `k` was granted for the block. -/
def HoldsPage (b : LiveBlock) (k : Nat) : Prop :=
  b.address / 4096 ≤ k ∧ k < b.address / 4096 + b.pageCount

end LiveBlock

/-- The heap, the live blocks, and the number of blocks handed out so far. -/
structure HeapState where
  heap : Heap
  live : List LiveBlock
  issued : Nat

/-- An action of a client. -/
inductive HeapOp where
  | new (size : Nat)
  | delete (id : Nat)
  | allocatePage
  | allocatePageSize (minSize : Nat)
  | write (id offset : Nat) (value : BitVec 8)
  deriving DecidableEq, Repr

namespace HeapState

/-- A new block becomes live. -/
def addBlock (st : HeapState) (heap : Heap) (address size : Nat) (origin : Origin) : HeapState where
  heap := heap
  live := ⟨st.issued, address, size, origin⟩ :: st.live
  issued := st.issued + 1

/-- The result of `AllocatePage`: whole pages, or null. -/
def receivePages (st : HeapState) (minSize : Nat) (result : Nat × PageBitmap) : HeapState :=
  let heap := { st.heap with bitmap := result.2 }
  if result.1 = 0 then { st with heap := heap }
  else st.addBlock heap result.1 (pageSize * pageCountOf minSize) .allocatePage

theorem memory_receivePages (st : HeapState) (minSize : Nat) (result : Nat × PageBitmap) :
    (st.receivePages minSize result).heap.memory = st.heap.memory := by
  rw [receivePages]
  split <;> rfl

/-- A client writes one byte. -/
def write (st : HeapState) (x : Nat) (value : BitVec 8) : HeapState :=
  { st with heap := { st.heap with memory := Function.update st.heap.memory x value } }

end HeapState

/-- One action. An `operator new` that panics has no successor, `operator delete` is called on
live blocks of `operator new`, and a client writes inside its own block only. -/
inductive HeapStep : HeapState → HeapOp → HeapState → Prop where
  | new (st : HeapState) {size p : Nat} {heap : Heap} (hsize : size < 2 ^ 64)
      (hnew : operatorNew st.heap size = some (p, heap)) :
      HeapStep st (.new size) (st.addBlock heap p size .operatorNew)
  | delete (st : HeapState) (b : LiveBlock) (hb : b ∈ st.live)
      (horigin : b.origin = .operatorNew) :
      HeapStep st (.delete b.id)
        { st with heap := operatorDelete st.heap b.address, live := st.live.erase b }
  | allocatePage (st : HeapState) :
      HeapStep st .allocatePage (st.receivePages pageSize (allocatePage st.heap.bitmap))
  | allocatePageSize (st : HeapState) (minSize : Nat) :
      HeapStep st (.allocatePageSize minSize)
        (st.receivePages minSize (allocatePageSize st.heap.bitmap minSize))
  | write (st : HeapState) (b : LiveBlock) (hb : b ∈ st.live) {offset : Nat}
      (hoffset : offset < b.size) (value : BitVec 8) :
      HeapStep st (.write b.id offset value) (st.write (b.address + offset) value)

/-! ## Frames -/

/-- The action changes the bytes of a block that stays live only if it is a write of the block's
own client. -/
def KeepsLiveBytes (st : HeapState) (op : HeapOp) (st' : HeapState) : Prop :=
  ∀ b ∈ st.live, b ∈ st'.live → (∀ offset value, op ≠ .write b.id offset value) →
    ∀ x, b.Owns x → st'.heap.memory x = st.heap.memory x

/-- The header of the block `operator new` returned for `size` lies inside the granted pages. -/
def HeaderInside (p size : Nat) : Prop :=
  ∀ x, allocatedAddr p ≤ x → x < allocatedAddr p + allocatedMemoryInfoSize →
    p ≤ x ∧ x < p + pageSize * pageCountOf (sizeAlloc size)

/-- A block of `count` pages is granted from page `s` on: the first run of unused pages starts
there, and not at page 0, whose address is null. A single page is looked for inside the bitmap
only. -/
structure GrantedAt (bitmap : PageBitmap) (count s : Nat) : Prop where
  nonnull : 0 < s
  first : FirstRun (isUnused bitmap) count scanTotal s
  single : count = 1 → s < pageTotal

/-- `operator delete` of the block frees page `k`. The freed pages start with the one before the
block, and there are as many as hold the recorded number of pages taken for a number of bytes. None
is freed if they do not all lie inside the bitmap. -/
def LiveBlock.Frees (b : LiveBlock) (memory : Memory) (k : Nat) : Prop :=
  let first := b.address / 4096 - 1
  let count := pageCountOf (allocatedPages memory (b.address - 8))
  first + count ≤ pageTotal ∧ first ≤ k ∧ k < first + count

/-- The condition under which an action leaves foreign blocks alone: a granted block lies inside
the bitmap, the request of `operator new` does not wrap and no live block of `AllocatePage` ends
where the new block starts, and `operator delete` frees no page of another live block. -/
def Separated (st : HeapState) : HeapOp → Prop
  | .new size =>
      ∀ s, GrantedAt st.heap.bitmap (pageCountOf (sizeAlloc size)) s →
        size + allocatedMemoryInfoSize < 2 ^ 64 ∧
          s + pageCountOf (sizeAlloc size) ≤ pageTotal ∧
          ∀ b ∈ st.live, b.origin = .allocatePage → b.address + b.size ≠ 4096 * s
  | .delete id =>
      ∀ b ∈ st.live, b.id = id → ∀ c ∈ st.live, c.id ≠ id → ∀ k, c.HoldsPage k →
        ¬ b.Frees st.heap.memory k
  | .allocatePage => True
  | .allocatePageSize minSize =>
      ∀ s, GrantedAt st.heap.bitmap (pageCountOf minSize) s → s + pageCountOf minSize ≤ pageTotal
  | .write _ _ _ => True

/-- An action that meets the condition. -/
def SeparatedStep (st : HeapState) (op : HeapOp) (st' : HeapState) : Prop :=
  HeapStep st op st' ∧ Separated st op

/-! ## Grants and frees -/

/-- `AllocatePage(minSize)` returns page `s` exactly if the block is granted there. -/
theorem grantedAt_iff {bitmap : PageBitmap} {minSize s : Nat} (hs : 0 < s) :
    GrantedAt bitmap (pageCountOf minSize) s ↔
      (allocatePageSize bitmap minSize).1 = 4096 * s := by
  constructor
  · intro hgranted
    rcases Nat.lt_trichotomy (pageCountOf minSize) 1 with hzero | hone | hmany
    · have hempty : FreeRun (isUnused bitmap) (pageCountOf minSize) 0 := by
        intro k hlow hhigh
        omega
      exact absurd hempty (hgranted.first.first 0 hs)
    · have hfirst := hgranted.first
      have hsingle := hgranted.single hone
      rw [allocatePageSize_one hone]
      rw [hone] at hfirst
      rcases allocatePage_cases bitmap with ⟨k, _, hk, haddress, _⟩ | ⟨hused, _⟩
      · rw [haddress, hfirst.unique hk]
      · have hunused := isUnused_iff.mp (hfirst.run s (by omega) (by omega))
        rw [hused s hsingle] at hunused
        cases hunused
    · exact allocatePageSize_address hmany hgranted.first hs
  · intro haddress
    have hnonnull : (allocatePageSize bitmap minSize).1 ≠ 0 := by omega
    obtain ⟨t, ht, hgrant⟩ := allocatePageSize_grant hnonnull
    obtain rfl : s = t := by omega
    refine ⟨hs, hgrant.first, fun hone => ?_⟩
    rw [allocatePageSize_one hone] at haddress hnonnull
    obtain ⟨t, hbelow, ht, -⟩ := allocatePage_grant hnonnull
    omega

/-- The block of an `operator new` that returns is granted. -/
theorem operatorNew_grantedAt {heap heap' : Heap} {size s : Nat} (hs : 0 < s)
    (h : operatorNew heap size = some (4096 * s, heap')) :
    GrantedAt heap.bitmap (pageCountOf (sizeAlloc size)) s := by
  obtain ⟨-, hresult⟩ := Option.ite_none_left_eq_some.mp h
  exact (grantedAt_iff hs).mpr (congrArg Prod.fst (Option.some.inj hresult))

/-- `operator delete` clears the bits of the pages that it frees. -/
theorem LiveBlock.bitAt_delete {b : LiveBlock} {s : Nat} (heap : Heap) (hs : 0 < s)
    (haddress : b.address = 4096 * s) (hbelow : s < pageTotal) {k : Nat}
    (hkept : ¬ b.Frees heap.memory k) :
    bitAt (operatorDelete heap b.address).bitmap k = bitAt heap.bitmap k := by
  have htotal := pageTotal_eq
  have hbound : 4096 * s < 2 ^ 64 := by omega
  have hfirst : b.address / 4096 - 1 = s - 1 := by omega
  simp only [LiveBlock.Frees, hfirst] at hkept
  rw [haddress] at hkept ⊢
  by_cases hfits : s - 1 + pageCountOf (allocatedPages heap.memory (4096 * s - 8)) ≤ pageTotal
  · rw [bitAt_operatorDelete heap hs hbound rfl hfits,
      if_neg fun hin => hkept ⟨hfits, hin.1, hin.2⟩]
  · rw [operatorDelete_outside heap hs hbound (Nat.lt_of_not_le hfits)]

/-! ## The invariant -/

/-- A live block is page-aligned and lies inside the bitmap, its pages are marked used, and its
bytes lie in them. A block of `operator new` leaves the last eight bytes of its pages alone. -/
structure LiveBlock.Placed (bitmap : PageBitmap) (b : LiveBlock) : Prop where
  aligned : 4096 ∣ b.address
  nonnull : 0 < b.address
  within : b.address / 4096 < pageTotal
  used : ∀ k, b.HoldsPage k → bitAt bitmap k = usedBit
  slack : b.origin = .operatorNew → b.size + 8 ≤ 4096 * b.pageCount
  whole : b.origin = .allocatePage → b.size = 4096 * b.pageCount

theorem LiveBlock.Placed.size_le {bitmap : PageBitmap} {b : LiveBlock} (h : b.Placed bitmap) :
    b.size ≤ 4096 * b.pageCount := by
  cases horigin : b.origin with
  | operatorNew =>
      have hslack := h.slack horigin
      omega
  | allocatePage => exact Nat.le_of_eq (h.whole horigin)

/-- Two blocks have different ids and no common page. -/
def LiveBlock.Apart (b c : LiveBlock) : Prop :=
  b.id ≠ c.id ∧ ∀ k, b.HoldsPage k → ¬ c.HoldsPage k

theorem LiveBlock.Apart.symm {b c : LiveBlock} (h : b.Apart c) : c.Apart b :=
  ⟨h.1.symm, fun k hc hb => h.2 k hb hc⟩

/-- The invariant of separated runs. -/
structure HeapInv (st : HeapState) : Prop where
  issued : ∀ b ∈ st.live, b.id < st.issued
  placed : ∀ b ∈ st.live, b.Placed st.heap.bitmap
  apart : st.live.Pairwise LiveBlock.Apart

/-- Two live blocks with different ids share no page. -/
theorem HeapInv.disjoint {st : HeapState} (h : HeapInv st) {b c : LiveBlock} (hb : b ∈ st.live)
    (hc : c ∈ st.live) (hne : b.id ≠ c.id) {k : Nat} (hk : b.HoldsPage k) : ¬ c.HoldsPage k := by
  have hsymm : Std.Symm LiveBlock.Apart := ⟨fun _ _ hbc => hbc.symm⟩
  exact (h.apart.forall hb hc (fun heq => hne (congrArg _ heq))).2 k hk

/-- A byte of a live block lies in one of its pages. -/
theorem LiveBlock.Placed.holdsPage {bitmap : PageBitmap} {b : LiveBlock} (h : b.Placed bitmap)
    {x : Nat} (hx : b.Owns x) : b.HoldsPage (x / 4096) := by
  obtain ⟨page, hpage⟩ := h.aligned
  obtain ⟨hlow, hhigh⟩ := hx
  have hsize := h.size_le
  rw [LiveBlock.HoldsPage]
  omega

/-- A block keeps its place if its pages stay used. -/
theorem LiveBlock.Placed.mono {bitmap bitmap' : PageBitmap} {b : LiveBlock}
    (h : b.Placed bitmap)
    (hused : ∀ k, b.HoldsPage k → bitAt bitmap k = usedBit → bitAt bitmap' k = usedBit) :
    b.Placed bitmap' :=
  { h with used := fun k hk => hused k hk (h.used k hk) }

/-- A block granted inside the bitmap shares no page with a live one. -/
theorem HeapInv.insert {st : HeapState} (h : HeapInv st) {heap : Heap} {b : LiveBlock} {s : Nat}
    (hid : b.id = st.issued) (haddress : b.address = 4096 * s)
    (hgrant : Grant st.heap.bitmap heap.bitmap b.pageCount s)
    (hfits : s + b.pageCount ≤ pageTotal)
    (hslack : b.origin = .operatorNew → b.size + 8 ≤ 4096 * b.pageCount)
    (hwhole : b.origin = .allocatePage → b.size = 4096 * b.pageCount) :
    HeapInv ⟨heap, b :: st.live, st.issued + 1⟩ := by
  have hholds : ∀ k, b.HoldsPage k ↔ s ≤ k ∧ k < s + b.pageCount := by
    intro k
    rw [LiveBlock.HoldsPage, haddress, Nat.mul_div_cancel_left s (by omega)]
  refine ⟨fun c hc => ?_, fun c hc => ?_, List.pairwise_cons.mpr ⟨fun c hc => ⟨?_, ?_⟩, h.apart⟩⟩
  · rcases List.mem_cons.mp hc with rfl | hc
    · exact Nat.lt_succ_of_le (Nat.le_of_eq hid)
    · exact Nat.lt_succ_of_lt (h.issued c hc)
  · rcases List.mem_cons.mp hc with rfl | hc
    · have hstart := hgrant.start_pos
      have hcount := hgrant.count_pos
      refine ⟨⟨s, haddress⟩, by omega, by omega, fun k hk => ?_, hslack, hwhole⟩
      rw [hgrant.marked hfits k, if_pos ((hholds k).mp hk)]
    · exact (h.placed c hc).mono fun k _ hused => hgrant.used_mono hused
  · rw [hid]
    exact (Nat.ne_of_lt (h.issued c hc)).symm
  · -- The granted pages were unused, those of a live block are used.
    intro k hnew hold
    have hunused := hgrant.unused ((hholds k).mp hnew).1 ((hholds k).mp hnew).2
    have hused := (h.placed c hc).used k hold
    rw [hunused] at hused
    cases hused

/-- Deleting a block keeps the invariant if the other live blocks keep their pages. -/
theorem HeapInv.erase {st : HeapState} (h : HeapInv st) {heap : Heap} {b : LiveBlock}
    (hb : b ∈ st.live)
    (hkept : ∀ c ∈ st.live, c.id ≠ b.id → ∀ k, c.HoldsPage k →
      bitAt heap.bitmap k = bitAt st.heap.bitmap k) :
    HeapInv { st with heap := heap, live := st.live.erase b } := by
  have hperm := List.perm_cons_erase hb
  obtain ⟨hother, hrest⟩ := List.pairwise_cons.mp
    ((hperm.pairwise_iff LiveBlock.Apart.symm).mp h.apart)
  refine ⟨fun c hc => h.issued c (List.mem_of_mem_erase hc), fun c hc => ?_, hrest⟩
  have hlive := List.mem_of_mem_erase hc
  refine (h.placed c hlive).mono fun k hk hused => ?_
  show bitAt heap.bitmap k = usedBit
  rw [hkept c hlive (hother c hc).1.symm k hk]
  exact hused

/-- Whole pages inside the bitmap keep the invariant, and so does a null result. -/
theorem HeapInv.receivePages {st : HeapState} (h : HeapInv st) {minSize : Nat}
    {result : Nat × PageBitmap}
    (hnull : result.1 = 0 → ∀ k, bitAt st.heap.bitmap k = usedBit → bitAt result.2 k = usedBit)
    (hgrant : result.1 ≠ 0 → ∃ s, result.1 = 4096 * s ∧
      Grant st.heap.bitmap result.2 (pageCountOf minSize) s ∧
      s + pageCountOf minSize ≤ pageTotal) :
    HeapInv (st.receivePages minSize result) := by
  unfold HeapState.receivePages
  by_cases hresult : result.1 = 0
  · rw [if_pos hresult]
    exact ⟨h.issued, fun b hb => (h.placed b hb).mono fun k _ => hnull hresult k, h.apart⟩
  · rw [if_neg hresult]
    obtain ⟨s, haddress, hs, hfits⟩ := hgrant hresult
    have hcount : pageCountOf (pageSize * pageCountOf minSize) = pageCountOf minSize := by
      rw [pageCountOf_eq (pageSize * _), show pageSize = 4096 from rfl]
      omega
    have hpages : LiveBlock.pageCount
        ⟨st.issued, result.1, pageSize * pageCountOf minSize, .allocatePage⟩ =
          pageCountOf minSize := hcount
    refine h.insert rfl haddress (by rw [hpages]; exact hs) (by rw [hpages]; exact hfits)
      (fun horigin => by cases horigin) (fun _ => by rw [hpages]; rfl)

/-- Every separated action keeps the invariant. -/
theorem separated_step_inv (st : HeapState) (op : HeapOp) (st' : HeapState) (h : HeapInv st)
    (hstep : SeparatedStep st op st') : HeapInv st' := by
  obtain ⟨hstep, hseparated⟩ := hstep
  cases hstep with
  | @new size p heap hsize hnew =>
      obtain ⟨s, rfl, hgrant, _, _⟩ := operatorNew_grant hnew
      obtain ⟨hwrap, hfits, _⟩ := hseparated s (operatorNew_grantedAt hgrant.start_pos hnew)
      have hsizeAlloc : sizeAlloc size = size + 8 := wrap64_of_lt hwrap
      have hcount : LiveBlock.pageCount ⟨st.issued, 4096 * s, size, .operatorNew⟩ =
          pageCountOf (sizeAlloc size) := by
        rw [hsizeAlloc]
        rfl
      refine h.insert rfl rfl (by rw [hcount]; exact hgrant) (by rw [hcount]; exact hfits)
        (fun _ => ?_) (fun horigin => by cases horigin)
      show size + 8 ≤ 4096 * LiveBlock.pageCount _
      rw [hcount, hsizeAlloc, pageCountOf_eq]
      omega
  | delete b hb _ =>
      have hplaced := h.placed b hb
      obtain ⟨s, haddress⟩ := hplaced.aligned
      have hnonnull := hplaced.nonnull
      have hwithin := hplaced.within
      refine h.erase hb fun c hc hne k hk => ?_
      exact b.bitAt_delete st.heap (by omega) haddress (by omega)
        (hseparated b hb rfl c hc hne k hk)
  | allocatePage =>
      refine h.receivePages (fun _ k hk => allocatePage_used_mono hk) fun hresult => ?_
      obtain ⟨s, hs, haddress, hgrant⟩ := allocatePage_grant hresult
      exact ⟨s, haddress, hgrant, hs⟩
  | allocatePageSize minSize =>
      refine h.receivePages (fun _ k hk => allocatePageSize_used_mono hk) fun hresult => ?_
      obtain ⟨s, haddress, hgrant⟩ := allocatePageSize_grant hresult
      exact ⟨s, haddress, hgrant,
        hseparated s ((grantedAt_iff hgrant.start_pos).mpr haddress)⟩
  | write b hb hoffset value => exact ⟨h.issued, h.placed, h.apart⟩

/-- A header written by a separated `operator new` misses the bytes of every live block. The
page before the new block may be the last page of a live one, but a block of `operator new`
leaves the end of that page free. -/
theorem HeapInv.header_misses {st : HeapState} (h : HeapInv st) {bitmap' : PageBitmap}
    {count s : Nat} (hgrant : Grant st.heap.bitmap bitmap' count s) {b : LiveBlock}
    (hb : b ∈ st.live) (hend : b.origin = .allocatePage → b.address + b.size ≠ 4096 * s)
    {x : Nat} (hx : b.Owns x) : x < 4096 * s - 8 ∨ 4096 * s ≤ x := by
  have hplaced := h.placed b hb
  obtain ⟨page, hpage⟩ := hplaced.aligned
  have hstart := hgrant.start_pos
  have hcount := hgrant.count_pos
  -- Page `s` was unused, so it is not a page of the live block.
  have hnot : ¬ b.HoldsPage s := by
    intro hs
    have hused := hplaced.used s hs
    rw [hgrant.unused (Nat.le_refl s) (by omega)] at hused
    cases hused
  have hholds := hplaced.holdsPage hx
  obtain ⟨_, hhigh⟩ := hx
  rw [LiveBlock.HoldsPage] at hnot hholds
  cases horigin : b.origin with
  | operatorNew =>
      have hslack := hplaced.slack horigin
      omega
  | allocatePage =>
      have hwhole := hplaced.whole horigin
      have hne := hend horigin
      omega

/-- A separated action changes a live block only as a write of its own client. -/
theorem HeapInv.keeps_live_bytes {st st' : HeapState} {op : HeapOp} (h : HeapInv st)
    (hstep : SeparatedStep st op st') : KeepsLiveBytes st op st' := by
  obtain ⟨hstep, hseparated⟩ := hstep
  intro b hb _ hforeign x hx
  cases hstep with
  | @new size p heap hsize hnew =>
      obtain ⟨s, rfl, hgrant, _, hmemory⟩ := operatorNew_grant hnew
      obtain ⟨_, _, hend⟩ := hseparated s (operatorNew_grantedAt hgrant.start_pos hnew)
      have hmiss := h.header_misses hgrant hb (hend b hb) hx
      have hstart := hgrant.start_pos
      show heap.memory x = st.heap.memory x
      rw [hmemory, writeAllocatedMemoryInfo_outside _ _ (by omega)]
  | delete c hc _ => rfl
  | allocatePage => rw [HeapState.memory_receivePages]
  | allocatePageSize minSize => rw [HeapState.memory_receivePages]
  | @write c hc offset hoffset value =>
      have hne : c.id ≠ b.id := fun heq => hforeign offset value (by rw [heq])
      have hwritten : c.HoldsPage ((c.address + offset) / 4096) :=
        (h.placed c hc).holdsPage ⟨by omega, by omega⟩
      have hmiss : x ≠ c.address + offset := by
        rintro rfl
        exact h.disjoint hc hb hne hwritten ((h.placed b hb).holdsPage hx)
      exact Function.update_of_ne hmiss value st.heap.memory

/-- The header of a granted block never lies inside the granted pages. -/
theorem header_not_inside {heap heap' : Heap} {size p : Nat}
    (hnew : operatorNew heap size = some (p, heap')) : ¬ HeaderInside p size := by
  obtain ⟨s, rfl, hgrant, hheader, _⟩ := operatorNew_grant hnew
  have hstart := hgrant.start_pos
  intro hinside
  have hfirst := (hinside (allocatedAddr (4096 * s)) (Nat.le_refl _)
    (Nat.lt_add_of_pos_right (by decide))).1
  rw [hheader] at hfirst
  omega

/-- In every run of separated actions, the next separated action changes the bytes of a live
block only as a write of its own client. The header of `operator new` is another matter: it lies
inside the granted pages exactly if the action is no `operator new` at all. -/
theorem separated_run_keeps_live_bytes {start st st' : HeapState} {ops : List HeapOp}
    {op : HeapOp} (hstart : start.live = []) (hrun : Steps SeparatedStep start ops st)
    (hstep : SeparatedStep st op st') :
    KeepsLiveBytes st op st' ∧
      ((∀ size p heap, op = .new size → operatorNew st.heap size = some (p, heap) →
          HeaderInside p size) ↔ ∀ size, op ≠ .new size) := by
  have hinv : HeapInv st :=
    hrun.invariant separated_step_inv ⟨by simp [hstart], by simp [hstart], by simp [hstart]⟩
  refine ⟨hinv.keeps_live_bytes hstep, fun hinside size hop => ?_, fun hop size p heap heq =>
    absurd heq (hop size)⟩
  subst hop
  obtain ⟨hnew, _⟩ := hstep
  cases hnew with
  | new _ hgranted => exact header_not_inside hgranted (hinside _ _ _ rfl hgranted)

/-- Seven free pages, all bytes zero, and no live block. -/
def sevenPagesStart : HeapState := ⟨⟨sevenPages, fun _ => 0⟩, [], 0⟩

/-- A successful `operator new` is separated if its block is well placed. -/
theorem SeparatedStep.new {st : HeapState} {size : Nat} {heap : Heap} (s : Nat)
    (hwrap : size + allocatedMemoryInfoSize < 2 ^ 64)
    (hnew : operatorNew st.heap size = some (4096 * s, heap))
    (hfits : s + pageCountOf (sizeAlloc size) ≤ pageTotal)
    (hend : ∀ b ∈ st.live, b.origin = .allocatePage → b.address + b.size ≠ 4096 * s) :
    SeparatedStep st (.new size) (st.addBlock heap (4096 * s) size .operatorNew) := by
  refine ⟨.new st (Nat.lt_of_le_of_lt (Nat.le_add_right _ _) hwrap) hnew, fun t ht => ?_⟩
  obtain ⟨s', heq, hgrant, _, _⟩ := operatorNew_grant hnew
  have hstart := hgrant.start_pos
  have hgranted := operatorNew_grantedAt (by omega) hnew
  rw [← hgranted.first.unique ht.first]
  exact ⟨hwrap, hfits, hend⟩

/-- The seven pages after two `operator new` of 16 bytes. -/
def twoObjects : HeapState where
  heap :=
    { bitmap := (allocatePageSize (allocatePageSize sevenPages (sizeAlloc 16)).2 (sizeAlloc 16)).2,
      memory := writeAllocatedMemoryInfo (writeAllocatedMemoryInfo (fun _ => 0) 4088 1) 8184 1 }
  live := [⟨1, 8192, 16, .operatorNew⟩, ⟨0, 4096, 16, .operatorNew⟩]
  issued := 2

/-- The objects are placed in the first two of the pages. -/
theorem twoObjects_new : ∃ st, SeparatedStep sevenPagesStart (.new 16) st ∧
    SeparatedStep st (.new 16) twoObjects := by
  have hfirst : (allocatePageSize sevenPages (sizeAlloc 16)).1 = 4096 := by decide +kernel
  have hsecond : (allocatePageSize (allocatePageSize sevenPages (sizeAlloc 16)).2
      (sizeAlloc 16)).1 = 8192 := by decide +kernel
  have hnew₁ := @operatorNew_eq sevenPagesStart.heap 16
    fun hnull => absurd (hfirst.symm.trans hnull) (by decide)
  rw [show (allocatePageSize sevenPagesStart.heap.bitmap (sizeAlloc 16)).1 = 4096 from hfirst]
    at hnew₁
  have hnew₂ := @operatorNew_eq ⟨(allocatePageSize sevenPages (sizeAlloc 16)).2,
    writeAllocatedMemoryInfo (fun _ => 0) (allocatedAddr 4096) (pageCountOf (sizeAlloc 16))⟩ 16
    fun hnull => absurd (hsecond.symm.trans hnull) (by decide)
  rw [hsecond] at hnew₂
  exact ⟨_, .new 1 (by decide) hnew₁ (by decide) (by simp [sevenPagesStart]),
    .new 2 (by decide) hnew₂ (by decide) (by simp [sevenPagesStart, HeapState.addBlock])⟩

/-- The delete of the first object frees page 0 only. -/
theorem twoObjects_delete : ∃ st, SeparatedStep twoObjects (.delete 0) st := by
  refine ⟨_, .delete _ ⟨0, 4096, 16, .operatorNew⟩ (by simp [twoObjects]) rfl, ?_⟩
  intro b hb hid c hc hne k hk ⟨_, _, hlast⟩
  have hcount : pageCountOf (allocatedPages twoObjects.heap.memory 4088) = 1 := by decide +kernel
  simp only [twoObjects, List.mem_cons, List.not_mem_nil, or_false] at hb hc
  obtain rfl : b = ⟨0, 4096, 16, .operatorNew⟩ := hb.resolve_left fun heq => by simp [heq] at hid
  obtain rfl : c = ⟨1, 8192, 16, .operatorNew⟩ := hc.resolve_right fun heq => hne (by rw [heq])
  have hpage := hk.1
  simp only [hcount] at hlast hpage
  omega

theorem separated_run_keeps_live_bytes_two_objects :
    (∃ st, Steps SeparatedStep sevenPagesStart [.new 16] st ∧
      SeparatedStep st (.new 16) twoObjects ∧ KeepsLiveBytes st (.new 16) twoObjects) ∧
    ∃ st, Steps SeparatedStep sevenPagesStart [.new 16, .new 16] twoObjects ∧
      SeparatedStep twoObjects (.delete 0) st ∧ KeepsLiveBytes twoObjects (.delete 0) st := by
  obtain ⟨st, hnew₁, hnew₂⟩ := twoObjects_new
  obtain ⟨st', hdelete⟩ := twoObjects_delete
  have hrun₁ : Steps SeparatedStep sevenPagesStart [.new 16] st := .cons hnew₁ (.refl _)
  have hrun₂ : Steps SeparatedStep sevenPagesStart [.new 16, .new 16] twoObjects :=
    .cons hnew₁ (.cons hnew₂ (.refl _))
  exact ⟨⟨st, hrun₁, hnew₂, (separated_run_keeps_live_bytes rfl hrun₁ hnew₂).1⟩,
    st', hrun₂, hdelete, (separated_run_keeps_live_bytes rfl hrun₂ hdelete).1⟩

/-- `AllocatePage()` returns page 1 of the seven. -/
theorem sevenPages_allocatePage :
    HeapStep sevenPagesStart .allocatePage
      ⟨⟨(allocatePage sevenPages).2, fun _ => 0⟩, [⟨0, 4096, 4096, .allocatePage⟩], 1⟩ := by
  have hpage : (allocatePage sevenPages).1 = 4096 := by decide +kernel
  have hstep := HeapStep.allocatePage sevenPagesStart
  rw [HeapState.receivePages, if_neg (show (allocatePage sevenPagesStart.heap.bitmap).1 ≠ 0 from
    fun hnull => absurd (hpage.symm.trans hnull) (by decide))] at hstep
  rw [HeapState.addBlock, show (allocatePage sevenPagesStart.heap.bitmap).1 = 4096 from hpage]
    at hstep
  exact hstep

/-- After `AllocatePage` has returned page 1, the header of the next `operator new` overwrites
the end of that page. -/
theorem new_overwrites_previous_page :
    ∃ st st', Steps HeapStep sevenPagesStart [.allocatePage] st ∧
      HeapStep st (.new 16) st' ∧ ¬ KeepsLiveBytes st (.new 16) st' ∧ ¬ HeaderInside 8192 16 := by
  have hblock : (allocatePageSize (allocatePage sevenPages).2 (sizeAlloc 16)).1 = 8192 := by
    decide +kernel
  have hgranted : (allocatePageSize (Heap.bitmap ⟨(allocatePage sevenPages).2, fun _ => 0⟩)
      (sizeAlloc 16)).1 ≠ 0 := fun hnull => absurd (hblock.symm.trans hnull) (by decide)
  have hnew := operatorNew_eq hgranted
  rw [hblock] at hnew
  refine ⟨_, _, .cons sevenPages_allocatePage (.refl _), .new _ (by decide) hnew,
    fun hkeeps => ?_, header_not_inside hnew⟩
  have hbyte := hkeeps ⟨0, 4096, 4096, .allocatePage⟩ (by simp) (by simp [HeapState.addBlock])
    (by simp) 8184 ⟨by decide, by decide⟩
  have hmagic := magic_write (fun _ => 0) 8184 1 (show 0 < 4 by decide)
  exact absurd (hmagic.symm.trans hbyte) (by decide)

end HailOS.Early
