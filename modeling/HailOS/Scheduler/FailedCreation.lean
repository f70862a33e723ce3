import HailOS.Scheduler.Scheduler

/-!
# Failed thread creation

A thread whose stack cannot be allocated is to leave no trace. `CreateKernel` returns null then
and drops the reference of its local `RefPtr`. But a `RefCountedBase` starts with a count of 1 and
the `RefPtr` adds another, so the count falls from 2 to 1 only: nobody holds the object any more,
and it is not deleted.

`createKernel_failed` says what a failed creation does to the state, and
`failed_creation_leaves_trace` that no failed creation leaves the bitmap as it was.
-/

namespace HailOS.Sched.SchedState

open Lib Kernel Early

/-- The call returned null and left the run queue and the page bitmap as they were. -/
def LeavesNoTrace (s : SchedState) (outcome : Option (Option ThreadPtr × SchedState)) : Prop :=
  ∃ s', outcome = some (none, s') ∧ s'.runQueue = s.runQueue ∧ s'.bitmap = s.bitmap

/-- The page of the object `t`, free before, stays used, and its count stays at 1. Nothing else
changed but the header of the object. -/
structure KeepsPage (s s' : SchedState) (t : ThreadPtr) : Prop where
  page : ∃ k, t = 4096 * k ∧ bitAt s.bitmap k = unusedBit ∧
    ∀ j, bitAt s'.bitmap j = if j = k then usedBit else bitAt s.bitmap j
  refCount : (s'.threads t).refCount = 1
  others : ∀ x, x ≠ t → s'.threads x = s.threads x
  runQueue : s'.runQueue = s.runQueue
  globals : SameGlobals s s'

variable {s s₁ : SchedState} {t : ThreadPtr} {stackSize : Nat}

/-- `new Thread()` takes the first free page, and page 0 was not free. -/
theorem newThread_bits (h : s.newThread = some (t, s₁)) :
    bitAt s.bitmap 0 = usedBit ∧
      ∃ k, t = 4096 * k ∧ bitAt s.bitmap k = unusedBit ∧
        ∀ j, bitAt s₁.bitmap j = if j = k then usedBit else bitAt s.bitmap j := by
  unfold newThread at h
  cases hnew : operatorNew s.heap threadSize with
  | none =>
      rw [hnew] at h
      cases h
  | some block =>
      rw [hnew] at h
      cases h
      obtain ⟨k, haddress, hgrant, -⟩ := operatorNew_grant hnew
      have hone : pageCountOf (sizeAlloc threadSize) = 1 := by decide
      obtain ⟨page, -, hpage, haddress', -⟩ := operatorNew_one_page hone hnew
      rw [hone] at hgrant
      refine ⟨?_, k, haddress, hgrant.unused (Nat.le_refl k) (Nat.lt_succ_self k), fun j => ?_⟩
      · rw [← bit_ne_unused]
        intro hzero
        refine hgrant.first.first 0 hgrant.start_pos ?_
        intro j _ hj
        obtain rfl : j = 0 := by omega
        exact isUnused_iff.2 hzero
      · have hiff : k ≤ j ∧ j < k + 1 ↔ j = k := by omega
        rw [hgrant.marked (by omega) j]
        simp only [hiff]
        rfl

/-- `KernelStack::Allocate` changes nothing if it fails with page 0 used. -/
theorem allocate_failed {stack : KernelStack} {bitmap : PageBitmap} {bytes : Nat}
    (hzero : bitAt bitmap 0 = usedBit) (h : (stack.allocate bitmap bytes).1 = false) :
    stack.allocate bitmap bytes = (false, stack, bitmap) := by
  unfold KernelStack.allocate at h ⊢
  generalize (if bytes = 0 then defaultStackSize else bytes) = bytes at h ⊢
  by_cases hnull : (allocatePageSize bitmap bytes).1 = 0
  · simp only [hnull, if_true]
    rw [allocatePageSize_null hzero hnull]
  · simp [hnull] at h

variable (name : String) (entry : ThreadEntry) (arg : Nat)

/-- Without a stack `CreateKernel` returns null and keeps the page of the object. -/
theorem createKernel_failed (hnew : s.newThread = some (t, s₁))
    (hfail : (KernelStack.allocate {} s₁.bitmap stackSize).1 = false) :
    ∃ s', s.createKernel name entry arg stackSize = some (none, s') ∧ KeepsPage s s' t := by
  obtain ⟨hzero, hpage⟩ := newThread_bits hnew
  obtain ⟨hconstructed, hfresh, -⟩ := newThread_spec hnew
  have hstack := allocate_failed (hconstructed.used_mono 0 hzero) hfail
  refine ⟨{ s₁ with
    threads := Function.update s₁.threads t
      { kernelThread name entry arg s₁.cpuIndex with refCount := 1 } }, ?_, ?_⟩
  · -- The count is 1 from the base class and 1 from the pointer when the pointer is dropped.
    simp [createKernel, hnew, hfresh, hstack, modify, Threads.modify, release, kernelThread]
  · exact ⟨hpage, by simp, fun x hx => by simp [hx, hconstructed.others x hx],
      hconstructed.runQueue, hconstructed.globals.trans ⟨rfl, rfl, rfl, rfl, rfl, rfl⟩⟩

/-- `CreateAndEnqueue` passes the null on. -/
theorem createAndEnqueue_failed {s' : SchedState} {name : String} {entry : ThreadEntry}
    {arg : Nat} (h : s.createKernel name entry arg stackSize = some (none, s')) :
    s.createAndEnqueue name entry arg stackSize = some (none, s') := by
  simp only [createAndEnqueue, h, Option.bind_eq_bind, Option.bind_some, Option.pure_def]

/-- A kept page is a trace. -/
theorem KeepsPage.bitmap_ne {s' : SchedState} (h : KeepsPage s s' t) : s'.bitmap ≠ s.bitmap := by
  intro heq
  obtain ⟨k, -, hunused, hbits⟩ := h.page
  have hused := hbits k
  rw [if_pos rfl, heq, hunused] at hused
  cases hused

theorem not_leavesNoTrace {s' : SchedState} (h : KeepsPage s s' t) :
    ¬ LeavesNoTrace s (some (none, s')) := by
  intro htrace
  obtain ⟨s₂, heq, -, hbitmap⟩ := htrace
  cases heq
  exact h.bitmap_ne hbitmap

/-- Every creation that fails for want of a stack returns null with the run queue as it was, but
keeps the page of the thread object, which was free before. -/
theorem failed_creation_leaves_trace (hnew : s.newThread = some (t, s₁))
    (hfail : (KernelStack.allocate {} s₁.bitmap stackSize).1 = false) :
    (∃ s', s.createKernel name entry arg stackSize = some (none, s') ∧
        s.createAndEnqueue name entry arg stackSize = some (none, s') ∧ KeepsPage s s' t) ∧
      ¬ LeavesNoTrace s (s.createKernel name entry arg stackSize) ∧
      ¬ LeavesNoTrace s (s.createAndEnqueue name entry arg stackSize) := by
  obtain ⟨s', hkernel, hkeeps⟩ := createKernel_failed name entry arg hnew hfail
  have henqueue := createAndEnqueue_failed hkernel
  refine ⟨⟨s', hkernel, henqueue, hkeeps⟩, ?_, ?_⟩
  · rw [hkernel]
    exact not_leavesNoTrace hkeeps
  · rw [henqueue]
    exact not_leavesNoTrace hkeeps

/-- A stack of more pages than the allocator scans is refused, whatever the bitmap. -/
theorem allocate_too_large {bitmap : PageBitmap} {bytes : Nat} (h : scanTotal < pageCountOf bytes) :
    (KernelStack.allocate {} bitmap bytes).1 = false := by
  have hscan : 1 < scanTotal := by decide
  have hbytes : bytes ≠ 0 := by
    intro hzero
    rw [hzero, pageCountOf_eq] at h
    omega
  have hnull : allocatePageSize bitmap bytes = (0, bitmap) := by
    have hone : pageCountOf bytes ≠ 1 := by omega
    have hpos : pageCountOf bytes ≠ 0 := by omega
    simp only [allocatePageSize, findAvailableAddress, hone, hpos, h, if_true, if_false]
  simp [KernelStack.allocate, hbytes, hnull]

/-- The scheduler before `Init`, with pages 1 to 7 free. -/
def sevenPagesState : SchedState :=
  { bitmap := sevenPages, machine := ⟨fun _ => 0, 0, 0, fun _ => 0⟩, threads := fun _ => {} }

theorem sevenPagesState_newThread : ∃ s₁, sevenPagesState.newThread = some (4096, s₁) := by
  have hfirst : sevenPagesState.newThread.map Prod.fst = some 4096 := by decide +kernel
  obtain ⟨block, hnew, haddress⟩ := Option.map_eq_some_iff.1 hfirst
  exact ⟨block.2, by rw [hnew, ← haddress]⟩

theorem terabyte_refused (bitmap : PageBitmap) :
    (KernelStack.allocate {} bitmap (2 ^ 40)).1 = false :=
  allocate_too_large (by rw [scanTotal_eq, pageTotal_eq, pageCountOf_eq]; omega)

theorem failed_creation_leaves_trace_terabyte :
    ∃ s', sevenPagesState.createKernel "t" (.function 0) 0 (2 ^ 40) = some (none, s') ∧
      KeepsPage sevenPagesState s' 4096 := by
  obtain ⟨s₁, hnew⟩ := sevenPagesState_newThread
  obtain ⟨⟨s', hkernel, -, hkeeps⟩, -⟩ :=
    failed_creation_leaves_trace "t" (.function 0) 0 hnew (terabyte_refused s₁.bitmap)
  exact ⟨s', hkernel, hkeeps⟩

/-- A thread with a stack of a terabyte is refused, and page 1 is lost. -/
theorem terabyte_stack_loses_page :
    (∃ s₁, sevenPagesState.newThread = some (4096, s₁) ∧
        (KernelStack.allocate {} s₁.bitmap (2 ^ 40)).1 = false) ∧
      ∃ s', sevenPagesState.createAndEnqueue "t" (.function 0) 0 (2 ^ 40) = some (none, s') ∧
        bitAt sevenPagesState.bitmap 1 = unusedBit ∧ bitAt s'.bitmap 1 = usedBit ∧
        ¬ LeavesNoTrace sevenPagesState
          (sevenPagesState.createAndEnqueue "t" (.function 0) 0 (2 ^ 40)) := by
  obtain ⟨s₁, hnew⟩ := sevenPagesState_newThread
  obtain ⟨s', hkernel, hkeeps⟩ :=
    createKernel_failed "t" (.function 0) 0 hnew (terabyte_refused s₁.bitmap)
  have henqueue := createAndEnqueue_failed hkernel
  obtain ⟨k, haddress, hunused, hbits⟩ := hkeeps.page
  obtain rfl : k = 1 := Nat.eq_of_mul_eq_mul_left (by omega) haddress.symm
  refine ⟨⟨s₁, hnew, terabyte_refused _⟩, s', henqueue, hunused, by rw [hbits, if_pos rfl], ?_⟩
  rw [henqueue]
  exact not_leavesNoTrace hkeeps

end HailOS.Sched.SchedState
