import HailOS.Arch.SwitchContext
import HailOS.Memory.NewDelete
import HailOS.Scheduler.RunQueue

/-!
# The scheduler

The globals of `Core/Scheduler/Scheduler.cpp` and the functions that work on them, together with
the creation of threads in `Thread.cpp` and `KernelStack.cpp`. The processor is the machine of
`ArchSwitchContext`, and its memory is the memory that the page allocator manages. Thread objects
are kept apart from the byte memory, in their typed view.

A function that panics or dereferences a null pointer does not return, and gives `none` here.
`createKernel_spec` and `yield_spec` are the contracts that the results about runs rest on.
-/

namespace HailOS.Sched

open Lib Kernel Early Arch

/-- What the scheduler reads and writes: the page bitmap, the processor, the thread objects, the
globals of `Scheduler.cpp` and the fields `CPUIndex` and `CurrentThread` of `PerCPU`. -/
structure SchedState where
  bitmap : PageBitmap
  machine : Machine Reg
  threads : Threads
  runQueue : RunQueue := {}
  bootstrapThread : Option ThreadPtr := none
  idleThread : Option ThreadPtr := none
  needReschedule : Bool := false
  cpuIndex : Nat := 0
  currentThread : Option ThreadPtr := none
  /-- The address of `ThreadStartTrampoline`. -/
  trampoline : BitVec 64 := 0

/-- `DEFAULT_STACK_SIZE`. -/
def defaultStackSize : Nat := 16 * 1024

/-- `KernelStack::Allocate`. -/
def KernelStack.allocate (stack : KernelStack) (bitmap : PageBitmap) (bytes : Nat) :
    Bool × KernelStack × PageBitmap :=
  let bytes := if bytes = 0 then defaultStackSize else bytes
  let result := allocatePageSize bitmap bytes
  if result.1 = 0 then (false, stack, result.2)
  else
    (true,
      { base := result.1
        size := wrap64
          ((if bytes % pageSize ≠ 0 then bytes / pageSize + 1 else bytes / pageSize) * pageSize) },
      result.2)

/-- `KernelStack::Allocate` frees no page. -/
theorem KernelStack.allocate_used_mono (stack : KernelStack) {bitmap : PageBitmap} {bytes k : Nat}
    (hk : bitAt bitmap k = usedBit) :
    bitAt (stack.allocate bitmap bytes).2.2 k = usedBit := by
  unfold KernelStack.allocate
  generalize (if bytes = 0 then defaultStackSize else bytes) = bytes
  dsimp only
  split
  · exact allocatePageSize_used_mono hk
  · exact allocatePageSize_used_mono hk

/-- A stack that `KernelStack::Allocate` returns is made of whole pages. -/
theorem KernelStack.allocate_pages {stack stack' : KernelStack} {bitmap bitmap' : PageBitmap}
    {bytes : Nat} (h : stack.allocate bitmap bytes = (true, stack', bitmap')) :
    ∃ first count, 0 < first ∧ 0 < count ∧ first + count ≤ scanTotal ∧
      stack'.base = 4096 * first ∧ stack'.top = 4096 * (first + count) := by
  unfold KernelStack.allocate at h
  generalize (if bytes = 0 then defaultStackSize else bytes) = bytes at h
  by_cases hnull : (allocatePageSize bitmap bytes).1 = 0
  · simp [hnull] at h
  · obtain ⟨first, haddress, hgrant⟩ := allocatePageSize_grant hnull
    have hscan : scanTotal = 2 ^ 24 + 8 := by rw [scanTotal_eq, pageTotal_eq]
    have hfits := hgrant.first.fits
    refine ⟨first, pageCountOf bytes, hgrant.start_pos, hgrant.count_pos, hfits, ?_⟩
    simp only [hnull, if_false, Prod.mk.injEq] at h
    obtain ⟨_, rfl, _⟩ := h
    have hsize : wrap64 (pageCountOf bytes * pageSize) = 4096 * pageCountOf bytes := by
      rw [wrap64, show pageSize = 4096 from rfl, Nat.mod_eq_of_lt (by omega), Nat.mul_comm]
    refine ⟨haddress, ?_⟩
    show (allocatePageSize bitmap bytes).1 + wrap64 (pageCountOf bytes * pageSize) = _
    rw [haddress, hsize, Nat.mul_add]

/-- `sizeof(Thread)`. -/
def threadSize : Nat := 96

namespace SchedState

/-- Assign to fields of one thread object. -/
def modify (s : SchedState) (t : ThreadPtr) (f : Thread → Thread) : SchedState :=
  { s with threads := s.threads.modify t f }

/-- The memory as the allocation operators see it. -/
def heap (s : SchedState) : Heap := ⟨s.bitmap, s.machine.memory⟩

/-- `new Thread()`. -/
def newThread (s : SchedState) : Option (ThreadPtr × SchedState) := do
  let (t, heap) ← operatorNew s.heap threadSize
  pure (t,
    { s with
      bitmap := heap.bitmap
      machine := { s.machine with memory := heap.memory }
      threads := Function.update s.threads t {} })

/-- `RefCountedBase::Release`, called when a `RefPtr` goes out of scope. -/
def release (s : SchedState) (t : ThreadPtr) : SchedState :=
  let released := s.modify t fun thread => { thread with refCount := thread.refCount - 1 }
  if (s.threads t).refCount = 1 then
    { released with bitmap := (operatorDelete released.heap t).bitmap }
  else released

/-- `Thread::PrepareInitialStack`. The words are pushed as the processor pushes them. -/
def prepareInitialStack (s : SchedState) (t : ThreadPtr) : SchedState :=
  let stack : Machine Reg := { s.machine with sp := BitVec.ofNat 64 (s.threads t).kStack.top }
  let pushed := stack.pushAll [0, s.trampoline, 0, 0, 0, 0, 0, 0]
  { s with machine := { s.machine with memory := pushed.memory } }.modify t
    fun thread => { thread with ctx := { rsp := pushed.sp } }

/-- `Thread::CreateKernel`. It returns null if there is no memory for the stack. The reference
of the local `RefPtr` is dropped then, and passed to the caller otherwise. -/
def createKernel (s : SchedState) (name : String) (entry : ThreadEntry) (arg stackSize : Nat) :
    Option (Option ThreadPtr × SchedState) := do
  let (t, s) ← s.newThread
  let s := s.modify t fun thread =>
    { thread with
      refCount := thread.refCount + 1
      name := name
      entry := some entry
      arg := arg
      cpuIndex := s.cpuIndex }
  let (allocated, kStack, bitmap) := (s.threads t).kStack.allocate s.bitmap stackSize
  let s := { s with bitmap := bitmap }.modify t fun thread => { thread with kStack := kStack }
  -- the object stays allocated in the first case: its count only drops back to 1
  if ¬ allocated then pure (none, s.release t)
  else
    pure (some t,
      (s.prepareInitialStack t).modify t fun thread => { thread with state := .ready })

/-- `EnqueueReady`. -/
def enqueueReady (s : SchedState) (t : ThreadPtr) : SchedState :=
  let s := s.modify t fun thread => { thread with state := .ready }
  let (queue, threads) := s.runQueue.push s.threads t
  { s with runQueue := queue, threads := threads }

/-- `DequeueNext`. -/
def dequeueNext (s : SchedState) : Option ThreadPtr × SchedState :=
  let (next, queue, threads) := s.runQueue.popFront s.threads
  let s := { s with runQueue := queue, threads := threads }
  if next = none then (s.idleThread, s) else (next, s)

/-- `SwitchTo`. -/
def switchTo (s : SchedState) (next : Option ThreadPtr) : Option SchedState :=
  -- the early return leaves the state of the thread as it is
  if next = s.currentThread then some s
  else
    match next, s.currentThread with
    | some next, some curr =>
        let s := s.modify next fun thread => { thread with state := .running }
        let s := { s with currentThread := some next }
        let result := callArchSwitchContext s.machine (s.threads curr).ctx.rsp
          (s.threads next).ctx.rsp
        some ({ s with machine := result.1 }.modify curr
          fun thread => { thread with ctx := { rsp := result.2 } })
    | _, _ => none

/-- `OnTimerTick`. -/
def onTimerTick (s : SchedState) : SchedState := { s with needReschedule := true }

/-- The first statement of `Yield`: the current thread goes to the end of the queue, unless it
is the idle or the bootstrap thread or its state is not `Running`. -/
def requeueCurrent (s : SchedState) : Option SchedState :=
  if s.currentThread ≠ s.idleThread ∧ s.currentThread ≠ s.bootstrapThread then
    match s.currentThread with
    | some curr =>
        some (if (s.threads curr).state = .running then s.enqueueReady curr else s)
    | none => none
  else some s

/-- `Yield`. -/
def yield (s : SchedState) : Option SchedState := do
  let s ← s.requeueCurrent
  let (next, s) := s.dequeueNext
  s.switchTo next

/-- `ThreadExit`, up to the return from `Yield`, after which it would halt the processor. -/
def threadExit (s : SchedState) : Option SchedState :=
  match s.currentThread with
  | some t => (s.modify t fun thread => { thread with state := .dead }).yield
  | none => none

/-- The first assignment of `ThreadStartTrampoline`. It is followed by a call of the entry point
of the thread, and if that returns, by `ThreadExit`. -/
def threadStartTrampoline (s : SchedState) : SchedState :=
  match s.currentThread with
  | some self => s.modify self fun thread => { thread with state := .running }
  | none => s

/-- `Init`. -/
def init (s : SchedState) : Option SchedState := do
  let (bootstrap, s) ← s.newThread
  let s := { s with bootstrapThread := some bootstrap }
  let s := s.modify bootstrap fun thread =>
    { thread with name := "Bootstrap", state := .running, cpuIndex := s.cpuIndex }
  let s := { s with currentThread := some bootstrap }
  let (idle, s) ← s.createKernel "idle" .idleMain 0 0
  let s := { s with idleThread := idle }
  -- the local `RefPtr` goes out of scope
  match idle with
  | some t => pure (s.release t)
  | none => pure s

/-- `CreateAndEnqueue`. -/
def createAndEnqueue (s : SchedState) (name : String) (entry : ThreadEntry)
    (arg stackSize : Nat) : Option (Option ThreadPtr × SchedState) := do
  let (result, s) ← s.createKernel name entry arg stackSize
  match result with
  | some t => pure (some t, (s.enqueueReady t).release t)
  | none => pure (none, s)

/-! ## Creation of threads -/

variable {s s' : SchedState} {t x : ThreadPtr}

/-- Only the memory, the thread objects and the run queue may differ. -/
structure SameGlobals (s s' : SchedState) : Prop where
  bootstrapThread : s'.bootstrapThread = s.bootstrapThread
  idleThread : s'.idleThread = s.idleThread
  needReschedule : s'.needReschedule = s.needReschedule
  cpuIndex : s'.cpuIndex = s.cpuIndex
  currentThread : s'.currentThread = s.currentThread
  trampoline : s'.trampoline = s.trampoline

theorem SameGlobals.trans {s₁ : SchedState} (h : SameGlobals s s₁) (h' : SameGlobals s₁ s') :
    SameGlobals s s' :=
  ⟨h'.bootstrapThread.trans h.bootstrapThread, h'.idleThread.trans h.idleThread,
    h'.needReschedule.trans h.needReschedule, h'.cpuIndex.trans h.cpuIndex,
    h'.currentThread.trans h.currentThread, h'.trampoline.trans h.trampoline⟩

/-- The page at the address is marked used, as the page of a thread object is. -/
def Allocated (s : SchedState) (t : ThreadPtr) : Prop :=
  ∃ k, t = 4096 * k ∧ bitAt s.bitmap k = usedBit

/-- A thread object was constructed at `t`, in a page that was unused, and no other thread object
was touched. -/
structure Constructed (s s' : SchedState) (t : ThreadPtr) : Prop where
  page : ∃ k, 0 < k ∧ k < pageTotal ∧ t = 4096 * k ∧ bitAt s.bitmap k = unusedBit ∧
    bitAt s'.bitmap k = usedBit
  used_mono : ∀ j, bitAt s.bitmap j = usedBit → bitAt s'.bitmap j = usedBit
  others : ∀ x, x ≠ t → s'.threads x = s.threads x
  runQueue : s'.runQueue = s.runQueue
  globals : SameGlobals s s'

/-- A new thread is none of the threads so far. -/
theorem Constructed.fresh (h : Constructed s s' t) : ¬ s.Allocated t := by
  rintro ⟨j, haddress, hused⟩
  obtain ⟨k, _, _, rfl, hunused, _⟩ := h.page
  obtain rfl : k = j := Nat.eq_of_mul_eq_mul_left (by decide) haddress
  rw [hunused] at hused
  cases hused

theorem Constructed.allocated (h : Constructed s s' t) : s'.Allocated t := by
  obtain ⟨k, _, _, haddress, _, hused⟩ := h.page
  exact ⟨k, haddress, hused⟩

theorem Constructed.allocated_mono (h : Constructed s s' t) (hx : s.Allocated x) :
    s'.Allocated x := by
  obtain ⟨k, haddress, hused⟩ := hx
  exact ⟨k, haddress, h.used_mono k hused⟩

/-- Work on the new object alone, that frees no page, leaves it constructed. -/
theorem Constructed.setUp {s₁ : SchedState} (h : Constructed s s₁ t)
    (hmono : ∀ j, bitAt s₁.bitmap j = usedBit → bitAt s'.bitmap j = usedBit)
    (hothers : ∀ x, x ≠ t → s'.threads x = s₁.threads x) (hqueue : s'.runQueue = s₁.runQueue)
    (hglobals : SameGlobals s₁ s') : Constructed s s' t := by
  obtain ⟨k, hpos, hpage, haddress, hunused, hused⟩ := h.page
  exact ⟨⟨k, hpos, hpage, haddress, hunused, hmono k hused⟩,
    fun j hj => hmono j (h.used_mono j hj), fun x hx => (hothers x hx).trans (h.others x hx),
    hqueue.trans h.runQueue, h.globals.trans hglobals⟩

/-- `new Thread()` constructs a thread. -/
theorem newThread_spec (h : s.newThread = some (t, s')) :
    Constructed s s' t ∧ s'.threads t = {} ∧
      s'.machine.memory = writeAllocatedMemoryInfo s.machine.memory (t - 8) 1 := by
  unfold newThread at h
  cases hnew : operatorNew s.heap threadSize with
  | none =>
      rw [hnew] at h
      cases h
  | some block =>
      rw [hnew] at h
      cases h
      obtain ⟨k, hpos, hpage, haddress, hunused, hused, hmono, hmemory⟩ :=
        operatorNew_one_page (by decide) hnew
      refine ⟨⟨⟨k, hpos, hpage, haddress, hunused, hused⟩, hmono,
        fun x hx => Function.update_of_ne hx .., rfl, ⟨rfl, rfl, rfl, rfl, rfl, rfl⟩⟩,
        Function.update_self .., ?_⟩
      rw [haddress]
      exact hmemory

/-- Dropping a reference that is not the last one only counts. -/
theorem release_of_ne (h : (s.threads t).refCount ≠ 1) :
    s.release t = s.modify t fun thread => { thread with refCount := thread.refCount - 1 } :=
  if_neg h

/-- The thread object that `CreateKernel` fills in, before it has a stack. -/
def kernelThread (name : String) (entry : ThreadEntry) (arg cpuIndex : Nat) : Thread :=
  { refCount := 2, name := name, entry := some entry, arg := arg, cpuIndex := cpuIndex }

/-- `CreateKernel` constructs a thread and then either has a stack for it or returns null. -/
theorem createKernel_cases {name : String} {entry : ThreadEntry} {arg stackSize : Nat}
    {result : Option ThreadPtr} (h : s.createKernel name entry arg stackSize = some (result, s')) :
    ∃ t s₁, s.newThread = some (t, s₁) ∧
      ((∃ stack bitmap, KernelStack.allocate {} s₁.bitmap stackSize = (true, stack, bitmap) ∧
          result = some t ∧
          s' = (prepareInitialStack { s₁ with
              bitmap := bitmap
              threads := Function.update s₁.threads t
                { kernelThread name entry arg s₁.cpuIndex with kStack := stack } } t).modify t
            fun thread => { thread with state := .ready }) ∨
        (∃ stack bitmap, KernelStack.allocate {} s₁.bitmap stackSize = (false, stack, bitmap) ∧
          result = none ∧
          s' = { s₁ with
              bitmap := bitmap
              threads := Function.update s₁.threads t
                { kernelThread name entry arg s₁.cpuIndex with
                  refCount := 1, kStack := stack } })) := by
  unfold createKernel at h
  cases hnew : s.newThread with
  | none =>
      rw [hnew] at h
      cases h
  | some created =>
      obtain ⟨t, s₁⟩ := created
      obtain ⟨_, hfresh, _⟩ := newThread_spec hnew
      refine ⟨t, s₁, rfl, ?_⟩
      simp only [hnew, Option.bind_eq_bind, Option.bind_some, modify, Threads.modify, hfresh,
        Function.update_self, Function.update_idem] at h
      cases halloc : KernelStack.allocate {} s₁.bitmap stackSize with
      | mk allocated rest =>
          obtain ⟨stack, bitmap⟩ := rest
          rw [halloc] at h
          cases allocated with
          | true =>
              cases h
              exact .inl ⟨stack, bitmap, rfl, rfl, rfl⟩
          | false =>
              rw [if_pos (by simp), release_of_ne (by simp)] at h
              cases h
              refine .inr ⟨stack, bitmap, rfl, rfl, ?_⟩
              simp [modify, Threads.modify, kernelThread]

/-- Whatever `CreateKernel` returns, it constructed one thread object, and a thread that it
returns is ready to run and has two references. -/
theorem createKernel_spec {name : String} {entry : ThreadEntry} {arg stackSize : Nat}
    {result : Option ThreadPtr} (h : s.createKernel name entry arg stackSize = some (result, s')) :
    ∃ t, Constructed s s' t ∧ (s'.threads t).entry = some entry ∧
      (result = none ∨
        result = some t ∧ (s'.threads t).state = .ready ∧ (s'.threads t).refCount = 2) := by
  obtain ⟨t, s₁, hnew, hcases⟩ := createKernel_cases h
  obtain ⟨hconstructed, _⟩ := newThread_spec hnew
  have hmono : ∀ j, bitAt s₁.bitmap j = usedBit →
      bitAt (KernelStack.allocate {} s₁.bitmap stackSize).2.2 j = usedBit :=
    fun j hj => KernelStack.allocate_used_mono {} hj
  rcases hcases with ⟨stack, bitmap, halloc, rfl, rfl⟩ | ⟨stack, bitmap, halloc, rfl, rfl⟩
  all_goals rw [halloc] at hmono
  · refine ⟨t, hconstructed.setUp hmono (fun x hx => ?_) rfl ⟨rfl, rfl, rfl, rfl, rfl, rfl⟩, ?_,
      .inr ⟨rfl, ?_, ?_⟩⟩
    · simp [modify, prepareInitialStack, hx]
    all_goals simp [modify, prepareInitialStack, kernelThread]
  · refine ⟨t, hconstructed.setUp hmono (fun x hx => ?_) rfl ⟨rfl, rfl, rfl, rfl, rfl, rfl⟩, ?_,
      .inl rfl⟩
    · simp [hx]
    · simp [kernelThread]

/-- The thread that `CreateKernel` returns is the one it constructed. -/
theorem createKernel_constructed {name : String} {entry : ThreadEntry} {arg stackSize : Nat}
    (h : s.createKernel name entry arg stackSize = some (some t, s')) : Constructed s s' t := by
  obtain ⟨t', hconstructed, _, hresult⟩ := createKernel_spec h
  obtain ⟨heq, _⟩ := hresult.resolve_left (Option.some_ne_none _)
  rw [Option.some.inj heq]
  exact hconstructed

/-! ## Queueing and switching -/

variable {contents : List ThreadPtr} {c n idle : ThreadPtr}

/-- `EnqueueReady` appends a thread that is not queued and marks it ready. -/
theorem enqueueReady_spec (h : s.runQueue.Holds s.threads contents) (hnew : t ∉ contents) :
    (s.enqueueReady t).runQueue.Holds (s.enqueueReady t).threads (contents ++ [t]) ∧
      (∀ x, ((s.enqueueReady t).threads x).unlinked =
        { (s.threads x).unlinked with
          state := if x = t then .ready else (s.threads x).state }) ∧
      SameGlobals s (s.enqueueReady t) := by
  have hholds : s.runQueue.Holds
      (s.threads.modify t fun thread => { thread with state := .ready }) contents := by
    refine h.congr fun x hx => ?_
    have hne : x ≠ t := fun heq => hnew (heq ▸ hx)
    simp [hne]
  refine ⟨RunQueue.push_holds hholds hnew, fun x => ?_, ⟨rfl, rfl, rfl, rfl, rfl, rfl⟩⟩
  refine (RunQueue.push_unlinked ..).trans ?_
  by_cases hx : x = t
  · simp [modify, Thread.unlinked, hx]
  · simp [modify, Thread.unlinked, hx]

/-- `DequeueNext` removes the first queued thread, and gives the idle thread if there is none. -/
theorem dequeueNext_spec (h : s.runQueue.Holds s.threads contents)
    (hidle : s.idleThread = some idle) :
    s.dequeueNext.1 = some (contents.head?.getD idle) ∧
      s.dequeueNext.2.runQueue.Holds s.dequeueNext.2.threads contents.tail ∧
      (∀ x, (s.dequeueNext.2.threads x).unlinked = (s.threads x).unlinked) ∧
      SameGlobals s s.dequeueNext.2 := by
  have hstate : s.dequeueNext.2 =
      { s with
        runQueue := (s.runQueue.popFront s.threads).2.1
        threads := (s.runQueue.popFront s.threads).2.2 } := by
    unfold dequeueNext
    dsimp only
    split <;> rfl
  have hnext : s.dequeueNext.1 = (s.runQueue.popFront s.threads).1.or s.idleThread := by
    unfold dequeueNext
    dsimp only
    split
    · next hnull => rw [hnull, Option.none_or]
    · next hsome =>
        obtain ⟨t, ht⟩ := Option.ne_none_iff_exists'.mp hsome
        rw [ht, Option.some_or]
  rw [hstate, hnext]
  refine ⟨?_, ?_, RunQueue.popFront_unlinked _ _, ⟨rfl, rfl, rfl, rfl, rfl, rfl⟩⟩
  · cases contents with
    | nil => rw [RunQueue.popFront_nil h, hidle]; rfl
    | cons t rest => rw [(RunQueue.popFront_cons h).1]; rfl
  · cases contents with
    | nil => rw [RunQueue.popFront_nil h]; exact h
    | cons t rest => exact (RunQueue.popFront_cons h).2

/-- `CreateAndEnqueue` makes a new thread object. If it returns the thread, it is ready and at
the end of the queue. -/
theorem createAndEnqueue_spec {name : String} {entry : ThreadEntry} {arg stackSize : Nat}
    {result : Option ThreadPtr}
    (h : s.createAndEnqueue name entry arg stackSize = some (result, s'))
    (hholds : s.runQueue.Holds s.threads contents) (hqueued : ∀ x ∈ contents, s.Allocated x) :
    ∃ t, ¬ s.Allocated t ∧ s'.Allocated t ∧ (∀ x, s.Allocated x → s'.Allocated x) ∧
      SameGlobals s s' ∧ (∀ x, x ≠ t → (s'.threads x).unlinked = (s.threads x).unlinked) ∧
      s'.runQueue.Holds s'.threads (contents ++ result.toList) ∧
      (result = none ∨ result = some t ∧ (s'.threads t).state = .ready) := by
  unfold createAndEnqueue at h
  cases hcreate : s.createKernel name entry arg stackSize with
  | none =>
      rw [hcreate] at h
      cases h
  | some created =>
      obtain ⟨returned, s₁⟩ := created
      obtain ⟨t, hnew, _, hcases⟩ := createKernel_spec hcreate
      have hnotin : t ∉ contents := fun ht => hnew.fresh (hqueued t ht)
      have hholds₁ : s₁.runQueue.Holds s₁.threads contents := by
        rw [hnew.runQueue]
        refine hholds.congr fun x hx => ?_
        have hne : x ≠ t := fun heq => hnotin (heq ▸ hx)
        rw [hnew.others x hne]
        exact ⟨rfl, rfl⟩
      refine ⟨t, hnew.fresh, ?_⟩
      rcases hcases with rfl | ⟨rfl, hready, hcount⟩
      · rw [hcreate] at h
        cases h
        refine ⟨hnew.allocated, fun x hx => hnew.allocated_mono hx, hnew.globals,
          fun x hx => by rw [hnew.others x hx], by simpa using hholds₁, .inl rfl⟩
      · obtain ⟨hholds₂, hstate, hglobals⟩ := enqueueReady_spec hholds₁ hnotin
        have hcount₂ : ((s₁.enqueueReady t).threads t).refCount = 2 := by
          simpa [Thread.unlinked, hcount] using congrArg Thread.refCount (hstate t)
        simp only [hcreate, Option.bind_eq_bind, Option.bind_some,
          release_of_ne (s := s₁.enqueueReady t) (by rw [hcount₂]; decide)] at h
        cases h
        refine ⟨hnew.allocated, fun x hx => hnew.allocated_mono hx, ?_, fun x hx => ?_, ?_,
          .inr ⟨rfl, ?_⟩⟩
        · exact hnew.globals.trans ⟨rfl, rfl, rfl, rfl, rfl, rfl⟩
        · rw [← hnew.others x hx]
          simpa [modify, hx, Thread.unlinked] using hstate x
        · refine hholds₂.congr fun x _ => ?_
          by_cases hx : x = t
          · simp [modify, hx]
          · simp [modify, hx]
        · simpa [modify, Thread.unlinked] using congrArg Thread.state (hstate t)

/-- The state after `SwitchTo` has left the thread `c` for another thread `n`. -/
def switched (s : SchedState) (c n : ThreadPtr) : SchedState :=
  { s with
    currentThread := some n
    machine := (callArchSwitchContext s.machine (s.threads c).ctx.rsp (s.threads n).ctx.rsp).1
    threads := fun x =>
      { s.threads x with
        state := if x = n then .running else (s.threads x).state
        ctx := if x = c then
            ⟨(callArchSwitchContext s.machine (s.threads c).ctx.rsp (s.threads n).ctx.rsp).2⟩
          else (s.threads x).ctx } }

/-- `SwitchTo` from the current thread to itself does nothing. -/
theorem switchTo_self (s : SchedState) : s.switchTo s.currentThread = some s :=
  if_pos rfl

/-- `SwitchTo` another thread. -/
theorem switchTo_other (hcurrent : s.currentThread = some c) (hne : n ≠ c) :
    s.switchTo (some n) = some (s.switched c n) := by
  have hnc : ¬ some n = s.currentThread := by
    rw [hcurrent]
    exact fun h => hne (Option.some.inj h)
  unfold switchTo
  rw [if_neg hnc, hcurrent]
  simp only [switched, modify, Option.some.injEq, SchedState.mk.injEq, true_and, and_true]
  have hnext : (s.threads.modify n fun thread => { thread with state := .running }) n =
      { s.threads n with state := .running } := Threads.modify_self ..
  have hcurr : (s.threads.modify n fun thread => { thread with state := .running }) c =
      s.threads c := Threads.modify_of_ne _ _ hne.symm
  rw [hnext, hcurr]
  refine ⟨rfl, funext fun x => ?_⟩
  by_cases hxc : x = c
  · subst hxc
    simp [Threads.modify, hne.symm]
  · by_cases hxn : x = n
    · subst hxn
      simp [Threads.modify, hxc]
    · simp [Threads.modify, hxc, hxn]

/-- `ThreadStartTrampoline` marks the thread that it runs on as running, which `SwitchTo` had
done. -/
theorem threadStartTrampoline_switched (s : SchedState) (c n : ThreadPtr) :
    (s.switched c n).threadStartTrampoline = s.switched c n := by
  have hthreads : (s.switched c n).threads.modify n
      (fun thread => { thread with state := .running }) = (s.switched c n).threads := by
    refine Function.update_eq_self_iff.mpr ?_
    simp [switched]
  show (s.switched c n).modify n _ = _
  rw [modify, hthreads]

/-- After `Init`, if there was memory for the idle thread, the bootstrap thread runs, the idle
thread is a different one, and the queue is empty. -/
theorem init_spec (h : s.init = some s') (hqueue : s.runQueue = {})
    (hidle : s'.idleThread = some idle) :
    ∃ bootstrap, s'.bootstrapThread = some bootstrap ∧ s'.currentThread = some bootstrap ∧
      s'.Allocated bootstrap ∧ s'.Allocated idle ∧ s'.runQueue.Holds s'.threads [] ∧
      (s'.threads bootstrap).state = .running ∧ (s'.threads bootstrap).entry = none ∧
      (s'.threads idle).state = .ready ∧ (s'.threads idle).entry = some .idleMain := by
  unfold init at h
  cases hnew : s.newThread with
  | none =>
      rw [hnew] at h
      cases h
  | some created =>
      obtain ⟨bootstrap, s₁⟩ := created
      obtain ⟨hconstructed, hfresh, _⟩ := newThread_spec hnew
      simp only [hnew, Option.bind_eq_bind, Option.bind_some] at h
      generalize hboot : ({ { s₁ with bootstrapThread := some bootstrap }.modify bootstrap
        (fun thread => { thread with
          name := "Bootstrap", state := .running, cpuIndex := s₁.cpuIndex }) with
        currentThread := some bootstrap } : SchedState) = s₂ at h
      have hthread : s₂.threads bootstrap =
          { name := "Bootstrap", state := .running, cpuIndex := s₁.cpuIndex } := by
        simp [← hboot, modify, hfresh]
      have hallocated : s₂.Allocated bootstrap := by
        rw [← hboot]
        exact hconstructed.allocated
      cases hcreate : s₂.createKernel "idle" .idleMain 0 0 with
      | none =>
          rw [hcreate] at h
          cases h
      | some returned =>
          obtain ⟨result, s₃⟩ := returned
          obtain ⟨t, hidleNew, hentry, hcases⟩ := createKernel_spec hcreate
          rcases hcases with rfl | ⟨rfl, hready, hcount⟩
          · simp only [hcreate, Option.bind_some] at h
            cases h
            cases hidle
          · simp only [hcreate, Option.bind_some] at h
            rw [release_of_ne (by rw [hcount]; decide)] at h
            cases h
            obtain rfl : t = idle := Option.some.inj hidle
            have hne : bootstrap ≠ t := fun heq => hidleNew.fresh (heq ▸ hallocated)
            have hother := hidleNew.others bootstrap hne
            have hglobals := hidleNew.globals
            refine ⟨bootstrap, ?_, ?_, hidleNew.allocated_mono hallocated, hidleNew.allocated, ?_,
              ?_, ?_, ?_, ?_⟩
            · exact hglobals.bootstrapThread.trans (by rw [← hboot]; rfl)
            · exact hglobals.currentThread.trans (by rw [← hboot])
            · have hempty : s₃.runQueue = {} := by
                rw [hidleNew.runQueue, ← hboot]
                exact hconstructed.runQueue.trans hqueue
              show s₃.runQueue.Holds _ []
              rw [hempty]
              exact DoublyLinked.empty _ _
            · simp [modify, hne, hother, hthread]
            · simp [modify, hne, hother, hthread]
            · simp [modify, hready]
            · simp [modify, hentry]

/-! ## Yielding -/

/-- The test at the start of `Yield`. -/
def Requeues (s : SchedState) (c : ThreadPtr) : Prop :=
  some c ≠ s.idleThread ∧ some c ≠ s.bootstrapThread ∧ (s.threads c).state = .running

instance (s : SchedState) (c : ThreadPtr) : Decidable (s.Requeues c) :=
  inferInstanceAs (Decidable (_ ∧ _ ∧ _))

/-- The queue from which `Yield` takes the next thread. -/
def queuedAtYield (s : SchedState) (c : ThreadPtr) (contents : List ThreadPtr) : List ThreadPtr :=
  if s.Requeues c then contents ++ [c] else contents

/-- What `Yield` does: the thread `n` takes over from `c`, and `queued` loses its first thread. -/
structure Yielded (s s' : SchedState) (queued : List ThreadPtr) (c n : ThreadPtr) : Prop where
  current : s'.currentThread = some n
  holds : s'.runQueue.Holds s'.threads queued.tail
  state : ∀ x, (s'.threads x).state =
    if n ≠ c ∧ x = n then .running
    else if s.Requeues c ∧ x = c then .ready else (s.threads x).state
  entry : ∀ x, (s'.threads x).entry = (s.threads x).entry
  bitmap : s'.bitmap = s.bitmap
  idleThread : s'.idleThread = s.idleThread
  bootstrapThread : s'.bootstrapThread = s.bootstrapThread

theorem dequeueNext_bitmap (s : SchedState) : s.dequeueNext.2.bitmap = s.bitmap := by
  unfold dequeueNext
  dsimp only
  split <;> rfl

theorem requeueCurrent_eq (hcurrent : s.currentThread = some c) :
    s.requeueCurrent = some (if s.Requeues c then s.enqueueReady c else s) := by
  unfold requeueCurrent
  rw [hcurrent]
  by_cases hspecial : some c ≠ s.idleThread ∧ some c ≠ s.bootstrapThread
  · have hiff : s.Requeues c ↔ (s.threads c).state = .running :=
      ⟨fun h => h.2.2, fun h => ⟨hspecial.1, hspecial.2, h⟩⟩
    rw [if_pos hspecial]
    simp only [hiff]
  · rw [if_neg hspecial, if_neg fun h : s.Requeues c => hspecial ⟨h.1, h.2.1⟩]

/-- The state after the first statement of `Yield`. -/
theorem requeueCurrent_spec (hcurrent : s.currentThread = some c)
    (hholds : s.runQueue.Holds s.threads contents) (hc : c ∉ contents) :
    ∃ r, s.requeueCurrent = some r ∧ r.runQueue.Holds r.threads (s.queuedAtYield c contents) ∧
      (∀ x, (r.threads x).unlinked = { (s.threads x).unlinked with
        state := if s.Requeues c ∧ x = c then .ready else (s.threads x).state }) ∧
      SameGlobals s r ∧ r.bitmap = s.bitmap := by
  have hrequeue := requeueCurrent_eq hcurrent
  unfold queuedAtYield
  by_cases hrun : s.Requeues c
  · rw [if_pos hrun] at hrequeue ⊢
    obtain ⟨hholds', hstate, hglobals⟩ := enqueueReady_spec hholds hc
    exact ⟨_, hrequeue, hholds', fun x => by simpa [hrun] using hstate x, hglobals, rfl⟩
  · rw [if_neg hrun] at hrequeue ⊢
    exact ⟨s, hrequeue, hholds, fun x => by simp [hrun, Thread.unlinked],
      ⟨rfl, rfl, rfl, rfl, rfl, rfl⟩, rfl⟩

/-- `Yield` returns, given an idle thread to fall back to. -/
theorem yield_spec (hcurrent : s.currentThread = some c) (hidle : s.idleThread = some idle)
    (hholds : s.runQueue.Holds s.threads contents) (hc : c ∉ contents) :
    ∃ s', s.yield = some s' ∧ Yielded s s' (s.queuedAtYield c contents) c
      ((s.queuedAtYield c contents).head?.getD idle) := by
  obtain ⟨r, hr, hqueued, hstate, hglobals, hbitmap⟩ := requeueCurrent_spec hcurrent hholds hc
  obtain ⟨hnext, htail, hunlinked, hdequeued⟩ :=
    dequeueNext_spec hqueued (hglobals.idleThread.trans hidle)
  have hyield : s.yield = r.dequeueNext.2.switchTo r.dequeueNext.1 := by
    rw [yield, hr]
    rfl
  have hstate' : ∀ x, (r.dequeueNext.2.threads x).state =
      if s.Requeues c ∧ x = c then .ready else (s.threads x).state := fun x => by
    rw [Thread.state_eq_of_unlinked (hunlinked x)]
    simpa [Thread.unlinked] using congrArg Thread.state (hstate x)
  have hentry : ∀ x, (r.dequeueNext.2.threads x).entry = (s.threads x).entry := fun x => by
    simpa [Thread.unlinked] using congrArg Thread.entry ((hunlinked x).trans (hstate x))
  have hcurr : r.dequeueNext.2.currentThread = some c :=
    hdequeued.currentThread.trans (hglobals.currentThread.trans hcurrent)
  rw [hnext] at hyield
  -- `SwitchTo` writes no links, so the queue is as `DequeueNext` left it
  generalize (s.queuedAtYield c contents).head?.getD idle = n at hyield ⊢
  by_cases hself : n = c
  · rw [hself, ← hcurr, switchTo_self] at hyield
    refine ⟨_, hyield, hcurr.trans (by rw [hself]), htail, fun x => ?_, hentry,
      (dequeueNext_bitmap r).trans hbitmap, hdequeued.idleThread.trans hglobals.idleThread,
      hdequeued.bootstrapThread.trans hglobals.bootstrapThread⟩
    rw [hstate' x]
    simp [hself]
  · rw [switchTo_other hcurr hself] at hyield
    refine ⟨_, hyield, rfl, htail.congr fun x _ => ⟨rfl, rfl⟩, fun x => ?_, hentry,
      (dequeueNext_bitmap r).trans hbitmap, hdequeued.idleThread.trans hglobals.idleThread,
      hdequeued.bootstrapThread.trans hglobals.bootstrapThread⟩
    show (if x = n then ThreadState.running else (r.dequeueNext.2.threads x).state) = _
    rw [hstate' x]
    simp [hself]

end SchedState

end HailOS.Sched
