import Mathlib.Logic.Function.Basic

/-!
# Thread objects

The fields of `Thread`, `KernelStack` and `ThreadContext` that the scheduler reads or writes,
after `Core/Scheduler/Thread.hpp` and `KernelStack.hpp`. A thread object is named by its
address, and `Threads` is the typed view of all thread objects in memory. A nullable
`Thread*` is an `Option ThreadPtr`.
-/

namespace HailOS.Sched

/-- The address of a thread object. -/
abbrev ThreadPtr := Nat

/-- `enum class ThreadState`. -/
inductive ThreadState where
  | init
  | ready
  | running
  | sleep
  | dead
  deriving DecidableEq, Repr

/-- The functions a thread can be started with. `idleMain` halts the processor in a loop and
does not return, every other entry point is known by its address only. -/
inductive ThreadEntry where
  | idleMain
  | function (address : Nat)
  deriving DecidableEq, Repr

/-- `struct ThreadContext`: the stack pointer saved at the last switch away. -/
structure ThreadContext where
  rsp : BitVec 64 := 0
  deriving DecidableEq

/-- `class KernelStack`: the pages of a thread's stack. -/
structure KernelStack where
  base : Nat := 0
  size : Nat := 0
  deriving DecidableEq

/-- `KernelStack::Top`, the address just above the stack. -/
def KernelStack.top (stack : KernelStack) : Nat :=
  stack.base + stack.size

/-- `class Thread`, with the member initialisers of the source and the count inherited from
`RefCountedBase`. -/
structure Thread where
  refCount : Nat := 1
  ctx : ThreadContext := {}
  kStack : KernelStack := {}
  state : ThreadState := .init
  entry : Option ThreadEntry := none
  arg : Nat := 0
  next : Option ThreadPtr := none
  prev : Option ThreadPtr := none
  name : String := ""
  cpuIndex : Nat := 0

/-- All thread objects, by address. -/
abbrev Threads := ThreadPtr → Thread

/-- Assign to fields of one thread object. -/
def Threads.modify (threads : Threads) (t : ThreadPtr) (f : Thread → Thread) : Threads :=
  Function.update threads t (f (threads t))

@[simp] theorem Threads.modify_self (threads : Threads) (t : ThreadPtr) (f : Thread → Thread) :
    threads.modify t f t = f (threads t) := by
  simp [Threads.modify]

@[simp] theorem Threads.modify_of_ne (threads : Threads) {t x : ThreadPtr}
    (f : Thread → Thread) (h : x ≠ t) : threads.modify t f x = threads x := by
  simp [Threads.modify, h]

/-! ## The run-queue links -/

/-- `t->Next = link`. -/
def Threads.setNext (threads : Threads) (t : ThreadPtr) (link : Option ThreadPtr) : Threads :=
  threads.modify t fun thread => { thread with next := link }

/-- `t->Prev = link`. -/
def Threads.setPrev (threads : Threads) (t : ThreadPtr) (link : Option ThreadPtr) : Threads :=
  threads.modify t fun thread => { thread with prev := link }

/-- A thread without its run-queue links. -/
def Thread.unlinked (thread : Thread) : Thread :=
  { thread with next := none, prev := none }

variable (threads : Threads) (t x : ThreadPtr) (link : Option ThreadPtr)

@[simp] theorem Threads.setNext_next :
    (threads.setNext t link x).next = if x = t then link else (threads x).next := by
  by_cases hx : x = t <;> simp [Threads.setNext, hx]

@[simp] theorem Threads.setPrev_prev :
    (threads.setPrev t link x).prev = if x = t then link else (threads x).prev := by
  by_cases hx : x = t <;> simp [Threads.setPrev, hx]

@[simp] theorem Threads.setNext_prev : (threads.setNext t link x).prev = (threads x).prev := by
  by_cases hx : x = t <;> simp [Threads.setNext, hx]

@[simp] theorem Threads.setPrev_next : (threads.setPrev t link x).next = (threads x).next := by
  by_cases hx : x = t <;> simp [Threads.setPrev, hx]

@[simp] theorem Threads.setNext_unlinked :
    (threads.setNext t link x).unlinked = (threads x).unlinked := by
  by_cases hx : x = t <;> simp [Threads.setNext, Thread.unlinked, hx]

@[simp] theorem Threads.setPrev_unlinked :
    (threads.setPrev t link x).unlinked = (threads x).unlinked := by
  by_cases hx : x = t <;> simp [Threads.setPrev, Thread.unlinked, hx]

variable {threads t x link}

/-- Assigning a link leaves every other thread object alone. -/
@[simp] theorem Threads.setNext_of_ne (h : x ≠ t) : threads.setNext t link x = threads x :=
  Threads.modify_of_ne threads _ h

@[simp] theorem Threads.setPrev_of_ne (h : x ≠ t) : threads.setPrev t link x = threads x :=
  Threads.modify_of_ne threads _ h

/-- Threads that differ in their links only agree on every other field. -/
theorem Thread.state_eq_of_unlinked {a b : Thread} (h : a.unlinked = b.unlinked) :
    a.state = b.state := by
  simpa [Thread.unlinked] using congrArg Thread.state h

end HailOS.Sched
