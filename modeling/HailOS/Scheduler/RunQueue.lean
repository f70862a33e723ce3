import HailOS.Lib.LinkedList
import HailOS.Scheduler.Thread

/-!
# The run queue

`RunQueue::Push` and `RunQueue::PopFront` rewrite the `Next` and `Prev` fields of the thread
objects in place, after `Core/Scheduler/RunQueue.hpp`. `RunQueue.Holds` relates the pointers to
the list of queued threads. `queue_step_simulates` shows that each operation on the pointers
simulates the operation on the abstract first-in first-out list, and
`run_queue_refines_fifo` carries it to every sequence of operations.
-/

namespace HailOS.Sched

open Lib

/-- `class RunQueue`: the two end pointers. -/
structure RunQueue where
  head : Option ThreadPtr := none
  tail : Option ThreadPtr := none
  deriving DecidableEq

namespace RunQueue

/-- `RunQueue::Push`. -/
def push (queue : RunQueue) (threads : Threads) (t : ThreadPtr) : RunQueue × Threads :=
  let threads := threads.setNext t none
  let threads := threads.setPrev t queue.tail
  match queue.tail with
  | some last => ({ queue with tail := some t }, threads.setNext last (some t))
  | none => ({ head := some t, tail := some t }, threads)

/-- `RunQueue::PopFront`, returning the removed thread or null. -/
def popFront (queue : RunQueue) (threads : Threads) :
    Option ThreadPtr × RunQueue × Threads :=
  match queue.head with
  | none => (none, queue, threads)
  | some t =>
      match (threads t).next with
      | some h =>
          (some t, { queue with head := some h },
            ((threads.setPrev h none).setPrev t none).setNext t none)
      | none =>
          (some t, { head := none, tail := none }, (threads.setPrev t none).setNext t none)

/-- The links of the thread objects form a doubly linked list of `contents` between the two
end pointers. -/
def Holds (queue : RunQueue) (threads : Threads) (contents : List ThreadPtr) : Prop :=
  DoublyLinked (fun t => (threads t).next) (fun t => (threads t).prev)
    queue.head queue.tail contents

variable {queue : RunQueue} {threads : Threads} {contents rest : List ThreadPtr}
  {t : ThreadPtr}

/-- The queue reads only the links of the queued threads. -/
theorem Holds.congr {threads' : Threads} (h : queue.Holds threads contents)
    (hsame : ∀ x ∈ contents,
      (threads' x).next = (threads x).next ∧ (threads' x).prev = (threads x).prev) :
    queue.Holds threads' contents :=
  DoublyLinked.congr h (fun x hx => (hsame x hx).1) (fun x hx => (hsame x hx).2)

/-- `push` writes links only. -/
@[simp] theorem push_unlinked (queue : RunQueue) (threads : Threads) (t x : ThreadPtr) :
    ((queue.push threads t).2 x).unlinked = (threads x).unlinked := by
  unfold push
  split <;> simp

/-- `popFront` writes links only. -/
@[simp] theorem popFront_unlinked (queue : RunQueue) (threads : Threads) (x : ThreadPtr) :
    ((queue.popFront threads).2.2 x).unlinked = (threads x).unlinked := by
  unfold popFront
  split
  · rfl
  · split <;> simp

/-- Pushing a thread that is not queued appends it. -/
theorem push_holds (h : queue.Holds threads contents) (hnew : t ∉ contents) :
    (queue.push threads t).1.Holds (queue.push threads t).2 (contents ++ [t]) := by
  have hne : ∀ x ∈ contents, x ≠ t := fun x hx heq => hnew (heq ▸ hx)
  have hends : queue.head = none ↔ queue.tail = none := h.head_none_iff
  cases htail : queue.tail with
  | none =>
      have hhead : queue.head = none := hends.mpr htail
      simp only [push, htail, Holds]
      refine DoublyLinked.push_back h hnew ?_ ?_ ?_ ?_ ?_ ?_
      · simp [hhead]
      · simp
      · simp [htail]
      · simp [htail]
      · intro x hx _
        simp [hne x hx]
      · intro x hx
        simp [hne x hx]
  | some last =>
      have hlast : last ∈ contents := List.mem_of_getLast? (h.tail_eq.symm.trans htail)
      obtain ⟨first, hhead⟩ : ∃ first, queue.head = some first :=
        Option.ne_none_iff_exists'.mp (by simp [hends, htail])
      simp only [push, htail, Holds]
      refine DoublyLinked.push_back h hnew ?_ ?_ ?_ ?_ ?_ ?_
      · simp [hhead]
      · simp [Ne.symm (hne last hlast)]
      · simp [htail]
      · simp [htail]
      · intro x hx hnl
        have hxl : x ≠ last := fun heq => hnl (heq ▸ htail)
        simp [hxl, hne x hx]
      · intro x hx
        simp [hne x hx]

/-- The threads neither queued nor pushed keep their links. -/
theorem push_frame (h : queue.Holds threads contents) {x : ThreadPtr} (hx : x ∉ contents)
    (hne : x ≠ t) : (queue.push threads t).2 x = threads x := by
  unfold push
  split
  · next last htail =>
      have hlast : last ∈ contents := List.mem_of_getLast? (h.tail_eq.symm.trans htail)
      have hxl : x ≠ last := fun heq => hx (heq ▸ hlast)
      simp [hxl, hne]
  · simp [hne]

/-- Popping from an empty queue returns null and changes nothing. -/
theorem popFront_nil (h : queue.Holds threads []) :
    queue.popFront threads = (none, queue, threads) := by
  have hhead : queue.head = none := h.head_eq
  simp [popFront, hhead]

/-- Popping from a non-empty queue returns its first thread and leaves the rest. -/
theorem popFront_cons (h : queue.Holds threads (t :: rest)) :
    (queue.popFront threads).1 = some t ∧
      (queue.popFront threads).2.1.Holds (queue.popFront threads).2.2 rest := by
  have hhead : queue.head = some t := h.head_eq
  have hnext : (threads t).next = rest.head? := h.next_head
  have hne : ∀ x ∈ rest, x ≠ t := fun x hx heq => (List.nodup_cons.mp h.nodup).1 (heq ▸ hx)
  cases rest with
  | nil =>
      simp only [popFront, hhead, hnext]
      exact ⟨rfl, DoublyLinked.empty _ _⟩
  | cons second rest =>
      have htail : queue.tail = (second :: rest).getLast? := by
        rw [h.tail_eq, List.getLast?_cons_cons]
      simp only [popFront, hhead, hnext, List.head?_cons, Holds, htail]
      refine ⟨trivial, DoublyLinked.pop_front h ?_ ?_ ?_⟩
      · intro x hx
        have hx : second = x := by simpa using hx
        simp [hx]
      · intro x hx hns
        have hxs : x ≠ second := fun heq => hns (by simp [heq])
        simp [hxs, hne x hx]
      · intro x hx
        simp [hne x hx]

/-- Popping clears both links of the returned thread. -/
theorem popFront_links (h : (queue.popFront threads).1 = some t) :
    ((queue.popFront threads).2.2 t).next = none ∧
      ((queue.popFront threads).2.2 t).prev = none := by
  unfold popFront at h ⊢
  split at h
  · cases h
  · split at h <;> cases h <;> simp_all

/-- The threads that are not queued keep their links. -/
theorem popFront_frame (h : queue.Holds threads contents) {x : ThreadPtr}
    (hx : x ∉ contents) : (queue.popFront threads).2.2 x = threads x := by
  cases contents with
  | nil => rw [popFront_nil h]
  | cons t rest =>
      have hhead : queue.head = some t := h.head_eq
      have hnext : (threads t).next = rest.head? := h.next_head
      have hxt : x ≠ t := fun heq => hx (by simp [heq])
      cases rest with
      | nil => simp [popFront, hhead, hnext, hxt]
      | cons second rest =>
          have hxs : x ≠ second := fun heq => hx (by simp [heq])
          simp [popFront, hhead, hnext, hxt, hxs]

end RunQueue

/-! ## Refinement of the abstract queue -/

/-- The operations of the run queue. -/
inductive QueueOp where
  | push (t : ThreadPtr)
  | popFront

/-- The abstract queue: push appends, pop removes the first element and returns it. -/
def QueueOp.fifo : QueueOp → List ThreadPtr → List ThreadPtr × Option ThreadPtr
  | .push t, contents => (contents ++ [t], none)
  | .popFront, contents => (contents.tail, contents.head?)

/-- The same operations on the pointers. -/
def QueueOp.exec : QueueOp → RunQueue × Threads → (RunQueue × Threads) × Option ThreadPtr
  | .push t, (queue, threads) => (queue.push threads t, none)
  | .popFront, (queue, threads) =>
      ((queue.popFront threads).2, (queue.popFront threads).1)

/-- A thread may be pushed while it is not linked. -/
def QueueOp.Allowed : QueueOp → List ThreadPtr → Prop
  | .push t, contents => t ∉ contents
  | .popFront, _ => True

/-- The abstract queue after a sequence of operations, with the results in order. -/
def fifoRun : List QueueOp → List ThreadPtr → List ThreadPtr × List (Option ThreadPtr)
  | [], contents => (contents, [])
  | op :: ops, contents =>
      let (contents, result) := op.fifo contents
      let (contents, results) := fifoRun ops contents
      (contents, result :: results)

/-- The pointers after a sequence of operations, with the results in order. -/
def queueRun : List QueueOp → RunQueue × Threads →
    (RunQueue × Threads) × List (Option ThreadPtr)
  | [], state => (state, [])
  | op :: ops, state =>
      let (state, result) := op.exec state
      let (state, results) := queueRun ops state
      (state, result :: results)

/-- Every push of the sequence is of a thread that is not linked at that point. -/
def AllowedRun : List QueueOp → List ThreadPtr → Prop
  | [], _ => True
  | op :: ops, contents => op.Allowed contents ∧ AllowedRun ops (op.fifo contents).1

/-- One operation on the pointers simulates the operation on the list, and touches no thread
that is outside the queue both before and after it. -/
theorem queue_step_simulates {queue : RunQueue} {threads : Threads}
    {contents : List ThreadPtr} (op : QueueOp) (h : queue.Holds threads contents)
    (hop : op.Allowed contents) :
    (op.exec (queue, threads)).1.1.Holds (op.exec (queue, threads)).1.2 (op.fifo contents).1 ∧
      (op.exec (queue, threads)).2 = (op.fifo contents).2 ∧
      ∀ x, x ∉ contents → x ∉ (op.fifo contents).1 →
        (op.exec (queue, threads)).1.2 x = threads x := by
  cases op with
  | push t =>
      refine ⟨RunQueue.push_holds h hop, rfl, fun x hx hx' => ?_⟩
      exact RunQueue.push_frame h hx (fun heq => hx' (by simp [QueueOp.fifo, heq]))
  | popFront =>
      refine ⟨?_, ?_, fun x hx _ => RunQueue.popFront_frame h hx⟩
      · cases contents with
        | nil => simpa [QueueOp.exec, QueueOp.fifo, RunQueue.popFront_nil h] using h
        | cons t rest => exact (RunQueue.popFront_cons h).2
      · cases contents with
        | nil => simp [QueueOp.exec, QueueOp.fifo, RunQueue.popFront_nil h]
        | cons t rest => exact (RunQueue.popFront_cons h).1

/-- A sequence of operations on the pointers simulates the sequence on the list. -/
theorem queue_run_simulates (ops : List QueueOp) {state : RunQueue × Threads}
    {contents : List ThreadPtr} (h : state.1.Holds state.2 contents)
    (hops : AllowedRun ops contents) :
    (queueRun ops state).1.1.Holds (queueRun ops state).1.2 (fifoRun ops contents).1 ∧
      (queueRun ops state).2 = (fifoRun ops contents).2 := by
  induction ops generalizing state contents with
  | nil => exact ⟨h, rfl⟩
  | cons op ops ih =>
      obtain ⟨hop, hrest⟩ := hops
      obtain ⟨hstep, hresult, _⟩ := queue_step_simulates op h hop
      obtain ⟨hrun, hresults⟩ := ih hstep hrest
      refine ⟨hrun, ?_⟩
      simp only [queueRun, fifoRun, hresult]
      exact congrArg _ hresults

/-- The run queue refines a first-in first-out queue. After any sequence of pushes of unlinked
threads and pops from the empty queue, over thread objects with arbitrary initial links, the
pointers are a well-formed doubly linked list of the abstract contents and every result so far
is the abstract one. The next operation, whatever it is, again agrees with the abstract queue,
clears both links of a popped thread, and changes no thread outside the queue. -/
theorem run_queue_refines_fifo (threads : Threads) (ops : List QueueOp)
    (hops : AllowedRun ops []) :
    let queue := (queueRun ops ({}, threads)).1.1
    let heap := (queueRun ops ({}, threads)).1.2
    let contents := (fifoRun ops []).1
    -- a well-formed doubly linked list of exactly the abstract contents
    (queue.Holds heap contents ∧
      (∀ t, queue.head = some t → (heap t).prev = none) ∧
      (∀ t, queue.tail = some t → (heap t).next = none) ∧
      (∀ x ∈ contents, ∀ y ∈ contents, (heap x).next = some y ↔ (heap y).prev = some x) ∧
      (queue.head = none ↔ queue.tail = none) ∧
      queue.tail = contents.getLast?) ∧
    (queueRun ops ({}, threads)).2 = (fifoRun ops []).2 ∧
    -- the next operation
    ∀ op : QueueOp, op.Allowed contents →
      (op.exec (queue, heap)).2 = (op.fifo contents).2 ∧
      (∀ t, op = .popFront → (op.exec (queue, heap)).2 = some t →
        ((op.exec (queue, heap)).1.2 t).next = none ∧
          ((op.exec (queue, heap)).1.2 t).prev = none) ∧
      ∀ x, x ∉ contents → x ∉ (op.fifo contents).1 →
        (op.exec (queue, heap)).1.2 x = heap x := by
  intro queue heap contents
  have hempty : (({}, threads) : RunQueue × Threads).1.Holds threads [] :=
    DoublyLinked.empty _ _
  obtain ⟨h, hresults⟩ := queue_run_simulates ops hempty hops
  refine ⟨⟨h, fun t ht => h.prev_head ht, fun t ht => h.next_tail ht,
    fun x hx y hy => h.next_iff_prev hx hy, h.head_none_iff, h.tail_eq⟩, hresults, ?_⟩
  intro op hop
  obtain ⟨_, hresult, hframe⟩ := queue_step_simulates op h hop
  refine ⟨hresult, ?_, hframe⟩
  rintro t rfl ht
  exact RunQueue.popFront_links ht

/-- Two threads go through the queue in order, and the first is queued again after it came
out. -/
theorem run_queue_refines_fifo_requeue :
    let ops : List QueueOp := [.push 1, .push 2, .popFront, .push 1, .popFront, .popFront]
    AllowedRun ops [] ∧
      (queueRun ops ({}, fun _ => {})).2 = [none, none, some 1, none, some 2, some 1] := by
  intro ops
  have hops : AllowedRun ops [] := by
    simp [ops, AllowedRun, QueueOp.Allowed, QueueOp.fifo]
  exact ⟨hops, (run_queue_refines_fifo (fun _ => {}) ops hops).2.1⟩

end HailOS.Sched
