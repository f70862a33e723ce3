import HailOS.Scheduler.Safety

/-!
# Timer ticks do not preempt

`OnTimerTick` sets `gNeedReschedule`, and nothing in the scheduler reads it. Each function of the
scheduler therefore commutes with a tick, and `ticks_never_preempt` says that the ticks of a run
can be left out: the same thread runs at every moment, with the same queue and the same memory.
-/

namespace HailOS.Sched

open Lib

namespace SchedState

variable (s : SchedState)

/-- A tick before the current thread is put back into the queue can be moved behind it. -/
theorem requeueCurrent_onTimerTick :
    s.onTimerTick.requeueCurrent = s.requeueCurrent.map onTimerTick := by
  unfold requeueCurrent
  rw [apply_ite (Option.map onTimerTick)]
  refine if_congr Iff.rfl ?_ rfl
  rw [show s.onTimerTick.currentThread = s.currentThread from rfl]
  split
  · exact congrArg some (apply_ite onTimerTick _ (s.enqueueReady _) s).symm
  · rfl

/-- The next thread of the queue does not depend on a tick. -/
theorem dequeueNext_onTimerTick :
    s.onTimerTick.dequeueNext = (s.dequeueNext.1, s.dequeueNext.2.onTimerTick) := by
  unfold dequeueNext onTimerTick
  dsimp only
  split <;> rfl

/-- Nor does the switch to a given thread. -/
theorem switchTo_onTimerTick (next : Option ThreadPtr) :
    s.onTimerTick.switchTo next = (s.switchTo next).map onTimerTick := by
  unfold switchTo onTimerTick
  dsimp only
  split
  · rfl
  · split <;> rfl

/-- `Yield` switches to the same thread after a tick: the flag is not read on its way. -/
theorem yield_onTimerTick : s.onTimerTick.yield = s.yield.map onTimerTick := by
  unfold yield
  rw [requeueCurrent_onTimerTick]
  cases s.requeueCurrent with
  | none => rfl
  | some s =>
      simp only [Option.map_some, Option.bind_eq_bind, Option.bind_some]
      rw [dequeueNext_onTimerTick]
      exact switchTo_onTimerTick _ _

/-- The end of a thread, by the `Yield` it ends with. -/
theorem threadExit_onTimerTick : s.onTimerTick.threadExit = s.threadExit.map onTimerTick := by
  unfold threadExit
  rw [show s.onTimerTick.currentThread = s.currentThread from rfl]
  cases s.currentThread with
  | none => rfl
  | some t => exact yield_onTimerTick (s.modify t fun thread => { thread with state := .dead })

/-- A tick does not touch the heap, so the same block is granted for a thread. -/
theorem newThread_onTimerTick :
    s.onTimerTick.newThread = s.newThread.map (Prod.map id onTimerTick) := by
  unfold newThread
  rw [show s.onTimerTick.heap = s.heap from rfl]
  cases Early.operatorNew s.heap threadSize <;> rfl

/-- Dropping a reference to a thread, which may delete it. -/
theorem release_onTimerTick (t : ThreadPtr) :
    s.onTimerTick.release t = (s.release t).onTimerTick := by
  unfold release onTimerTick heap
  dsimp only
  split <;> rfl

variable (name : String) (entry : ThreadEntry) (arg stackSize : Nat)

/-- `CreateKernel`, also where no stack can be allocated and the thread is dropped again. -/
theorem createKernel_onTimerTick :
    s.onTimerTick.createKernel name entry arg stackSize =
      (s.createKernel name entry arg stackSize).map (Prod.map id onTimerTick) := by
  unfold createKernel
  rw [newThread_onTimerTick]
  cases s.newThread with
  | none => rfl
  | some result =>
      obtain ⟨t, s⟩ := result
      simp only [Option.map_some, Option.bind_eq_bind, Option.bind_some, Prod.map]
      rw [apply_ite (Option.map _)]
      refine if_congr Iff.rfl ?_ rfl
      show _ = some (none, onTimerTick (release _ t))
      rw [← release_onTimerTick]
      rfl

/-- The new thread goes to the same place of the queue. -/
theorem createAndEnqueue_onTimerTick :
    s.onTimerTick.createAndEnqueue name entry arg stackSize =
      (s.createAndEnqueue name entry arg stackSize).map (Prod.map id onTimerTick) := by
  unfold createAndEnqueue
  rw [createKernel_onTimerTick]
  rcases s.createKernel name entry arg stackSize with _ | ⟨_ | t, s⟩
  · rfl
  · rfl
  · exact congrArg (fun s => some (some t, s)) (release_onTimerTick (s.enqueueReady t) t)

end SchedState

/-- The operation is a timer tick. -/
def SchedOp.isTick : SchedOp → Bool
  | .onTimerTick => true
  | _ => false

/-- A timer tick in a run. -/
def Run.onTimerTick (run : Run) : Run := { run with sched := run.sched.onTimerTick }

/-- Every operation of the current thread does the same after a timer tick as before it. -/
theorem Run.exec_onTimerTick (run : Run) (op : SchedOp) :
    run.onTimerTick.exec op = (run.exec op).map Run.onTimerTick := by
  cases op with
  | createAndEnqueue name entry arg stackSize =>
      simp only [Run.exec, Run.onTimerTick]
      rw [SchedState.createAndEnqueue_onTimerTick]
      cases run.sched.createAndEnqueue name entry arg stackSize <;> rfl
  | yield =>
      simp only [Run.exec, Run.onTimerTick]
      rw [SchedState.yield_onTimerTick]
      cases run.sched.yield <;> rfl
  | onTimerTick => rfl
  | threadExit =>
      simp only [Run.exec, Run.onTimerTick]
      rw [SchedState.threadExit_onTimerTick,
        show run.sched.onTimerTick.currentThread = run.sched.currentThread from rfl,
        show run.sched.onTimerTick.threads = run.sched.threads from rfl]
      cases run.sched.currentThread with
      | none => rfl
      | some t =>
          simp only [Option.bind_eq_bind, Option.bind_some]
          split
          · cases run.sched.threadExit <;> rfl
          · rfl
  | compute machine => rfl

/-- Timer ticks never preempt a thread and change nothing that is scheduled. A run is the run
without its timer ticks, up to `gNeedReschedule`, which is set at the end if there was a tick. -/
theorem ticks_never_preempt (run : Run) (ops : List SchedOp) :
    ops.foldlM Run.exec run = ((ops.filter fun op => !op.isTick).foldlM Run.exec run).map
      (if ops.any SchedOp.isTick then Run.onTimerTick else id) := by
  have htick : ∀ (run : Run) (op : SchedOp), op.isTick = true →
      run.exec op = some run.onTimerTick := by
    intro run op hop
    cases op with
    | onTimerTick => rfl
    | _ => cases hop
  have hidem : ∀ run : Run, run.onTimerTick.onTimerTick = run.onTimerTick := fun _ => rfl
  exact foldlM_silent hidem htick (fun run op _ => run.exec_onTimerTick op) ops run

end HailOS.Sched
