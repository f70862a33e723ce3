import HailOS.Lib.TurnTaking
import HailOS.Scheduler.Safety

/-!
# Threads take turns

Once the bootstrap thread has called `Start`, the created threads share the processor. The current
thread and the run queue together are a ring of threads: `Yield` passes the turn on, `ThreadExit`
leaves the ring, and `CreateAndEnqueue` lets a thread join it. `InTurn.steps` is this simulation,
`round_robin` carries it from the start of the kernel to every state that is reached, and
`turn_comes` says how long a thread waits.

A thread that yields while no other is ready breaks the ring, since `SwitchTo` returns early. The
runs here are those where another thread is ready at every `Yield` and every `ThreadExit`.
-/

namespace HailOS.Sched

open Lib

/-- `RunQueue::Empty`. -/
def RunQueue.empty (queue : RunQueue) : Bool := queue.head == none

/-- `Start`. -/
def SchedState.start (s : SchedState) : Option SchedState := s.yield

/-- The operation gives the processor to another thread. -/
def SchedOp.handsOver : SchedOp → Bool
  | .yield | .threadExit => true
  | .createAndEnqueue .. | .onTimerTick | .compute _ => false

/-- One operation of a thread that only gives the processor away while another one is ready. -/
def Run.execShared (run : Run) (op : SchedOp) : Option Run :=
  if op.handsOver && run.sched.runQueue.empty then none else run.exec op

/-- The transitions of a run in which the threads share the processor. -/
def SharedStep (run : Run) (op : SchedOp) (run' : Run) : Prop := run.execShared op = some run'

/-- What an operation does to the ring of threads. -/
inductive TurnOf : SchedOp → TurnOp ThreadPtr → Prop where
  | create {name : String} {entry : ThreadEntry} {arg stackSize : Nat} (t : ThreadPtr) :
      TurnOf (.createAndEnqueue name entry arg stackSize) (.join t)
  | createNull {name : String} {entry : ThreadEntry} {arg stackSize : Nat} :
      TurnOf (.createAndEnqueue name entry arg stackSize) .stay
  | yield : TurnOf .yield .pass
  | threadExit : TurnOf .threadExit .leave
  | onTimerTick : TurnOf .onTimerTick .stay
  | compute {machine : Machine Arch.Reg} : TurnOf (.compute machine) .stay

theorem TurnOf.handsOver_eq {op : SchedOp} {turn : TurnOp ThreadPtr} (h : TurnOf op turn) :
    turn.handsOver = op.handsOver := by
  cases h <;> rfl

/-- As many turns are handed over as operations hand over the processor. -/
theorem countP_handsOver {ops : List SchedOp} {turnOps : List (TurnOp ThreadPtr)}
    (h : List.Forall₂ TurnOf ops turnOps) :
    turnOps.countP TurnOp.handsOver = ops.countP SchedOp.handsOver := by
  induction h with
  | nil => rfl
  | cons hturn _ ih => rw [List.countP_cons, List.countP_cons, ih, hturn.handsOver_eq]

variable {run run' : Run} {op : SchedOp} {contents : List ThreadPtr} {c idle bootstrap : ThreadPtr}

/-- A transition of the scheduler, with another thread ready if the processor is given away. -/
theorem SharedStep.schedStep (h : SharedStep run op run') :
    SchedStep run op run' ∧ (op.handsOver = true → run.sched.runQueue.empty = false) := by
  rw [SharedStep, Run.execShared] at h
  split at h
  · cases h
  · next hshared => exact ⟨h, fun hop => by simpa [hop] using hshared⟩

/-- The current thread is a created one in state `Running`, and `contents` is the run queue. -/
structure InTurn (run : Run) (c : ThreadPtr) (contents : List ThreadPtr)
    (idle bootstrap : ThreadPtr) : Prop where
  safe : Safe run.sched run.created contents c idle bootstrap
  worker : c ∈ run.created
  running : (run.sched.threads c).state = .running

/-- The queue of a state is empty exactly if its contents are. -/
theorem RunQueue.Holds.empty_iff {queue : RunQueue} {threads : Threads}
    (h : queue.Holds threads contents) : queue.empty = true ↔ contents = [] := by
  have hhead : queue.head = contents.head? := h.head_eq
  rw [RunQueue.empty, beq_iff_eq, hhead, List.head?_eq_none_iff]

namespace InTurn

/-- The current thread goes back into the queue when it yields. -/
theorem requeues (h : InTurn run c contents idle bootstrap) : run.sched.Requeues c := by
  obtain ⟨hidle, hbootstrap⟩ := h.safe.created_ne c h.worker
  rw [SchedState.Requeues, h.safe.idleThread, h.safe.bootstrapThread]
  exact ⟨fun heq => hidle (Option.some.inj heq), fun heq => hbootstrap (Option.some.inj heq),
    h.running⟩

/-- `Yield` passes the turn to the first ready thread. -/
theorem yield {first : ThreadPtr} {rest : List ThreadPtr} {sched : SchedState}
    (h : InTurn run c (first :: rest) idle bootstrap) (hyield : run.sched.yield = some sched) :
    InTurn { run with sched := sched } first (rest ++ [c]) idle bootstrap := by
  have hqueue : run.sched.queuedAtYield c (first :: rest) = first :: (rest ++ [c]) :=
    if_pos h.requeues
  have hne : first ≠ c :=
    fun heq => h.safe.current_not_queued (heq ▸ List.mem_cons_self ..)
  have hspec := h.safe.yielded hyield
  have hsafe := (h.safe.yield hyield).1
  rw [hqueue] at hspec hsafe
  refine ⟨hsafe, h.safe.queued_created first (List.mem_cons_self ..), ?_⟩
  show (sched.threads first).state = .running
  rw [hspec.state, if_pos ⟨hne, rfl⟩]

/-- `ThreadExit` leaves the turn to the first ready thread. -/
theorem threadExit {first : ThreadPtr} {rest : List ThreadPtr} {sched : SchedState} {address : Nat}
    (h : InTurn run c (first :: rest) idle bootstrap)
    (hentry : (run.sched.threads c).entry = some (.function address))
    (hexit : run.sched.threadExit = some sched) :
    InTurn { run with sched := sched, exited := c :: run.exited } first rest idle bootstrap := by
  have hsafe := (h.safe.threadExit hentry hexit).1
  refine ⟨hsafe, h.safe.queued_created first (List.mem_cons_self ..), ?_⟩
  have hdying := h.safe.dying (h.safe.ne_of_function hentry).1
  rw [SchedState.threadExit, h.safe.currentThread] at hexit
  have hspec := hdying.yielded hexit
  have hne : first ≠ c :=
    fun heq => h.safe.current_not_queued (heq ▸ List.mem_cons_self ..)
  -- a dead thread is not queued again
  have hqueue : (run.sched.modify c fun thread => { thread with state := .dead }).queuedAtYield c
      (first :: rest) = first :: rest := by
    refine if_neg fun hrequeues : SchedState.Requeues _ c => ?_
    have hrunning := hrequeues.2.2
    simp [SchedState.modify] at hrunning
  rw [hqueue] at hspec
  show (sched.threads first).state = .running
  rw [hspec.state]
  exact if_pos ⟨hne, rfl⟩

/-- Every operation moves the ring as it should. -/
theorem step (h : InTurn run c contents idle bootstrap) (hstep : SharedStep run op run') :
    ∃ turn c' contents', TurnOf op turn ∧ turn.apply (c :: contents) = c' :: contents' ∧
      run'.created = turn.joined.toList ++ run.created ∧
      InTurn run' c' contents' idle bootstrap := by
  obtain ⟨hstep, hshared⟩ := hstep.schedStep
  have hready : op.handsOver = true → ∃ first rest, contents = first :: rest := by
    intro hop
    refine List.exists_cons_of_ne_nil fun hnil => ?_
    have hempty := h.safe.holds.empty_iff.mpr hnil
    rw [hshared hop] at hempty
    cases hempty
  cases op with
  | createAndEnqueue name entry arg stackSize =>
      obtain ⟨result, sched, hcreate, rfl⟩ := step_createAndEnqueue hstep
      obtain ⟨hsafe, hstate⟩ := h.safe.createAndEnqueue hcreate
      have hturn : InTurn { run with sched := sched, created := result.toList ++ run.created } c
          (contents ++ result.toList) idle bootstrap := by
        refine ⟨hsafe, List.mem_append_right _ h.worker, ?_⟩
        show (sched.threads c).state = .running
        rw [hstate c h.safe.current_object, h.running]
      cases result with
      | none => exact ⟨.stay, c, contents, .createNull, rfl, rfl, by simpa using hturn⟩
      | some t => exact ⟨.join t, c, contents ++ [t], .create t, rfl, rfl, hturn⟩
  | yield =>
      obtain ⟨first, rest, rfl⟩ := hready rfl
      obtain ⟨sched, hyield, rfl⟩ := step_yield hstep
      exact ⟨.pass, first, rest ++ [c], .yield, apply_pass_cons c (first :: rest), rfl,
        h.yield hyield⟩
  | onTimerTick =>
      cases hstep
      exact ⟨.stay, c, contents, .onTimerTick, rfl, rfl, h.safe.unrelated run.sched.machine true,
        h.worker, h.running⟩
  | threadExit =>
      obtain ⟨first, rest, rfl⟩ := hready rfl
      obtain ⟨t, address, sched, hcurrent, hentry, hexit, rfl⟩ := step_threadExit hstep
      obtain rfl : c = t := Option.some.inj (h.safe.currentThread.symm.trans hcurrent)
      exact ⟨.leave, first, rest, .threadExit, rfl, rfl, h.threadExit hentry hexit⟩
  | compute machine =>
      cases hstep
      exact ⟨.stay, c, contents, .compute, rfl, rfl,
        h.safe.unrelated machine run.sched.needReschedule, h.worker, h.running⟩

/-- So does every run. -/
theorem steps {ops : List SchedOp} (h : InTurn run c contents idle bootstrap)
    (hrun : Steps SharedStep run ops run') :
    ∃ turnOps c' contents', List.Forall₂ TurnOf ops turnOps ∧
      turns (c :: contents) turnOps = c' :: contents' ∧
      run'.created.reverse = run.created.reverse ++ turnOps.filterMap TurnOp.joined ∧
      InTurn run' c' contents' idle bootstrap := by
  induction hrun generalizing c contents with
  | refl run => exact ⟨[], c, contents, .nil, rfl, (List.append_nil _).symm, h⟩
  | @cons run _ _ _ _ hstep _ ih =>
      obtain ⟨turn, c₁, contents₁, hturn, hring, hcreated, h₁⟩ := h.step hstep
      obtain ⟨turnOps, c₂, contents₂, hturns, hrings, hcreateds, h₂⟩ := ih h₁
      refine ⟨turn :: turnOps, c₂, contents₂, .cons hturn hturns, ?_, ?_, h₂⟩
      · rw [turns_cons, hring, hrings]
      · rw [hcreateds, hcreated, List.filterMap_cons]
        cases turn.joined <;> simp

end InTurn

/-! ## From the start of the kernel -/

/-- While the bootstrap thread creates threads, they queue in the order of their creation. -/
theorem Safe.creates {ops : List SchedOp} (hrun : Steps SchedStep run ops run')
    (hops : ∀ op ∈ ops, op.handsOver = false)
    (h : Safe run.sched run.created run.created.reverse bootstrap idle bootstrap) :
    Safe run'.sched run'.created run'.created.reverse bootstrap idle bootstrap := by
  induction hrun with
  | refl => exact h
  | @cons start middle finish op ops hstep _ ih =>
      refine ih (fun op hop => hops op (List.mem_cons_of_mem _ hop)) ?_
      have hop := hops op (List.mem_cons_self ..)
      cases op with
      | createAndEnqueue name entry arg stackSize =>
          obtain ⟨result, sched, hcreate, rfl⟩ := step_createAndEnqueue hstep
          have hsafe := (h.createAndEnqueue hcreate).1
          have horder : (result.toList ++ start.created).reverse =
              start.created.reverse ++ result.toList := by
            cases result <;> simp
          rw [← horder] at hsafe
          exact hsafe
      | yield => cases hop
      | threadExit => cases hop
      | onTimerTick =>
          cases hstep
          exact h.unrelated start.sched.machine true
      | compute machine =>
          cases hstep
          exact h.unrelated machine start.sched.needReschedule

/-- `Start` gives the first turn to the thread that was created first. -/
theorem Safe.start
    (h : Safe run.sched run.created run.created.reverse bootstrap idle bootstrap)
    (hstep : SharedStep run .yield run') :
    ∃ c contents, run.created.reverse = c :: contents ∧ run'.created = run.created ∧
      InTurn run' c contents idle bootstrap := by
  obtain ⟨hstep, hshared⟩ := hstep.schedStep
  have hne : run.created.reverse ≠ [] := by
    intro hnil
    have hempty := h.holds.empty_iff.mpr hnil
    rw [hshared rfl] at hempty
    cases hempty
  obtain ⟨c, contents, hring⟩ := List.exists_cons_of_ne_nil hne
  obtain ⟨sched, hyield, rfl⟩ := step_yield hstep
  rw [hring] at h
  have hqueue : run.sched.queuedAtYield bootstrap (c :: contents) = c :: contents :=
    if_neg fun hrequeues : run.sched.Requeues bootstrap => hrequeues.2.1 h.bootstrapThread.symm
  have hspec := h.yielded hyield
  have hsafe := (h.yield hyield).1
  rw [hqueue] at hspec hsafe
  have hcreated : c ∈ run.created := h.queued_created c (List.mem_cons_self ..)
  refine ⟨c, contents, hring, rfl, hsafe, hcreated, ?_⟩
  show (sched.threads c).state = .running
  rw [hspec.state]
  exact if_pos ⟨(h.created_ne c hcreated).2, rfl⟩

/-- The kernel right after `Start`: `Init` could create the idle thread, and the bootstrap thread
then created the threads of the list, one after the other, before it called `Start`. -/
inductive Started : List ThreadPtr → Run → Prop where
  | start {boot s : SchedState} {bootOps : List SchedOp} {run run' : Run}
      (hqueue : boot.runQueue = {}) (hinit : boot.init = some s) (hidle : s.idleThread ≠ none)
      (hops : ∀ op ∈ bootOps, op.handsOver = false)
      (hboot : Steps SchedStep { sched := s } bootOps run) (hstart : SharedStep run .yield run') :
      Started run.created.reverse run'

/-- The ring at the start is the list of created threads. -/
theorem Started.inTurn {created : List ThreadPtr} (h : Started created run) :
    ∃ c contents idle bootstrap, created = c :: contents ∧ run.created.reverse = created ∧
      InTurn run c contents idle bootstrap := by
  cases h with
  | @start boot s bootOps run₁ _ hqueue hinit hidle hops hboot hstart =>
      obtain ⟨idle, hidle⟩ := Option.ne_none_iff_exists'.mp hidle
      obtain ⟨bootstrap, hsafe, -⟩ := Safe.init hinit hqueue hidle
      have hcreated : Safe run₁.sched run₁.created run₁.created.reverse bootstrap idle bootstrap :=
        Safe.creates hboot hops hsafe
      obtain ⟨c, contents, hring, hsame, hturn⟩ := hcreated.start hstart
      exact ⟨c, contents, idle, bootstrap, hring, congrArg List.reverse hsame, hturn⟩

/-- The turn of every ready thread comes. In a state that is reached after `Start`, let the thread
`t` be preceded by `k` threads in the run queue. Then each hand-over brings it one place nearer,
and after `k + 1` of them it is the current thread, whatever threads are created or exit
meanwhile. -/
theorem turn_comes {created contents : List ThreadPtr} {reach ops : List SchedOp}
    {run run' run'' : Run} {t : ThreadPtr} {k : ℕ}
    (hstart : Started created run) (hreach : Steps SharedStep run reach run')
    (hholds : run'.sched.runQueue.Holds run'.sched.threads contents) (ht : contents[k]? = some t)
    (hrun : Steps SharedStep run' ops run'') (hcount : ops.countP SchedOp.handsOver ≤ k + 1) :
    ∃ c contents', run''.sched.currentThread = some c ∧
      run''.sched.runQueue.Holds run''.sched.threads contents' ∧
      (c :: contents')[k + 1 - ops.countP SchedOp.handsOver]? = some t := by
  obtain ⟨_, _, _, _, _, _, hturn₀⟩ := hstart.inTurn
  obtain ⟨_, c, queued, _, _, _, hturn⟩ := hturn₀.steps hreach
  obtain rfl : queued = contents := hturn.safe.holds.unique hholds
  obtain ⟨turnOps, c', contents', hturns, hring, _, hturn'⟩ := hturn.steps hrun
  refine ⟨c', contents', hturn'.safe.currentThread, hturn'.safe.holds, ?_⟩
  rw [← hring, ← countP_handsOver hturns]
  refine turns_getElem? turnOps ?_ (by rwa [countP_handsOver hturns])
  rwa [List.getElem?_cons_succ]

/-! ## Two workers on the small machine -/

/-- The bootstrap thread creates two threads. -/
def twoWorkers : List SchedOp :=
  [.createAndEnqueue "first" (.function 0x202000) 0 0,
    .createAndEnqueue "second" (.function 0x203000) 0 0]

/-- The two threads are created and started, and then some operations follow. -/
def workersRun (ops : List SchedOp) : Option Run :=
  (smallRun twoWorkers).bind fun run => (SchedOp.yield :: ops).foldlM Run.execShared run

theorem workersRun_started {ops : List SchedOp} {run' : Run} (h : workersRun ops = some run') :
    ∃ run, Started [28672, 49152] run ∧ Steps SharedStep run ops run' := by
  obtain ⟨run₁, hsmall, hfold⟩ := Option.bind_eq_some_iff.mp h
  obtain ⟨s, hinit, hboot⟩ := smallRun_steps hsmall
  have hidle := smallMachine_idle
  rw [hinit, Option.bind_some] at hidle
  have hcreated : (smallRun twoWorkers).map (fun run => run.created) = some [49152, 28672] := by
    decide +kernel
  rw [hsmall, Option.map_some, Option.some.injEq] at hcreated
  obtain ⟨run, hstart, hrest⟩ := Option.bind_eq_some_iff.mp hfold
  have hops : ∀ op ∈ twoWorkers, op.handsOver = false := by simp [twoWorkers, SchedOp.handsOver]
  have hstarted := Started.start rfl hinit (by simp [hidle]) hops hboot hstart
  rw [hcreated] at hstarted
  exact ⟨run, hstarted, Steps.of_foldlM hrest⟩

/-- The second worker waits for one hand-over. -/
theorem turn_comes_second : ∃ run run', Started [28672, 49152] run ∧
    run.sched.runQueue.Holds run.sched.threads [49152] ∧
    Steps SharedStep run [.compute smallMachine.machine, .yield] run' ∧
    run'.sched.currentThread = some 49152 := by
  have heval : (workersRun [.compute smallMachine.machine, .yield]).isSome = true := by
    decide +kernel
  obtain ⟨run', hworkers⟩ := Option.isSome_iff_exists.mp heval
  obtain ⟨run, hstarted, hsteps⟩ := workersRun_started hworkers
  obtain ⟨c, contents, idle, bootstrap, hring, _, hturn⟩ := hstarted.inTurn
  obtain ⟨rfl, rfl⟩ := List.cons.inj hring
  obtain ⟨c', contents', hcurrent, _, hfirst⟩ := turn_comes hstarted (.refl run) hturn.safe.holds
    (t := 49152) (k := 0) rfl hsteps (by decide)
  obtain rfl : c' = 49152 := Option.some.inj hfirst
  exact ⟨run, run', hstarted, hturn.safe.holds, hsteps, hcurrent⟩

end HailOS.Sched
