import HailOS.Lib.Steps
import HailOS.Scheduler.Scheduler

/-!
# Safety of the scheduler

A run starts after `Init` and goes on with any calls of `CreateAndEnqueue`, `Yield`,
`OnTimerTick` and `ThreadExit` by the current thread, which computes in between. `Safe` is the
invariant of runs: it relates the run queue, the `State` fields and the current, idle and
bootstrap threads. `scheduler_safety` says that the queue holds ready threads only, each one
once, and that a dead thread never runs again.
-/

namespace HailOS.Sched

open Lib Arch

/-- A scheduler state with the threads that `CreateAndEnqueue` returned and those that exited. -/
structure Run where
  sched : SchedState
  created : List ThreadPtr := []
  exited : List ThreadPtr := []

/-- The thread objects in use. -/
def Run.objects (run : Run) : List ThreadPtr :=
  run.sched.idleThread.toList ++ run.sched.bootstrapThread.toList ++ run.created

/-- What the current thread can do. -/
inductive SchedOp where
  | createAndEnqueue (name : String) (entry : ThreadEntry) (arg stackSize : Nat)
  | yield
  | onTimerTick
  | threadExit
  /-- Any other code, which leaves the scheduler and the page bitmap alone. -/
  | compute (machine : Machine Reg)

/-- One operation of the current thread. `ThreadExit` is called from `ThreadStartTrampoline` when
the entry point of the thread has returned, so only by a thread that has an entry point other
than `IdleMain`. -/
def Run.exec (run : Run) : SchedOp → Option Run
  | .createAndEnqueue name entry arg stackSize => do
      let (result, sched) ← run.sched.createAndEnqueue name entry arg stackSize
      pure { run with sched := sched, created := result.toList ++ run.created }
  | .yield => run.sched.yield.map fun sched => { run with sched := sched }
  | .onTimerTick => some { run with sched := run.sched.onTimerTick }
  | .threadExit => do
      let t ← run.sched.currentThread
      match (run.sched.threads t).entry with
      | some (.function _) =>
          let sched ← run.sched.threadExit
          pure { run with sched := sched, exited := t :: run.exited }
      | _ => none
  | .compute machine => some { run with sched := { run.sched with machine := machine } }

/-- The transitions of a run. -/
def SchedStep (run : Run) (op : SchedOp) (run' : Run) : Prop := run.exec op = some run'

variable {run run' : Run} {op : SchedOp}

theorem step_createAndEnqueue {name : String} {entry : ThreadEntry} {arg stackSize : Nat}
    (h : SchedStep run (.createAndEnqueue name entry arg stackSize) run') :
    ∃ result sched, run.sched.createAndEnqueue name entry arg stackSize = some (result, sched) ∧
      run' = { run with sched := sched, created := result.toList ++ run.created } := by
  cases hcreate : run.sched.createAndEnqueue name entry arg stackSize with
  | none => simp [SchedStep, Run.exec, hcreate] at h
  | some returned =>
      obtain ⟨result, sched⟩ := returned
      simp only [SchedStep, Run.exec, hcreate, Option.bind_eq_bind, Option.bind_some,
        Option.pure_def, Option.some.injEq] at h
      exact ⟨result, sched, rfl, h.symm⟩

theorem step_yield (h : SchedStep run .yield run') :
    ∃ sched, run.sched.yield = some sched ∧ run' = { run with sched := sched } := by
  obtain ⟨sched, hyield, hrun⟩ := Option.map_eq_some_iff.mp h
  exact ⟨sched, hyield, hrun.symm⟩

theorem step_threadExit (h : SchedStep run .threadExit run') :
    ∃ t address sched, run.sched.currentThread = some t ∧
      (run.sched.threads t).entry = some (.function address) ∧
      run.sched.threadExit = some sched ∧
      run' = { run with sched := sched, exited := t :: run.exited } := by
  simp only [SchedStep, Run.exec, Option.bind_eq_bind, Option.bind_eq_some_iff] at h
  obtain ⟨t, hcurrent, h⟩ := h
  split at h
  · next address hentry =>
      obtain ⟨sched, hexit, hrun⟩ := Option.bind_eq_some_iff.mp h
      exact ⟨t, address, sched, hcurrent, hentry, hexit, (Option.some.inj hrun).symm⟩
  · cases h

/-! ## The invariant -/

/-- The thread objects in use are the idle, the bootstrap and the created threads. -/
def InUse (created : List ThreadPtr) (idle bootstrap t : ThreadPtr) : Prop :=
  t = idle ∨ t = bootstrap ∨ t ∈ created

/-- The invariant of runs. `contents` is the run queue, `current`, `idle` and `bootstrap` are the
threads that the globals point to. It leaves open whether the current thread is dead, which it
is between the two statements of `ThreadExit`. -/
structure Safe (s : SchedState) (created contents : List ThreadPtr)
    (current idle bootstrap : ThreadPtr) : Prop where
  currentThread : s.currentThread = some current
  idleThread : s.idleThread = some idle
  bootstrapThread : s.bootstrapThread = some bootstrap
  holds : s.runQueue.Holds s.threads contents
  queued_created : ∀ t ∈ contents, t ∈ created
  queued_ready : ∀ t ∈ contents, (s.threads t).state = .ready
  current_not_queued : current ∉ contents
  current_object : InUse created idle bootstrap current
  created_ne : ∀ t ∈ created, t ≠ idle ∧ t ≠ bootstrap
  idle_alive : (s.threads idle).state ≠ .dead
  idle_entry : (s.threads idle).entry = some .idleMain
  bootstrap_entry : (s.threads bootstrap).entry = none
  allocated : ∀ t, InUse created idle bootstrap t → s.Allocated t

variable {s s' : SchedState} {created contents : List ThreadPtr}
  {c idle bootstrap t : ThreadPtr}

/-! ### The first thread of a queue -/

/-- The next thread is the idle thread or was queued. -/
theorem next_mem (queued : List ThreadPtr) (idle : ThreadPtr) :
    queued.head?.getD idle = idle ∨ queued.head?.getD idle ∈ queued := by
  cases queued with
  | nil => exact .inl rfl
  | cons first rest => exact .inr (List.mem_cons_self ..)

/-- The next thread is not queued any more. -/
theorem next_not_mem_tail {queued : List ThreadPtr} (h : queued.Nodup) (idle : ThreadPtr) :
    queued.head?.getD idle ∉ queued.tail := by
  cases queued with
  | nil => exact List.not_mem_nil
  | cons first rest => exact (List.nodup_cons.mp h).1

/-- A queued thread is the next one or stays queued. -/
theorem head_or_tail {queued : List ThreadPtr} (ht : t ∈ queued) :
    t = queued.head?.getD idle ∨ t ∈ queued.tail := by
  cases queued with
  | nil => cases ht
  | cons first rest => exact List.mem_cons.mp ht

/-! ### What keeps the invariant -/

namespace Safe

/-- The invariant holds after `Init`. -/
theorem init (hinit : s.init = some s') (hqueue : s.runQueue = {})
    (hidle : s'.idleThread = some idle) :
    ∃ bootstrap, Safe s' [] [] bootstrap idle bootstrap ∧
      (s'.threads bootstrap).state ≠ .dead := by
  obtain ⟨bootstrap, hbootstrap, hcurrent, hboot, hidleAlloc, hholds, hrunning, hentry, hready,
    hidleEntry⟩ := SchedState.init_spec hinit hqueue hidle
  refine ⟨bootstrap, ⟨hcurrent, hidle, hbootstrap, hholds, by simp, by simp, by simp,
    .inr (.inl rfl), by simp, by simp [hready], hidleEntry, hentry, ?_⟩, by simp [hrunning]⟩
  rintro t (rfl | rfl | ht)
  · exact hidleAlloc
  · exact hboot
  · cases ht

/-- The invariant does not depend on the processor and the reschedule flag. -/
theorem unrelated (h : Safe s created contents c idle bootstrap) (machine : Machine Reg)
    (flag : Bool) :
    Safe { s with machine := machine, needReschedule := flag } created contents c idle bootstrap :=
  ⟨h.currentThread, h.idleThread, h.bootstrapThread, h.holds, h.queued_created, h.queued_ready,
    h.current_not_queued, h.current_object, h.created_ne, h.idle_alive, h.idle_entry,
    h.bootstrap_entry, h.allocated⟩

/-- The queue that `Yield` takes the next thread from holds created threads only, each one
once. -/
theorem queuedAtYield (h : Safe s created contents c idle bootstrap) :
    (s.queuedAtYield c contents).Nodup ∧ ∀ t ∈ s.queuedAtYield c contents, t ∈ created := by
  unfold SchedState.queuedAtYield
  split
  · next hrequeues =>
      have hcreated : c ∈ created := by
        obtain ⟨hidle, hbootstrap, _⟩ := hrequeues
        rw [h.idleThread] at hidle
        rw [h.bootstrapThread] at hbootstrap
        rcases h.current_object with rfl | rfl | hc
        · exact absurd rfl hidle
        · exact absurd rfl hbootstrap
        · exact hc
      refine ⟨?_, fun t ht => ?_⟩
      · rw [List.nodup_append_comm]
        exact List.nodup_cons.mpr ⟨h.current_not_queued, h.holds.nodup⟩
      · rcases List.mem_append.mp ht with ht | ht
        · exact h.queued_created t ht
        · rwa [List.mem_singleton.mp ht]
  · exact ⟨h.holds.nodup, h.queued_created⟩

/-- A queued thread is ready at the time `Yield` takes the next one. -/
theorem queuedAtYield_ready (h : Safe s created contents c idle bootstrap)
    (ht : t ∈ s.queuedAtYield c contents) :
    (if s.Requeues c ∧ t = c then ThreadState.ready else (s.threads t).state) = .ready := by
  unfold SchedState.queuedAtYield at ht
  split at ht
  · next hrequeues =>
      rcases List.mem_append.mp ht with ht | ht
      · rw [h.queued_ready t ht, ite_self]
      · rw [if_pos ⟨hrequeues, List.mem_singleton.mp ht⟩]
  · next hkept => rw [if_neg fun hboth => hkept hboth.1, h.queued_ready t ht]

/-- `Yield` is what its contract says. -/
theorem yielded (h : Safe s created contents c idle bootstrap) (hyield : s.yield = some s') :
    s.Yielded s' (s.queuedAtYield c contents) c
      ((s.queuedAtYield c contents).head?.getD idle) := by
  obtain ⟨s'', hyield', hspec⟩ :=
    SchedState.yield_spec h.currentThread h.idleThread h.holds h.current_not_queued
  obtain rfl : s' = s'' := Option.some.inj (hyield.symm.trans hyield')
  exact hspec

/-- `Yield` keeps the invariant, never makes a dead thread current, and revives no thread. The
current thread may be dead before. -/
theorem yield (h : Safe s created contents c idle bootstrap) (hyield : s.yield = some s') :
    Safe s' created (s.queuedAtYield c contents).tail
        ((s.queuedAtYield c contents).head?.getD idle) idle bootstrap ∧
      (s'.threads ((s.queuedAtYield c contents).head?.getD idle)).state ≠ .dead ∧
      ∀ t, (s.threads t).state = .dead → (s'.threads t).state = .dead := by
  have hspec := h.yielded hyield
  obtain ⟨hnodup, hcreated⟩ := h.queuedAtYield
  have hready := fun t => h.queuedAtYield_ready (t := t)
  have hnext := next_mem (s.queuedAtYield c contents) idle
  have hout := next_not_mem_tail hnodup idle
  have hin : ∀ t ∈ (s.queuedAtYield c contents).tail, t ∈ s.queuedAtYield c contents :=
    fun t ht => List.mem_of_mem_tail ht
  generalize (s.queuedAtYield c contents).head?.getD idle = n at hspec hnext hout ⊢
  generalize s.queuedAtYield c contents = queued at hspec hcreated hready hnext hout hin ⊢
  -- before `SwitchTo`, neither the idle thread nor the next thread is dead
  have hidle : (if s.Requeues c ∧ idle = c then ThreadState.ready else (s.threads idle).state) ≠
      .dead := by
    split
    · exact fun hdead => by cases hdead
    · exact h.idle_alive
  have halive : (if s.Requeues c ∧ n = c then ThreadState.ready else (s.threads n).state) ≠
      .dead := by
    rcases hnext with rfl | hn
    · exact hidle
    · rw [hready n hn]
      exact fun hdead => by cases hdead
  refine ⟨⟨hspec.current, hspec.idleThread.trans h.idleThread,
    hspec.bootstrapThread.trans h.bootstrapThread, hspec.holds, fun t ht => hcreated t (hin t ht),
    fun t ht => ?_, hout, ?_, h.created_ne, ?_, ?_, ?_, fun t ht => ?_⟩, ?_, fun t ht => ?_⟩
  · have hne : t ≠ n := fun heq => hout (heq ▸ ht)
    rw [hspec.state, if_neg fun hboth => hne hboth.2, hready t (hin t ht)]
  · rcases hnext with rfl | hn
    · exact .inl rfl
    · exact .inr (.inr (hcreated n hn))
  · rw [hspec.state]
    split
    · exact fun hdead => by cases hdead
    · exact hidle
  · rw [hspec.entry, h.idle_entry]
  · rw [hspec.entry, h.bootstrap_entry]
  · rw [SchedState.Allocated, hspec.bitmap]
    exact h.allocated t ht
  · rw [hspec.state]
    split
    · exact fun hdead => by cases hdead
    · exact halive
  · have hrequeued : ¬ (s.Requeues c ∧ t = c) := by
      rintro ⟨hrequeues, rfl⟩
      have hrunning := hrequeues.2.2
      rw [ht] at hrunning
      cases hrunning
    have hne : t ≠ n := by
      rintro rfl
      rw [if_neg hrequeued] at halive
      exact halive ht
    rw [hspec.state, if_neg fun hboth => hne hboth.2, if_neg hrequeued, ht]

/-- `CreateAndEnqueue` keeps the invariant and changes the state of no thread in use. -/
theorem createAndEnqueue (h : Safe s created contents c idle bootstrap) {name : String}
    {entry : ThreadEntry} {arg stackSize : Nat} {result : Option ThreadPtr}
    (hcreate : s.createAndEnqueue name entry arg stackSize = some (result, s')) :
    Safe s' (result.toList ++ created) (contents ++ result.toList) c idle bootstrap ∧
      ∀ t, InUse created idle bootstrap t →
        (s'.threads t).state = (s.threads t).state := by
  obtain ⟨new, hfresh, hallocated, hmono, hglobals, hothers, hholds, hresult⟩ :=
    SchedState.createAndEnqueue_spec hcreate h.holds
      fun x hx => h.allocated x (.inr (.inr (h.queued_created x hx)))
  have hne : ∀ t, InUse created idle bootstrap t → t ≠ new :=
    fun t ht heq => hfresh (heq ▸ h.allocated t ht)
  have hstate : ∀ t, InUse created idle bootstrap t →
      (s'.threads t).state = (s.threads t).state :=
    fun t ht => Thread.state_eq_of_unlinked (hothers t (hne t ht))
  have hentry : ∀ t, InUse created idle bootstrap t →
      (s'.threads t).entry = (s.threads t).entry :=
    fun t ht => by simpa [Thread.unlinked] using congrArg Thread.entry (hothers t (hne t ht))
  have hnew : ∀ t ∈ result.toList, t = new ∧ (s'.threads t).state = .ready := by
    intro t ht
    rcases hresult with rfl | ⟨rfl, hready⟩
    · cases ht
    · obtain rfl : t = new := by simpa using ht
      exact ⟨rfl, hready⟩
  refine ⟨⟨hglobals.currentThread.trans h.currentThread, hglobals.idleThread.trans h.idleThread,
    hglobals.bootstrapThread.trans h.bootstrapThread, hholds, ?_, ?_, ?_, ?_, ?_, ?_, ?_, ?_, ?_⟩,
    hstate⟩
  · intro t ht
    rcases List.mem_append.mp ht with ht | ht
    · exact List.mem_append_right _ (h.queued_created t ht)
    · exact List.mem_append_left _ ht
  · intro t ht
    rcases List.mem_append.mp ht with ht | ht
    · rw [hstate t (.inr (.inr (h.queued_created t ht))), h.queued_ready t ht]
    · exact (hnew t ht).2
  · intro hc
    rcases List.mem_append.mp hc with hc | hc
    · exact h.current_not_queued hc
    · exact hne c h.current_object (hnew c hc).1
  · rcases h.current_object with hc | hc | hc
    · exact .inl hc
    · exact .inr (.inl hc)
    · exact .inr (.inr (List.mem_append_right _ hc))
  · intro t ht
    rcases List.mem_append.mp ht with ht | ht
    · rw [(hnew t ht).1]
      exact ⟨(hne idle (.inl rfl)).symm, (hne bootstrap (.inr (.inl rfl))).symm⟩
    · exact h.created_ne t ht
  · rw [hstate idle (.inl rfl)]
    exact h.idle_alive
  · rw [hentry idle (.inl rfl), h.idle_entry]
  · rw [hentry bootstrap (.inr (.inl rfl)), h.bootstrap_entry]
  · intro t ht
    by_cases hold : InUse created idle bootstrap t
    · exact hmono t (h.allocated t hold)
    · have hresult : t ∈ result.toList := by
        rcases ht with ht | ht | ht
        · exact absurd (.inl ht) hold
        · exact absurd (.inr (.inl ht)) hold
        · exact (List.mem_append.mp ht).resolve_right fun ht => hold (.inr (.inr ht))
      rw [(hnew t hresult).1]
      exact hallocated

/-- A thread with an entry point that can return is a created one. -/
theorem ne_of_function (h : Safe s created contents c idle bootstrap) {address : Nat}
    (hentry : (s.threads c).entry = some (.function address)) : c ≠ idle ∧ c ≠ bootstrap := by
  refine ⟨?_, ?_⟩
  · rintro rfl
    have hidle := h.idle_entry
    rw [hentry] at hidle
    cases hidle
  · rintro rfl
    have hbootstrap := h.bootstrap_entry
    rw [hentry] at hbootstrap
    cases hbootstrap

/-- The first statement of `ThreadExit` keeps the invariant. -/
theorem dying (h : Safe s created contents c idle bootstrap) (hidle : c ≠ idle) :
    Safe (s.modify c fun thread => { thread with state := .dead }) created contents c idle
      bootstrap := by
  have hne : ∀ t ∈ contents, t ≠ c := fun t ht heq => h.current_not_queued (heq ▸ ht)
  have hentry : ∀ t, ((s.modify c fun thread => { thread with state := .dead }).threads t).entry =
      (s.threads t).entry := by
    intro t
    by_cases ht : t = c
    · simp [SchedState.modify, ht]
    · simp [SchedState.modify, ht]
  refine ⟨h.currentThread, h.idleThread, h.bootstrapThread, h.holds.congr fun t ht => ?_,
    h.queued_created, fun t ht => ?_, h.current_not_queued, h.current_object, h.created_ne, ?_,
    ?_, ?_, h.allocated⟩
  · simp [SchedState.modify, hne t ht]
  · simpa [SchedState.modify, hne t ht] using h.queued_ready t ht
  · simpa [SchedState.modify, hidle.symm] using h.idle_alive
  · rw [hentry, h.idle_entry]
  · rw [hentry, h.bootstrap_entry]

/-- `ThreadExit` keeps the invariant, leaves the thread dead and another one running. -/
theorem threadExit (h : Safe s created contents c idle bootstrap) {address : Nat}
    (hentry : (s.threads c).entry = some (.function address))
    (hexit : s.threadExit = some s') :
    Safe s' created contents.tail (contents.head?.getD idle) idle bootstrap ∧
      (s'.threads (contents.head?.getD idle)).state ≠ .dead ∧
      (∀ t, (s.threads t).state = .dead → (s'.threads t).state = .dead) ∧
      (s'.threads c).state = .dead := by
  rw [SchedState.threadExit, h.currentThread] at hexit
  -- `Yield` does not queue the thread again, since its state is not `Running`
  have hqueue : (s.modify c fun thread => { thread with state := .dead }).queuedAtYield c
      contents = contents := by
    refine if_neg fun hrequeues : SchedState.Requeues _ c => ?_
    have hrunning := hrequeues.2.2
    simp [SchedState.modify] at hrunning
  obtain ⟨hsafe, halive, hdead⟩ := (h.dying (h.ne_of_function hentry).1).yield hexit
  rw [hqueue] at hsafe halive
  refine ⟨hsafe, halive, fun t ht => hdead t ?_, hdead c ?_⟩
  · by_cases htc : t = c
    · simp [SchedState.modify, htc]
    · simp [SchedState.modify, htc, ht]
  · simp [SchedState.modify]

end Safe

/-! ## Runs -/

/-- The invariant of a run between two operations, where the current thread is alive. -/
def Run.Good (idle bootstrap : ThreadPtr) (run : Run) : Prop :=
  ∃ contents c, Safe run.sched run.created contents c idle bootstrap ∧
    (run.sched.threads c).state ≠ .dead

/-- The objects of a run. -/
theorem Run.Good.mem_objects (h : run.Good idle bootstrap) :
    t ∈ run.objects ↔ InUse run.created idle bootstrap t := by
  obtain ⟨contents, c, hsafe, _⟩ := h
  simp [Run.objects, hsafe.idleThread, hsafe.bootstrapThread, InUse]

/-- The thread is in use and dead. -/
def Run.Buried (run : Run) (t : ThreadPtr) : Prop :=
  t ∈ run.objects ∧ (run.sched.threads t).state = .dead

/-- One operation keeps the invariant, and a dead thread stays dead. -/
theorem Run.Good.step (h : run.Good idle bootstrap) (hstep : SchedStep run op run') :
    run'.Good idle bootstrap ∧ ∀ t, run.Buried t → run'.Buried t := by
  have hobjects := fun t => h.mem_objects (t := t)
  -- what the new state has to satisfy
  suffices hsuff : run'.Good idle bootstrap ∧
      (∀ t, InUse run.created idle bootstrap t → InUse run'.created idle bootstrap t) ∧
      ∀ t, InUse run.created idle bootstrap t → (run.sched.threads t).state = .dead →
        (run'.sched.threads t).state = .dead by
    obtain ⟨hgood, hmono, hdead⟩ := hsuff
    refine ⟨hgood, fun t ⟨ht, hstate⟩ => ?_⟩
    rw [hobjects] at ht
    exact ⟨hgood.mem_objects.mpr (hmono t ht), hdead t ht hstate⟩
  obtain ⟨contents, c, hsafe, halive⟩ := h
  cases op with
  | createAndEnqueue name entry arg stackSize =>
      obtain ⟨result, sched, hcreate, rfl⟩ := step_createAndEnqueue hstep
      obtain ⟨hsafe', hstate⟩ := hsafe.createAndEnqueue hcreate
      refine ⟨⟨_, c, hsafe', ?_⟩, fun t ht => ?_, fun t ht hdead => ?_⟩
      · rw [hstate c hsafe.current_object]
        exact halive
      · exact ht.imp id (Or.imp id (List.mem_append_right _))
      · rw [hstate t ht, hdead]
  | yield =>
      obtain ⟨sched, hyield, rfl⟩ := step_yield hstep
      obtain ⟨hsafe', halive', hdead⟩ := hsafe.yield hyield
      exact ⟨⟨_, _, hsafe', halive'⟩, fun t ht => ht, fun t _ => hdead t⟩
  | onTimerTick =>
      cases hstep
      exact ⟨⟨contents, c, hsafe.unrelated run.sched.machine true, halive⟩, fun t ht => ht,
        fun t _ hdead => hdead⟩
  | threadExit =>
      obtain ⟨t, address, sched, hcurrent, hentry, hexit, rfl⟩ := step_threadExit hstep
      obtain rfl : c = t := Option.some.inj (hsafe.currentThread.symm.trans hcurrent)
      obtain ⟨hsafe', halive', hdead, _⟩ := hsafe.threadExit hentry hexit
      exact ⟨⟨_, _, hsafe', halive'⟩, fun t ht => ht, fun t _ => hdead t⟩
  | compute machine =>
      cases hstep
      exact ⟨⟨contents, c, hsafe.unrelated machine run.sched.needReschedule, halive⟩,
        fun t ht => ht, fun t _ hdead => hdead⟩

/-- The invariant holds in every state of a run. -/
theorem Run.Good.steps (h : run.Good idle bootstrap) {ops : List SchedOp}
    (hsteps : Steps SchedStep run ops run') : run'.Good idle bootstrap :=
  hsteps.invariant (fun _ _ _ hgood hstep => (hgood.step hstep).1) h

/-- A dead thread stays dead. -/
theorem Run.Good.buried_steps (h : run.Good idle bootstrap) (ht : run.Buried t)
    {ops : List SchedOp} (hsteps : Steps SchedStep run ops run') : run'.Buried t := by
  induction hsteps with
  | refl => exact ht
  | cons hstep _ ih => exact ih (h.step hstep).1 ((h.step hstep).2 t ht)

/-- A dead thread does not run again. -/
theorem Run.Good.buried_not_current (h : run.Good idle bootstrap) (ht : run.Buried t)
    {ops : List SchedOp} (hsteps : Steps SchedStep run ops run') :
    run'.sched.currentThread ≠ some t := by
  obtain ⟨contents, c, hsafe, halive⟩ := h.steps hsteps
  rw [hsafe.currentThread]
  intro heq
  rw [Option.some.inj heq] at halive
  exact halive (h.buried_steps ht hsteps).2

/-- A thread that exits is dead. -/
theorem Run.Good.exit_buried (h : run.Good idle bootstrap)
    (hcurrent : run.sched.currentThread = some t) (hstep : SchedStep run .threadExit run') :
    run'.Buried t := by
  have hgood := (h.step hstep).1
  obtain ⟨contents, c, hsafe, _⟩ := h
  obtain ⟨t', address, sched, hcurrent', hentry, hexit, rfl⟩ := step_threadExit hstep
  obtain rfl : t = t' := Option.some.inj (hcurrent.symm.trans hcurrent')
  obtain rfl : c = t := Option.some.inj (hsafe.currentThread.symm.trans hcurrent)
  obtain ⟨_, _, _, hdead⟩ := hsafe.threadExit hentry hexit
  exact ⟨hgood.mem_objects.mpr hsafe.current_object, hdead⟩

/-- `Yield` returns in every state of a run. -/
theorem Run.Good.yield_returns (h : run.Good idle bootstrap) :
    ∃ run', SchedStep run .yield run' := by
  obtain ⟨contents, c, hsafe, _⟩ := h
  obtain ⟨s', hyield, _⟩ := SchedState.yield_spec hsafe.currentThread hsafe.idleThread hsafe.holds
    hsafe.current_not_queued
  exact ⟨{ run with sched := s' }, by simp [SchedStep, Run.exec, hyield]⟩

/-- Safety of the scheduler. In every state that is reached after `Init`, if the idle thread
could be created, the run queue is a well-formed list of distinct threads. None of them is the
current, the idle or the bootstrap thread, and all are in state `Ready`, so none is dead. A dead
thread never becomes the current thread, so `Yield` does not return to `ThreadExit` of a thread
that exited. `Yield` itself never fails. -/
theorem scheduler_safety {boot s : SchedState} {idle : ThreadPtr} {ops : List SchedOp} {run : Run}
    (hqueue : boot.runQueue = {}) (hinit : boot.init = some s)
    (hidle : s.idleThread = some idle) (hrun : Steps SchedStep { sched := s } ops run) :
    (∃ contents, run.sched.runQueue.Holds run.sched.threads contents ∧ contents.Nodup ∧
      ∀ t ∈ contents, some t ≠ run.sched.currentThread ∧ some t ≠ run.sched.idleThread ∧
        some t ≠ run.sched.bootstrapThread ∧ (run.sched.threads t).state = .ready) ∧
    (∀ t ∈ run.objects, (run.sched.threads t).state = .dead →
      ∀ ops' run', Steps SchedStep run ops' run' → run'.sched.currentThread ≠ some t) ∧
    (∀ t run₁, run.sched.currentThread = some t → SchedStep run .threadExit run₁ →
      ∀ ops' run', Steps SchedStep run₁ ops' run' → run'.sched.currentThread ≠ some t) ∧
    ∃ run', SchedStep run .yield run' := by
  obtain ⟨bootstrap, hsafe₀, halive₀⟩ := Safe.init hinit hqueue hidle
  have hstart : Run.Good idle bootstrap { sched := s } := ⟨[], bootstrap, hsafe₀, halive₀⟩
  have hgood := hstart.steps hrun
  refine ⟨?_, fun t ht hdead ops' run' hsteps => hgood.buried_not_current ⟨ht, hdead⟩ hsteps,
    fun t run₁ hcurrent hexit ops' run' hsteps => ?_, hgood.yield_returns⟩
  · obtain ⟨contents, c, hsafe, _⟩ := hgood
    refine ⟨contents, hsafe.holds, hsafe.holds.nodup, fun t ht => ?_⟩
    obtain ⟨hidleNe, hbootNe⟩ := hsafe.created_ne t (hsafe.queued_created t ht)
    rw [hsafe.currentThread, hsafe.idleThread, hsafe.bootstrapThread]
    refine ⟨fun heq => ?_, fun heq => hidleNe (Option.some.inj heq),
      fun heq => hbootNe (Option.some.inj heq), hsafe.queued_ready t ht⟩
    exact hsafe.current_not_queued (Option.some.inj heq ▸ ht)
  · have hgood₁ := (hgood.step hexit).1
    exact hgood₁.buried_not_current (hgood.exit_buried hcurrent hexit) hsteps

/-- A machine at the start of the scheduler: pages 1 to 31 are unused. -/
def smallMachine : SchedState where
  bitmap := fun i => if i = 0 then 0x01 else if i < 4 then 0x00 else 0xFF
  machine := ⟨fun _ => 0, 0x90000, 0x200000, fun _ => 0⟩
  threads := fun _ => {}
  trampoline := 0x201000

/-- The state after `Init` and some operations on the small machine. -/
def smallRun (ops : List SchedOp) : Option Run :=
  smallMachine.init.bind fun s => ops.foldlM Run.exec { sched := s }

/-- The state after one more operation. -/
theorem smallRun_snoc (ops : List SchedOp) (op : SchedOp) :
    smallRun (ops ++ [op]) = (smallRun ops).bind fun run => run.exec op := by
  cases hinit : smallMachine.init with
  | none => simp [smallRun, hinit]
  | some s => simp [smallRun, hinit, List.foldlM_append]

/-- The idle thread of the small machine. -/
theorem smallMachine_idle :
    smallMachine.init.bind (fun s => s.idleThread) = some 8192 := by decide +kernel

/-- A run on the small machine. -/
theorem smallRun_steps {ops : List SchedOp} {run : Run} (h : smallRun ops = some run) :
    ∃ s, smallMachine.init = some s ∧ Steps SchedStep { sched := s } ops run := by
  obtain ⟨s, hinit, hrun⟩ := Option.bind_eq_some_iff.mp h
  exact ⟨s, hinit, Steps.of_foldlM hrun⟩

/-- A thread is created, runs and exits on the small machine. The idle thread runs then, and the
thread never runs again. -/
theorem scheduler_safety_exit : ∃ s run, smallMachine.init = some s ∧ s.idleThread = some 8192 ∧
    Steps SchedStep { sched := s }
      [.createAndEnqueue "worker" (.function 0x202000) 0 0, .yield, .threadExit] run ∧
    run.sched.currentThread = some 8192 ∧
    ∀ ops' run', Steps SchedStep run ops' run' → run'.sched.currentThread ≠ some 28672 := by
  have heval : (smallRun [.createAndEnqueue "worker" (.function 0x202000) 0 0, .yield,
      .threadExit]).map (fun run => (run.sched.currentThread, run.objects,
        (run.sched.threads 28672).state)) =
      some (some 8192, [8192, 4096, 28672], .dead) := by decide +kernel
  have hidle := smallMachine_idle
  obtain ⟨run, hsmall, hvalues⟩ := Option.map_eq_some_iff.mp heval
  obtain ⟨s, hinit, hsteps⟩ := smallRun_steps hsmall
  rw [hinit, Option.bind_some] at hidle
  simp only [Prod.mk.injEq] at hvalues
  obtain ⟨hcurrent, hobjects, hdead⟩ := hvalues
  refine ⟨s, run, hinit, hidle, hsteps, hcurrent, ?_⟩
  exact (scheduler_safety rfl hinit hidle hsteps).2.1 28672 (by simp [hobjects]) hdead

end HailOS.Sched
