import HailOS.Scheduler.Safety

/-!
# Lost threads

A created thread that has not exited should be the current thread or be queued, or else it never
runs again. `SwitchTo` returns early if the next thread is the current one, and leaves its state
at the `Ready` that `EnqueueReady` had set. Its next `Yield` then takes it for a thread that must
not be queued, and it is lost.

`no_lost_thread` says that no thread is lost as long as every `Yield` is made by the idle thread,
the bootstrap thread or a thread in state `Running`, and that this condition is exact.
-/

namespace HailOS.Sched

open Lib

/-- Every created thread that has not exited is the current thread or queued exactly once. -/
def NoLost (run : Run) : Prop :=
  ∃ contents, run.sched.runQueue.Holds run.sched.threads contents ∧
    ∀ t ∈ run.created, t ∉ run.exited →
      run.sched.currentThread = some t ∨ contents.count t = 1

/-- The current thread is the idle or the bootstrap thread, or its state is `Running`. -/
def YieldsRunning (run : Run) : Prop :=
  ∀ c, run.sched.currentThread = some c →
    run.sched.idleThread = some c ∨ run.sched.bootstrapThread = some c ∨
      (run.sched.threads c).state = .running

/-- A transition in which a `Yield` meets the condition. -/
def KeepingStep (run : Run) (op : SchedOp) (run' : Run) : Prop :=
  SchedStep run op run' ∧ (op = .yield → YieldsRunning run)

variable {run run' : Run} {op : SchedOp} {s s' : SchedState}
  {created contents queued : List ThreadPtr} {c n idle bootstrap t : ThreadPtr}

/-- The invariant of runs without lost threads, over the contents of the queue. Threads that
exited are dead, so they are not the current thread. -/
structure Kept (run : Run) (contents : List ThreadPtr) (c idle bootstrap : ThreadPtr) : Prop where
  safe : Safe run.sched run.created contents c idle bootstrap
  alive : (run.sched.threads c).state ≠ .dead
  exited_dead : ∀ t ∈ run.exited, run.Buried t
  kept : ∀ t ∈ run.created, t ∉ run.exited → t = c ∨ t ∈ contents

namespace Kept

theorem good (h : Kept run contents c idle bootstrap) : run.Good idle bootstrap :=
  ⟨contents, c, h.safe, h.alive⟩

/-- No thread is lost under the invariant. -/
theorem noLost (h : Kept run contents c idle bootstrap) : NoLost run := by
  refine ⟨contents, h.safe.holds, fun t ht hexited => ?_⟩
  rcases h.kept t ht hexited with rfl | hqueued
  · exact .inl h.safe.currentThread
  · exact .inr (List.count_eq_one_of_mem h.safe.holds.nodup hqueued)

end Kept

/-- A queued thread is still queued when `Yield` takes the next one. -/
theorem mem_queuedAtYield (ht : t ∈ contents) : t ∈ s.queuedAtYield c contents := by
  unfold SchedState.queuedAtYield
  split
  · exact List.mem_append_left _ ht
  · exact ht

/-- `Yield` by a created thread whose state is not `Running` loses it. -/
theorem Safe.yield_loses (h : Safe s created contents c idle bootstrap)
    (hyield : s.yield = some s') (hidle : c ≠ idle) (hstate : (s.threads c).state ≠ .running) :
    s'.currentThread ≠ some c ∧ ∃ contents', s'.runQueue.Holds s'.threads contents' ∧
      c ∉ contents' := by
  have hspec := h.yielded hyield
  -- the thread is not queued again, and the next thread is another one
  have hqueue : s.queuedAtYield c contents = contents :=
    if_neg fun hrequeues : s.Requeues c => hstate hrequeues.2.2
  rw [hqueue] at hspec
  refine ⟨?_, contents.tail, hspec.holds, fun hc =>
    h.current_not_queued (List.mem_of_mem_tail hc)⟩
  rw [hspec.current]
  intro heq
  have hnext : contents.head?.getD idle = c := Option.some.inj heq
  cases contents with
  | nil => exact hidle hnext.symm
  | cons first rest => exact h.current_not_queued (hnext ▸ List.mem_cons_self ..)

/-- An operation that meets the condition loses no thread. -/
theorem Kept.step (h : Kept run contents c idle bootstrap) (hstep : KeepingStep run op run') :
    ∃ contents' c', Kept run' contents' c' idle bootstrap := by
  obtain ⟨hstep, hyields⟩ := hstep
  have hburied := (h.good.step hstep).2
  have hsafe := h.safe
  cases op with
  | createAndEnqueue name entry arg stackSize =>
      obtain ⟨result, sched, hcreate, rfl⟩ := step_createAndEnqueue hstep
      obtain ⟨hsafe', hstate⟩ := hsafe.createAndEnqueue hcreate
      refine ⟨_, c, hsafe', ?_, fun t ht => hburied t (h.exited_dead t ht),
        fun t ht hexited => ?_⟩
      · rw [hstate c hsafe.current_object]
        exact h.alive
      · rcases List.mem_append.mp ht with hnew | hold
        · exact .inr (List.mem_append_right _ hnew)
        · exact (h.kept t hold hexited).imp id (List.mem_append_left _)
  | yield =>
      obtain ⟨sched, hyield, rfl⟩ := step_yield hstep
      obtain ⟨hsafe', halive', _⟩ := hsafe.yield hyield
      refine ⟨_, _, hsafe', halive', fun t ht => hburied t (h.exited_dead t ht),
        fun t ht hexited => head_or_tail ?_⟩
      rcases h.kept t ht hexited with rfl | hqueued
      · -- the current thread is a created one, so the condition puts it into the queue
        obtain ⟨hidle, hbootstrap⟩ := hsafe.created_ne t ht
        have hrequeues : run.sched.Requeues t := by
          rw [SchedState.Requeues, hsafe.idleThread, hsafe.bootstrapThread]
          refine ⟨fun heq => hidle (Option.some.inj heq),
            fun heq => hbootstrap (Option.some.inj heq), ?_⟩
          rcases hyields rfl t hsafe.currentThread with heq | heq | hrunning
          · exact absurd (Option.some.inj (hsafe.idleThread.symm.trans heq)).symm hidle
          · exact absurd (Option.some.inj (hsafe.bootstrapThread.symm.trans heq)).symm hbootstrap
          · exact hrunning
        rw [SchedState.queuedAtYield, if_pos hrequeues]
        exact List.mem_append_right _ (List.mem_singleton_self t)
      · exact mem_queuedAtYield hqueued
  | onTimerTick =>
      cases hstep
      exact ⟨contents, c, hsafe.unrelated run.sched.machine true, h.alive,
        fun t ht => hburied t (h.exited_dead t ht), h.kept⟩
  | threadExit =>
      have hgone := h.good.exit_buried hsafe.currentThread hstep
      obtain ⟨t, address, sched, hcurrent, hentry, hexit, rfl⟩ := step_threadExit hstep
      obtain rfl : c = t := Option.some.inj (hsafe.currentThread.symm.trans hcurrent)
      obtain ⟨hsafe', halive', _⟩ := hsafe.threadExit hentry hexit
      refine ⟨_, _, hsafe', halive', fun t ht => ?_, fun t ht hexited => head_or_tail ?_⟩
      · rcases List.mem_cons.mp ht with rfl | ht
        · exact hgone
        · exact hburied t (h.exited_dead t ht)
      · rw [List.mem_cons, not_or] at hexited
        exact (h.kept t ht hexited.2).resolve_left hexited.1
  | compute machine =>
      cases hstep
      exact ⟨contents, c, hsafe.unrelated machine run.sched.needReschedule, h.alive,
        fun t ht => hburied t (h.exited_dead t ht), h.kept⟩

/-- A run whose steps meet the condition keeps the invariant. -/
theorem Kept.steps (h : Kept run contents c idle bootstrap) {ops : List SchedOp}
    (hsteps : Steps KeepingStep run ops run') :
    ∃ contents' c', Kept run' contents' c' idle bootstrap := by
  induction hsteps generalizing contents c with
  | refl => exact ⟨contents, c, h⟩
  | cons hstep _ ih =>
      obtain ⟨contents', c', h'⟩ := h.step hstep
      exact ih h'

/-- A `Yield` that does not meet the condition loses the current thread. -/
theorem Kept.yieldsRunning (h : Kept run contents c idle bootstrap)
    (hstep : SchedStep run .yield run') (hkept : NoLost run') : YieldsRunning run := by
  intro t hcurrent
  have hsafe := h.safe
  obtain rfl : c = t := Option.some.inj (hsafe.currentThread.symm.trans hcurrent)
  by_contra hnot
  rw [not_or, not_or, hsafe.idleThread, hsafe.bootstrapThread] at hnot
  obtain ⟨hidle, hbootstrap, hstate⟩ := hnot
  have hidle : c ≠ idle := fun heq => hidle (congrArg some heq.symm)
  have hbootstrap : c ≠ bootstrap := fun heq => hbootstrap (congrArg some heq.symm)
  have hcreated : c ∈ run.created :=
    (hsafe.current_object.resolve_left hidle).resolve_left hbootstrap
  have hexited : c ∉ run.exited := fun hc => h.alive (h.exited_dead c hc).2
  obtain ⟨sched, hyield, rfl⟩ := step_yield hstep
  obtain ⟨hnext, contents', hholds', hout⟩ := hsafe.yield_loses hyield hidle hstate
  obtain ⟨contents'', hholds'', hall⟩ := hkept
  obtain rfl : contents'' = contents' := hholds''.unique hholds'
  rcases hall c hcreated hexited with hcurr | hcount
  · exact hnext hcurr
  · rw [List.count_eq_zero_of_not_mem hout] at hcount
    cases hcount

/-- No lost thread. In a run after `Init` in which every `Yield` is made by the idle thread, the
bootstrap thread or a thread in state `Running`, every created thread that has not exited is the
current thread or queued exactly once, in every state reached. At the end of such a run the
condition is exact: the next `Yield` loses no thread if and only if it meets it. -/
theorem no_lost_thread {boot s : SchedState} {idle : ThreadPtr} {ops : List SchedOp} {run : Run}
    (hqueue : boot.runQueue = {}) (hinit : boot.init = some s)
    (hidle : s.idleThread = some idle) (hrun : Steps KeepingStep { sched := s } ops run) :
    NoLost run ∧ ∀ run', SchedStep run .yield run' → (NoLost run' ↔ YieldsRunning run) := by
  obtain ⟨bootstrap, hsafe₀, halive₀⟩ := Safe.init hinit hqueue hidle
  have hstart : Kept { sched := s } [] bootstrap idle bootstrap :=
    ⟨hsafe₀, halive₀, fun t ht => absurd ht List.not_mem_nil,
      fun t ht => absurd ht List.not_mem_nil⟩
  obtain ⟨contents, c, hkept⟩ := hstart.steps hrun
  refine ⟨hkept.noLost, fun run' hstep => ⟨hkept.yieldsRunning hstep, fun hcondition => ?_⟩⟩
  obtain ⟨contents', c', hkept'⟩ := hkept.step ⟨hstep, fun _ => hcondition⟩
  exact hkept'.noLost

/-- The creation of the one worker of the runs below. -/
def createWorker : SchedOp := .createAndEnqueue "worker" (.function 0x202000) 0 0

/-- The worker of the small machine yields while it is running, and is not lost. -/
theorem no_lost_thread_first_yield : ∃ s run run', smallMachine.init = some s ∧
    s.idleThread = some 8192 ∧ Steps KeepingStep { sched := s } [createWorker, .yield] run ∧
    YieldsRunning run ∧ SchedStep run .yield run' ∧ NoLost run' := by
  have hidle := smallMachine_idle
  have heval₁ : (smallRun [createWorker]).map (fun run =>
      (run.sched.currentThread, run.sched.bootstrapThread)) = some (some 4096, some 4096) := by
    decide +kernel
  have heval : (smallRun [createWorker, .yield]).map (fun run =>
      (run.sched.currentThread, (run.sched.threads 28672).state)) =
      some (some 28672, .running) := by decide +kernel
  obtain ⟨run, hrun, hvalues⟩ := Option.map_eq_some_iff.mp heval
  obtain ⟨run₁, hrun₁, hvalues₁⟩ := Option.map_eq_some_iff.mp heval₁
  simp only [Prod.mk.injEq] at hvalues hvalues₁
  obtain ⟨s, hinit, hsteps₁⟩ := smallRun_steps hrun₁
  rw [hinit, Option.bind_some] at hidle
  have hyield : SchedStep run₁ .yield run := by
    have hsnoc := smallRun_snoc [createWorker] .yield
    rw [hrun₁, Option.bind_some] at hsnoc
    exact hsnoc.symm.trans hrun
  have hcreate : Steps KeepingStep { sched := s } [createWorker] run₁ := by
    cases hsteps₁ with
    | cons hstep hrest =>
        cases hrest
        exact .cons ⟨hstep, fun heq => by cases heq⟩ (.refl _)
  have hrunning₁ : YieldsRunning run₁ := fun c hc =>
    .inr (.inl (by rw [hvalues₁.2, ← hvalues₁.1, hc]))
  have hrunning : YieldsRunning run := by
    intro c hc
    obtain rfl : 28672 = c := Option.some.inj (hvalues.1.symm.trans hc)
    exact .inr (.inr hvalues.2)
  have hkeeping := hcreate.snoc ⟨hyield, fun _ => hrunning₁⟩
  obtain ⟨_, hexact⟩ := no_lost_thread rfl hinit hidle hkeeping
  have hreturns : (smallRun ([createWorker, .yield] ++ [.yield])).isSome = true := by
    decide +kernel
  rw [smallRun_snoc, hrun, Option.bind_some] at hreturns
  obtain ⟨run', hstep⟩ := Option.isSome_iff_exists.mp hreturns
  exact ⟨s, run, run', hinit, hidle, hkeeping, hrunning, hstep, (hexact run' hstep).mpr hrunning⟩

/-- The worker of the small machine is the only thread besides the idle and the bootstrap thread.
Its first `Yield` picks it again and leaves it in state `Ready`, so its second `Yield` loses
it. -/
theorem yield_loses_only_worker : ∃ s run, smallMachine.init = some s ∧
    s.idleThread = some 8192 ∧
    Steps SchedStep { sched := s } [createWorker, .yield, .yield, .yield] run ∧
    ¬ NoLost run := by
  have hidle := smallMachine_idle
  have heval : (smallRun [createWorker, .yield, .yield, .yield]).map (fun run =>
      (run.sched.currentThread, run.sched.runQueue.head, run.created, run.exited)) =
      some (some 8192, none, [28672], []) := by decide +kernel
  obtain ⟨run, hrun, hvalues⟩ := Option.map_eq_some_iff.mp heval
  obtain ⟨s, hinit, hsteps⟩ := smallRun_steps hrun
  rw [hinit, Option.bind_some] at hidle
  simp only [Prod.mk.injEq] at hvalues
  obtain ⟨hcurrent, hhead, hcreated, hexited⟩ := hvalues
  refine ⟨s, run, hinit, hidle, hsteps, fun ⟨contents, hholds, hall⟩ => ?_⟩
  have hempty : contents = [] := by
    have hfirst : none = contents.head? := hhead.symm.trans hholds.head_eq
    exact List.head?_eq_none_iff.mp hfirst.symm
  rcases hall 28672 (by simp [hcreated]) (by simp [hexited]) with hcurr | hcount
  · rw [hcurrent] at hcurr
    cases hcurr
  · rw [hempty] at hcount
    cases hcount

end HailOS.Sched
