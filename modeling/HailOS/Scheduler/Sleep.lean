import HailOS.Scheduler.RoundRobin

/-!
# Sleeping threads

`SleepMs` computes the tick at which the thread may go on, and `SleepUntilTick` yields until the
tick count of the processor has reached it. A sleeping thread therefore stays in the run queue and
takes its turns. `sleep_not_early` bounds the time of a sleep from below, and `sleeper_returns`
from above, as long as another thread is ready at every `Yield`. `lone_sleeper_lost` is about the
only thread of a kernel: its second `Yield` leaves the processor to the idle thread for ever.
-/

namespace HailOS.Sched

open Lib

/-- The scheduler, `TickCount` of `PerCPU`, and the `targetTick` of the call of `SleepUntilTick`
that a thread is in. -/
structure SleepState where
  run : Run
  tickCount : BitVec 64 := 0
  target : ThreadPtr → Option (BitVec 64) := fun _ => none

/-- What can happen. A timer interrupt between the two parts of an iteration of `SleepUntilTick`
can be taken to follow the iteration, since the handler changes nothing that `Yield` reads. -/
inductive SleepOp where
  /-- The timer interrupt, which `OnTimer` handles. -/
  | onTimer
  /-- `SleepMs`, up to the loop of `SleepUntilTick`. -/
  | sleepMs (ms : BitVec 64)
  /-- An iteration of the loop. -/
  | iterate
  /-- The end of the loop, and the return. -/
  | wake
  /-- Another operation of the current thread. -/
  | sched (op : SchedOp)

namespace SleepState

/-- The current thread, if it is executing its own code. `IdleMain` only halts. -/
def awake (st : SleepState) : Option ThreadPtr := do
  let c ← st.run.sched.currentThread
  if st.run.sched.idleThread = some c then none
  else
    match st.target c with
    | none => some c
    | some _ => none

/-- The current thread and its target, if it is in the loop of `SleepUntilTick`. -/
def asleep (st : SleepState) : Option (ThreadPtr × BitVec 64) := do
  let c ← st.run.sched.currentThread
  let target ← st.target c
  pure (c, target)

/-- One event, with the scheduler executing its operations by `exec`. -/
def execWith (exec : Run → SchedOp → Option Run) (st : SleepState) :
    SleepOp → Option SleepState
  | .onTimer => do
      let run ← exec st.run .onTimerTick
      pure { st with run := run, tickCount := st.tickCount + 1 }
  | .sleepMs ms => do
      let c ← st.awake
      pure { st with target := Function.update st.target c (some (st.tickCount + ms)) }
  | .iterate => do
      let (_, target) ← st.asleep
      if st.tickCount < target then
        let run ← exec st.run .yield
        pure { st with run := run }
      else none
  | .wake => do
      let (c, target) ← st.asleep
      if st.tickCount < target then none
      else pure { st with target := Function.update st.target c none }
  | .sched op => do
      let _ ← st.awake
      let run ← exec st.run op
      pure { st with run := run }

/-- Events one after the other. -/
def execAll (exec : Run → SchedOp → Option Run) (st : SleepState) (ops : List SleepOp) :
    Option SleepState :=
  ops.foldlM (execWith exec) st

end SleepState

/-- The scheduler operation of an event. -/
def SleepOp.schedOp : SleepOp → Option SchedOp
  | .onTimer => some .onTimerTick
  | .iterate => some .yield
  | .sched op => some op
  | .sleepMs _ | .wake => none

/-- The event is a timer interrupt. -/
def SleepOp.isTimer : SleepOp → Bool
  | .onTimer => true
  | _ => false

/-- The event gives the processor to another thread. -/
def SleepOp.handsOver (op : SleepOp) : Bool := op.schedOp.any SchedOp.handsOver

/-- The transitions of a kernel with sleeping threads. -/
def SleepStep (exec : Run → SchedOp → Option Run) (st : SleepState) (op : SleepOp)
    (st' : SleepState) : Prop := st.execWith exec op = some st'

variable {exec : Run → SchedOp → Option Run} {st st' st'' : SleepState} {op : SleepOp}
  {ops : List SleepOp} {contents : List ThreadPtr} {c t idle bootstrap : ThreadPtr}
  {target : BitVec 64} {k : ℕ}

theorem SleepState.awake_eq_some (h : st.awake = some c) :
    st.run.sched.currentThread = some c ∧ st.run.sched.idleThread ≠ some c ∧
      st.target c = none := by
  obtain ⟨c', hcurrent, h⟩ := Option.bind_eq_some_iff.mp h
  split at h
  · cases h
  · next hidle =>
      split at h
      · next htarget =>
          cases h
          exact ⟨hcurrent, hidle, htarget⟩
      · cases h

theorem SleepState.asleep_eq_some (h : st.asleep = some (c, target)) :
    st.run.sched.currentThread = some c ∧ st.target c = some target := by
  obtain ⟨c', hcurrent, h⟩ := Option.bind_eq_some_iff.mp h
  obtain ⟨target', htarget, h⟩ := Option.bind_eq_some_iff.mp h
  cases h
  exact ⟨hcurrent, htarget⟩

/-- Everything that an event can do. -/
theorem sleepStep_cases (h : SleepStep exec st op st') :
    (∃ run, op = .onTimer ∧ exec st.run .onTimerTick = some run ∧
      st' = { st with run := run, tickCount := st.tickCount + 1 }) ∨
    (∃ ms c, op = .sleepMs ms ∧ st.awake = some c ∧
      st' = { st with target := Function.update st.target c (some (st.tickCount + ms)) }) ∨
    (∃ c target run, op = .iterate ∧ st.asleep = some (c, target) ∧ st.tickCount < target ∧
      exec st.run .yield = some run ∧ st' = { st with run := run }) ∨
    (∃ c target, op = .wake ∧ st.asleep = some (c, target) ∧ ¬ st.tickCount < target ∧
      st' = { st with target := Function.update st.target c none }) ∨
    (∃ c schedOp run, op = .sched schedOp ∧ st.awake = some c ∧
      exec st.run schedOp = some run ∧ st' = { st with run := run }) := by
  cases op with
  | onTimer =>
      obtain ⟨run, hrun, h⟩ := Option.bind_eq_some_iff.mp h
      exact .inl ⟨run, rfl, hrun, (Option.some.inj h).symm⟩
  | sleepMs ms =>
      obtain ⟨c, hawake, h⟩ := Option.bind_eq_some_iff.mp h
      exact .inr (.inl ⟨ms, c, rfl, hawake, (Option.some.inj h).symm⟩)
  | iterate =>
      obtain ⟨⟨c, target⟩, hasleep, h⟩ := Option.bind_eq_some_iff.mp h
      dsimp only at h
      split at h
      · next hlt =>
          obtain ⟨run, hrun, h⟩ := Option.bind_eq_some_iff.mp h
          exact .inr (.inr (.inl ⟨c, target, run, rfl, hasleep, hlt, hrun,
            (Option.some.inj h).symm⟩))
      · cases h
  | wake =>
      obtain ⟨⟨c, target⟩, hasleep, h⟩ := Option.bind_eq_some_iff.mp h
      dsimp only at h
      split at h
      · cases h
      · next hlt =>
          exact .inr (.inr (.inr (.inl ⟨c, target, rfl, hasleep, hlt, (Option.some.inj h).symm⟩)))
  | sched op =>
      obtain ⟨c, hawake, h⟩ := Option.bind_eq_some_iff.mp h
      obtain ⟨run, hrun, h⟩ := Option.bind_eq_some_iff.mp h
      exact .inr (.inr (.inr (.inr ⟨c, op, run, rfl, hawake, hrun, (Option.some.inj h).symm⟩)))

/-! ## What one event does -/

namespace SleepStep

/-- The scheduler performs the operation of the event, or none. -/
theorem run_eq (h : SleepStep exec st op st') :
    (op.schedOp = none ∧ st'.run = st.run) ∨
      ∃ schedOp, op.schedOp = some schedOp ∧ exec st.run schedOp = some st'.run := by
  obtain ⟨run, rfl, hrun, rfl⟩ | ⟨ms, c, rfl, -, rfl⟩ | ⟨c, target, run, rfl, -, -, hrun, rfl⟩ |
    ⟨c, target, rfl, -, -, rfl⟩ | ⟨c, schedOp, run, rfl, -, hrun, rfl⟩ := sleepStep_cases h
  · exact .inr ⟨_, rfl, hrun⟩
  · exact .inl ⟨rfl, rfl⟩
  · exact .inr ⟨_, rfl, hrun⟩
  · exact .inl ⟨rfl, rfl⟩
  · exact .inr ⟨_, rfl, hrun⟩

/-- Only timer interrupts count. -/
theorem tickCount_eq (h : SleepStep exec st op st') :
    st'.tickCount = if op.isTimer then st.tickCount + 1 else st.tickCount := by
  obtain ⟨run, rfl, -, rfl⟩ | ⟨ms, c, rfl, -, rfl⟩ | ⟨c, target, run, rfl, -, -, -, rfl⟩ |
    ⟨c, target, rfl, -, -, rfl⟩ | ⟨c, schedOp, run, rfl, -, -, rfl⟩ := sleepStep_cases h <;> rfl

theorem toNat_tickCount (h : SleepStep exec st op st')
    (hwrap : st.tickCount.toNat + (if op.isTimer then 1 else 0) < 2 ^ 64) :
    st'.tickCount.toNat = st.tickCount.toNat + if op.isTimer then 1 else 0 := by
  rw [h.tickCount_eq]
  split
  · next htimer =>
      rw [if_pos htimer] at hwrap
      exact (BitVec.toNat_add ..).trans (Nat.mod_eq_of_lt hwrap)
  · rfl

/-- Only the current thread starts or ends a sleep. -/
theorem target_of_ne (h : SleepStep exec st op st') (ht : st.run.sched.currentThread ≠ some t) :
    st'.target t = st.target t := by
  have hne : ∀ c, st.run.sched.currentThread = some c → t ≠ c := by
    rintro c hc rfl
    exact ht hc
  obtain ⟨run, rfl, -, rfl⟩ | ⟨ms, c, rfl, hawake, rfl⟩ | ⟨c, target, run, rfl, -, -, -, rfl⟩ |
    ⟨c, target, rfl, hasleep, -, rfl⟩ | ⟨c, schedOp, run, rfl, -, -, rfl⟩ := sleepStep_cases h
  · rfl
  · exact Function.update_of_ne (hne c (SleepState.awake_eq_some hawake).1) ..
  · rfl
  · exact Function.update_of_ne (hne c (SleepState.asleep_eq_some hasleep).1) ..
  · rfl

/-- A sleep goes on unless it is over and the thread leaves the loop. -/
theorem target_of_asleep (h : SleepStep exec st op st') (ht : st.target t = some target)
    (hkept : op = .wake → st.tickCount < target) : st'.target t = some target := by
  obtain ⟨run, rfl, -, rfl⟩ | ⟨ms, c, rfl, hawake, rfl⟩ | ⟨c, target', run, rfl, -, -, -, rfl⟩ |
    ⟨c, target', rfl, hasleep, hover, rfl⟩ | ⟨c, schedOp, run, rfl, -, -, rfl⟩ :=
    sleepStep_cases h
  · exact ht
  · obtain ⟨-, -, hc⟩ := SleepState.awake_eq_some hawake
    have hne : t ≠ c := by
      rintro rfl
      rw [ht] at hc
      cases hc
    exact (Function.update_of_ne hne ..).trans ht
  · exact ht
  · obtain ⟨-, hc⟩ := SleepState.asleep_eq_some hasleep
    have hne : t ≠ c := by
      rintro rfl
      rw [ht, Option.some.injEq] at hc
      exact hover (hc ▸ hkept rfl)
    exact (Function.update_of_ne hne ..).trans ht
  · exact ht

end SleepStep

/-- A run of events is a run of the scheduler. -/
theorem sleepSteps_run (hrun : Steps (SleepStep exec) st ops st') :
    Steps (fun run op run' => exec run op = some run') st.run (ops.filterMap SleepOp.schedOp)
      st'.run := by
  induction hrun with
  | refl => exact .refl _
  | cons hstep _ ih =>
      obtain ⟨hnone, hrun⟩ | ⟨schedOp, hsome, hrun⟩ := hstep.run_eq
      · rw [List.filterMap_cons_none hnone, ← hrun]
        exact ih
      · rw [List.filterMap_cons_some hsome]
        exact .cons hrun ih

/-- Executing events is a run. -/
theorem sleepSteps_of_execAll (h : st.execAll exec ops = some st') :
    Steps (SleepStep exec) st ops st' :=
  Steps.of_foldlM h

/-! ## A sleep is not too short -/

/-- The sleep goes on until the tick count has reached the target. -/
theorem asleep_until (hrun : Steps (SleepStep exec) st ops st') (ht : st.target t = some target)
    (hearly : st.tickCount.toNat + ops.countP SleepOp.isTimer < target.toNat) :
    st'.target t = some target := by
  induction hrun with
  | refl => exact ht
  | @cons st middle finish op ops hstep _ ih =>
      have hnow : st.tickCount < target := BitVec.lt_def.mpr (by omega)
      refine ih (hstep.target_of_asleep ht fun _ => hnow) ?_
      have hbound := target.isLt
      rw [List.countP_cons] at hearly
      rw [hstep.toNat_tickCount (by split <;> omega)]
      omega

/-- A sleep is not too short. If a thread that called `SleepMs(ms)` is not sleeping any more, then
at least `ms` timer interrupts came meanwhile. The sum of the tick count and `ms` must not
wrap. -/
theorem sleep_not_early {ms : BitVec 64} (hcurrent : st.run.sched.currentThread = some t)
    (hsleep : SleepStep exec st (.sleepMs ms) st')
    (hwrap : st.tickCount.toNat + ms.toNat < 2 ^ 64)
    (hrun : Steps (SleepStep exec) st' ops st'') (hwoken : st''.target t = none) :
    ms.toNat ≤ ops.countP SleepOp.isTimer := by
  obtain ⟨c, hawake, h⟩ := Option.bind_eq_some_iff.mp hsleep
  obtain rfl := Option.some.inj h
  obtain ⟨hc, -, -⟩ := SleepState.awake_eq_some hawake
  obtain rfl : t = c := Option.some.inj (hcurrent.symm.trans hc)
  by_contra hshort
  have hearly : st.tickCount.toNat + ops.countP SleepOp.isTimer < (st.tickCount + ms).toNat := by
    rw [BitVec.toNat_add, Nat.mod_eq_of_lt hwrap]
    omega
  have hasleep := asleep_until hrun (Function.update_self t (some (st.tickCount + ms)) st.target)
    hearly
  rw [hwoken] at hasleep
  cases hasleep

/-- The first worker sleeps for one tick. The second worker yields to it when it is over. -/
theorem sleep_not_early_workers : ∃ st st' st'' : SleepState,
    st.run.sched.currentThread = some 28672 ∧ SleepStep Run.execShared st (.sleepMs 1) st' ∧
    Steps (SleepStep Run.execShared) st' [.iterate, .onTimer, .sched .yield, .wake] st'' ∧
    st''.target 28672 = none ∧
    (1 : BitVec 64).toNat ≤
      [SleepOp.iterate, .onTimer, .sched .yield, .wake].countP SleepOp.isTimer := by
  have heval : (workersRun []).bind (fun run =>
      (SleepState.execWith Run.execShared { run := run } (.sleepMs 1)).bind fun st' =>
      (st'.execAll Run.execShared [.iterate, .onTimer, .sched .yield, .wake]).map fun st'' =>
        (run.sched.currentThread, st''.target 28672)) = some (some 28672, none) := by
    decide +kernel
  obtain ⟨run, -, heval⟩ := Option.bind_eq_some_iff.mp heval
  obtain ⟨st', hstep, heval⟩ := Option.bind_eq_some_iff.mp heval
  obtain ⟨st'', hops, hvalues⟩ := Option.map_eq_some_iff.mp heval
  obtain ⟨hcurrent, hwoken⟩ := Prod.mk.inj hvalues
  have hsteps := sleepSteps_of_execAll hops
  have hwrap : (0 : BitVec 64).toNat + (1 : BitVec 64).toNat < 2 ^ 64 := by decide
  exact ⟨{ run := run }, st', st'', hcurrent, hstep, hsteps, hwoken,
    sleep_not_early hcurrent hstep hwrap hsteps hwoken⟩

/-! ## A sleep is not too long -/

/-- A ready thread keeps its place or moves up, and its sleep goes on. -/
theorem InTurn.waits (h : InTurn st.run c contents idle bootstrap)
    (hstep : SleepStep Run.execShared st op st') (ht : contents[k]? = some t)
    (hop : op.handsOver = true → k ≠ 0) :
    ∃ c' contents', InTurn st'.run c' contents' idle bootstrap ∧
      contents'[k - if op.handsOver then 1 else 0]? = some t ∧ st'.target t = st.target t := by
  have htarget : st'.target t = st.target t := by
    refine hstep.target_of_ne fun hcurrent => ?_
    obtain rfl : c = t := Option.some.inj (h.safe.currentThread.symm.trans hcurrent)
    exact h.safe.current_not_queued (List.mem_of_getElem? ht)
  obtain ⟨hnone, hrun⟩ | ⟨schedOp, hsome, hrun⟩ := hstep.run_eq
  · refine ⟨c, contents, hrun ▸ h, ?_, htarget⟩
    rwa [SleepOp.handsOver, hnone, Option.any_none, if_neg Bool.false_ne_true]
  · have hover : op.handsOver = schedOp.handsOver := by
      rw [SleepOp.handsOver, hsome, Option.any_some]
    obtain ⟨turn, c', contents', hturn, hring, -, h'⟩ := h.step hrun
    refine ⟨c', contents', h', ?_, htarget⟩
    have hplace : (c :: contents)[k + 1]? = some t := ht
    rw [hover, ← hturn.handsOver_eq] at hop ⊢
    cases hturnOver : turn.handsOver with
    | true =>
        obtain ⟨k, rfl⟩ := Nat.exists_eq_succ_of_ne_zero (hop hturnOver)
        have hmoved := getElem?_handsOver hturnOver hplace
        rwa [hring] at hmoved
    | false =>
        have hkept := getElem?_keeps hturnOver hplace
        rwa [hring] at hkept

/-- So it does in a run that does not hand over to it. -/
theorem InTurn.waits_steps (h : InTurn st.run c contents idle bootstrap)
    (hrun : Steps (SleepStep Run.execShared) st ops st') (ht : contents[k]? = some t)
    (hcount : ops.countP SleepOp.handsOver ≤ k) :
    ∃ c' contents', InTurn st'.run c' contents' idle bootstrap ∧
      contents'[k - ops.countP SleepOp.handsOver]? = some t ∧ st'.target t = st.target t := by
  induction hrun generalizing c contents k with
  | refl => exact ⟨c, contents, h, ht, rfl⟩
  | @cons st middle finish op ops hstep _ ih =>
      rw [List.countP_cons] at hcount ⊢
      obtain ⟨c₁, contents₁, h₁, ht₁, htarget₁⟩ := h.waits hstep ht fun hop => by
        rw [if_pos hop] at hcount
        omega
      obtain ⟨c₂, contents₂, h₂, ht₂, htarget₂⟩ := ih h₁ ht₁ (by omega)
      refine ⟨c₂, contents₂, h₂, ?_, htarget₂.trans htarget₁⟩
      rwa [Nat.sub_sub, Nat.add_comm] at ht₂

/-- The hand-over to the first ready thread. -/
theorem InTurn.handOver (h : InTurn st.run c (t :: contents) idle bootstrap)
    (hstep : SleepStep Run.execShared st op st') (hop : op.handsOver = true) :
    st'.run.sched.currentThread = some t := by
  obtain ⟨hnone, -⟩ | ⟨schedOp, hsome, hrun⟩ := hstep.run_eq
  · rw [SleepOp.handsOver, hnone] at hop
    cases hop
  · rw [SleepOp.handsOver, hsome, Option.any_some] at hop
    obtain ⟨turn, c', contents', hturn, hring, -, h'⟩ := h.step hrun
    have hfirst := getElem?_handsOver (hturn.handsOver_eq.trans hop)
      (show (c :: t :: contents)[0 + 1]? = some t from rfl)
    rw [hring] at hfirst
    rw [h'.safe.currentThread]
    exact hfirst

/-- Timer interrupts are counted, as long as the count does not wrap. -/
theorem toNat_tickCount_steps (hrun : Steps (SleepStep exec) st ops st')
    (hwrap : st.tickCount.toNat + ops.countP SleepOp.isTimer < 2 ^ 64) :
    st'.tickCount.toNat = st.tickCount.toNat + ops.countP SleepOp.isTimer := by
  induction hrun with
  | refl => rfl
  | @cons st middle finish op ops hstep _ ih =>
      rw [List.countP_cons] at hwrap ⊢
      have htick := hstep.toNat_tickCount (by omega)
      rw [ih (by omega), htick]
      omega

/-- A sleep is not too long. Let the tick count have reached the target of a sleeping thread, and
let `k` threads be before it in the run queue. After `k` hand-overs and one more, it is the
current thread, and it leaves the loop of `SleepUntilTick`. The tick count must not wrap
meanwhile. -/
theorem sleeper_returns {created : List ThreadPtr} {run : Run} {tickCount : BitVec 64}
    {reach : List SleepOp} (hstart : Started created run)
    (hreach : Steps (SleepStep Run.execShared) { run := run, tickCount := tickCount } reach st)
    (hholds : st.run.sched.runQueue.Holds st.run.sched.threads contents)
    (ht : contents[k]? = some t) (htarget : st.target t = some target)
    (hdue : target ≤ st.tickCount) (hrun : Steps (SleepStep Run.execShared) st ops st')
    (hcount : ops.countP SleepOp.handsOver = k) (hlast : SleepStep Run.execShared st' op st'')
    (hop : op.handsOver = true)
    (hwrap : st.tickCount.toNat + (ops ++ [op]).countP SleepOp.isTimer < 2 ^ 64) :
    st''.run.sched.currentThread = some t ∧ (∀ st₃, ¬ SleepStep Run.execShared st'' .iterate st₃) ∧
      ∃ st₃, SleepStep Run.execShared st'' .wake st₃ ∧ st₃.target t = none := by
  obtain ⟨_, _, idle, bootstrap, _, _, hturn₀⟩ := hstart.inTurn
  obtain ⟨_, c, queued, _, _, _, hturn⟩ := hturn₀.steps (sleepSteps_run hreach)
  obtain rfl : queued = contents := hturn.safe.holds.unique hholds
  obtain ⟨c', contents', hturn', hfirst, htarget'⟩ := hturn.waits_steps hrun ht hcount.le
  rw [hcount, Nat.sub_self] at hfirst
  obtain ⟨rest, rfl⟩ : ∃ rest, contents' = t :: rest := by
    cases contents' with
    | nil => cases hfirst
    | cons first rest => exact ⟨rest, by rw [Option.some.inj hfirst]⟩
  have hcurrent := hturn'.handOver hlast hop
  have hne : st'.run.sched.currentThread ≠ some t := by
    rw [hturn'.safe.currentThread]
    rintro heq
    exact hturn'.safe.current_not_queued (Option.some.inj heq ▸ List.mem_cons_self ..)
  have hasleep : st''.target t = some target :=
    (hlast.target_of_ne hne).trans (htarget'.trans htarget)
  -- the target is still reached after the run
  have hticks := toNat_tickCount_steps (hrun.snoc hlast) hwrap
  have hover : ¬ st''.tickCount < target := by
    rw [BitVec.lt_def, hticks]
    have := BitVec.le_def.mp hdue
    omega
  have hloop : st''.asleep = some (t, target) := by
    simp [SleepState.asleep, hcurrent, hasleep]
  refine ⟨hcurrent, fun st₃ hiterate => ?_,
    { st'' with target := Function.update st''.target t none }, ?_, Function.update_self ..⟩
  · simp [SleepStep, SleepState.execWith, hloop, hover] at hiterate
  · simp [SleepStep, SleepState.execWith, hloop, hover]

/-- The first worker sleeps for one tick, and returns after the `Yield` of the second one. -/
theorem sleeper_returns_workers : ∃ (run : Run) (st st' : SleepState),
    Started [28672, 49152] run ∧
    Steps (SleepStep Run.execShared) { run := run } [.sleepMs 1, .iterate, .onTimer] st ∧
    st.run.sched.runQueue.Holds st.run.sched.threads [28672] ∧ st.target 28672 = some 1 ∧
    SleepStep Run.execShared st (.sched .yield) st' ∧
    ∃ st'', SleepStep Run.execShared st' .wake st'' ∧ st''.target 28672 = none := by
  have heval : (workersRun []).bind (fun run =>
      (SleepState.execAll Run.execShared { run := run } [.sleepMs 1, .iterate, .onTimer]).bind
        fun st => (st.execWith Run.execShared (.sched .yield)).map fun _ =>
          (st.target 28672, st.tickCount)) = some (some 1, 1) := by
    decide +kernel
  obtain ⟨run, hworkers, heval⟩ := Option.bind_eq_some_iff.mp heval
  obtain ⟨st, hreach, heval⟩ := Option.bind_eq_some_iff.mp heval
  obtain ⟨st', hstep, hvalues⟩ := Option.map_eq_some_iff.mp heval
  obtain ⟨htarget, htick⟩ := Prod.mk.inj hvalues
  obtain ⟨run₀, hstarted, hnil⟩ := workersRun_started hworkers
  obtain rfl : run₀ = run := by
    cases hnil
    rfl
  have hreach := sleepSteps_of_execAll hreach
  -- the ring after the `Yield` of the first worker
  obtain ⟨c, contents, idle, bootstrap, hring, _, hturn₀⟩ := hstarted.inTurn
  obtain ⟨rfl, rfl⟩ := List.cons.inj hring
  obtain ⟨turnOps, c, contents, hturns, hrings, _, hturn⟩ := hturn₀.steps (sleepSteps_run hreach)
  have hholds : st.run.sched.runQueue.Holds st.run.sched.threads [28672] := by
    cases hturns with
    | cons hyield hrest =>
        cases hrest with
        | cons htimer hnil =>
            cases hyield
            cases htimer
            cases hnil
            have hcontents : [28672] = contents := (List.cons.inj hrings).2
            rw [hcontents]
            exact hturn.safe.holds
  have hdue : 1 ≤ st.tickCount := by
    rw [htick]
    exact BitVec.le_refl _
  obtain ⟨-, -, hwake⟩ := sleeper_returns hstarted hreach hholds (k := 0) rfl htarget
    hdue (.refl st) rfl hstep rfl (by rw [htick]; decide)
  exact ⟨run₀, st, st', hstarted, hreach, hholds, htarget, hstep, hwake⟩

/-! ## A thread that sleeps alone -/

/-- The scheduler after `n` iterations of the loop of the only thread. The first one leaves the
thread in state `Ready`, the second one leaves the processor to the idle thread. -/
def LonePhase (run : Run) (t idle bootstrap : ThreadPtr) : ℕ → Prop
  | 0 => Safe run.sched run.created [] t idle bootstrap ∧ (run.sched.threads t).state = .running
  | 1 => Safe run.sched run.created [] t idle bootstrap ∧ (run.sched.threads t).state = .ready
  | _ + 2 => Safe run.sched run.created [] idle idle bootstrap

/-- The only thread is sleeping, and has iterated its loop `n` times. -/
structure Alone (st : SleepState) (t idle bootstrap : ThreadPtr) (target : BitVec 64) (n : ℕ) :
    Prop where
  created : t ∈ st.run.created
  asleep : st.target t = some target
  idle_awake : st.target idle = none
  phase : LonePhase st.run t idle bootstrap n

variable {run : Run} {n : ℕ}

/-- The current thread is the sleeping thread before the second iteration, and the idle thread
afterwards. -/
theorem LonePhase.current (h : LonePhase run t idle bootstrap n) :
    run.sched.currentThread = some (if n < 2 then t else idle) ∧
      run.sched.idleThread = some idle := by
  match n, h with
  | 0, ⟨hsafe, _⟩ => exact ⟨hsafe.currentThread, hsafe.idleThread⟩
  | 1, ⟨hsafe, _⟩ => exact ⟨hsafe.currentThread, hsafe.idleThread⟩
  | n + 2, hsafe =>
      rw [if_neg (by omega)]
      exact ⟨hsafe.currentThread, hsafe.idleThread⟩

/-- A timer interrupt changes nothing. -/
theorem LonePhase.onTimerTick (h : LonePhase run t idle bootstrap n) :
    LonePhase { run with sched := run.sched.onTimerTick } t idle bootstrap n := by
  match n, h with
  | 0, ⟨hsafe, hstate⟩ => exact ⟨hsafe.unrelated run.sched.machine true, hstate⟩
  | 1, ⟨hsafe, hstate⟩ => exact ⟨hsafe.unrelated run.sched.machine true, hstate⟩
  | n + 2, hsafe => exact Safe.unrelated hsafe run.sched.machine true

/-- `Yield` by the only thread. -/
theorem LonePhase.yield {sched : SchedState} (h : LonePhase run t idle bootstrap n) (hn : n < 2)
    (ht : t ∈ run.created) (hyield : run.sched.yield = some sched) :
    LonePhase { run with sched := sched } t idle bootstrap (n + 1) := by
  match n, h with
  | 0, ⟨hsafe, hstate⟩ =>
      have hturn : InTurn run t [] idle bootstrap := ⟨hsafe, ht, hstate⟩
      have hqueue : run.sched.queuedAtYield t [] = [t] := if_pos hturn.requeues
      have hspec := hsafe.yielded hyield
      have hsafe' := (hsafe.yield hyield).1
      rw [hqueue] at hspec hsafe'
      refine ⟨hsafe', ?_⟩
      -- `SwitchTo` returns early
      show (sched.threads t).state = .ready
      rw [hspec.state, if_neg fun hboth => hboth.1 rfl, if_pos ⟨hturn.requeues, rfl⟩]
  | 1, ⟨hsafe, hstate⟩ =>
      have hqueue : run.sched.queuedAtYield t [] = [] := by
        refine if_neg fun hrequeues : run.sched.Requeues t => ?_
        have hrunning := hrequeues.2.2
        rw [hstate] at hrunning
        cases hrunning
      have hsafe' := (hsafe.yield hyield).1
      rw [hqueue] at hsafe'
      exact hsafe'

/-- What can happen while the only thread is sleeping. -/
theorem Alone.step (h : Alone st t idle bootstrap target n) (hstep : SleepStep Run.exec st op st')
    (hop : n < 2 → op ≠ .wake) :
    Alone st' t idle bootstrap target (n + if op.handsOver then 1 else 0) := by
  obtain ⟨hcurrent, hidle⟩ := h.phase.current
  -- the current thread does not execute its own code
  have hawake : st.awake = none := by
    by_cases hn : n < 2
    · simp [SleepState.awake, hcurrent, hn, h.asleep]
    · simp [SleepState.awake, hcurrent, hn, hidle]
  have hasleep : ∀ c target, st.asleep = some (c, target) → n < 2 := by
    intro c target hsome
    by_contra hn
    obtain ⟨hc, htarget⟩ := SleepState.asleep_eq_some hsome
    rw [hcurrent, if_neg hn, Option.some.injEq] at hc
    rw [← hc, h.idle_awake] at htarget
    cases htarget
  obtain ⟨run, rfl, hrun, rfl⟩ | ⟨ms, c, rfl, hsome, -⟩ |
    ⟨c, target', run, rfl, hsome, -, hrun, rfl⟩ | ⟨c, target', rfl, hsome, -, -⟩ |
    ⟨c, schedOp, run, rfl, hsome, -, -⟩ := sleepStep_cases hstep
  · cases hrun
    exact ⟨h.created, h.asleep, h.idle_awake, h.phase.onTimerTick⟩
  · rw [hawake] at hsome
    cases hsome
  · obtain ⟨sched, hyield, rfl⟩ := step_yield hrun
    exact ⟨h.created, h.asleep, h.idle_awake,
      h.phase.yield (hasleep c target' hsome) h.created hyield⟩
  · exact absurd rfl (hop (hasleep c target' hsome))
  · rw [hawake] at hsome
    cases hsome

theorem Alone.steps (h : Alone st t idle bootstrap target n)
    (hrun : Steps (SleepStep Run.exec) st ops st') (hops : n < 2 → ∀ op ∈ ops, op ≠ .wake) :
    Alone st' t idle bootstrap target (n + ops.countP SleepOp.handsOver) := by
  induction hrun generalizing n with
  | refl => exact h
  | cons hstep _ ih =>
      have h₁ := h.step hstep fun hn => hops hn _ (List.mem_cons_self ..)
      have h₂ := ih h₁ fun hn op hop => hops (by omega) op (List.mem_cons_of_mem _ hop)
      rw [List.countP_cons, Nat.add_comm (List.countP ..), ← Nat.add_assoc]
      exact h₂

/-- The idle thread does not sleep. -/
theorem idle_awake_steps (hgood : st.run.Good idle bootstrap)
    (hrun : Steps (SleepStep Run.exec) st ops st') (hidle : st.target idle = none) :
    st'.target idle = none := by
  induction hrun with
  | refl => exact hidle
  | cons hstep hrest ih =>
      have hgood' := hgood.steps (sleepSteps_run (.cons hstep (.refl _)))
      refine ih hgood' ?_
      obtain ⟨_, _, hsafe, _⟩ := hgood
      obtain ⟨run, rfl, -, rfl⟩ | ⟨ms, c, rfl, hsome, rfl⟩ | ⟨c, target, run, rfl, -, -, -, rfl⟩ |
        ⟨c, target, rfl, hsome, -, rfl⟩ | ⟨c, schedOp, run, rfl, -, -, rfl⟩ := sleepStep_cases hstep
      · exact hidle
      · have hne := (SleepState.awake_eq_some hsome).2.1
        rw [hsafe.idleThread] at hne
        exact (Function.update_of_ne (fun heq => hne (congrArg some heq)) ..).trans hidle
      · exact hidle
      · by_cases hc : idle = c
        · exact hc ▸ Function.update_self ..
        · exact (Function.update_of_ne hc ..).trans hidle
      · exact hidle

/-- The only thread of a kernel does not return from a sleep. If no other thread is ready while a
thread is in the loop of `SleepUntilTick`, and the tick count has not reached the target at two
iterations, then the idle thread runs for ever. -/
theorem lone_sleeper_lost {boot s : SchedState} {reach : List SleepOp} {st₁ : SleepState}
    (hqueue : boot.runQueue = {}) (hinit : boot.init = some s) (hidle : s.idleThread = some idle)
    (hreach : Steps (SleepStep Run.exec) { run := { sched := s } } reach st)
    (hholds : st.run.sched.runQueue.Holds st.run.sched.threads [])
    (hcurrent : st.run.sched.currentThread = some t) (ht : t ∈ st.run.created)
    (hstate : (st.run.sched.threads t).state = .running) (htarget : st.target t = some target)
    (hrun : Steps (SleepStep Run.exec) st ops st₁) (hops : ∀ op ∈ ops, op ≠ .wake)
    (htwice : 2 ≤ ops.countP SleepOp.handsOver) {ops' : List SleepOp}
    (hafter : Steps (SleepStep Run.exec) st₁ ops' st') :
    st'.run.sched.currentThread = some idle ∧ st'.target t = some target := by
  obtain ⟨bootstrap, hsafe₀, halive₀⟩ := Safe.init hinit hqueue hidle
  have hgood₀ : Run.Good idle bootstrap { sched := s } := ⟨[], bootstrap, hsafe₀, halive₀⟩
  obtain ⟨contents, c, hsafe, _⟩ := hgood₀.steps (sleepSteps_run hreach)
  obtain rfl : contents = [] := hsafe.holds.unique hholds
  obtain rfl : c = t := Option.some.inj (hsafe.currentThread.symm.trans hcurrent)
  have halone : Alone st c idle bootstrap target 0 :=
    ⟨ht, htarget, idle_awake_steps hgood₀ hreach rfl, hsafe, hstate⟩
  have h₁ := halone.steps hrun fun _ => hops
  have h₂ := h₁.steps hafter fun hn => absurd hn (by omega)
  obtain ⟨hnow, -⟩ := h₂.phase.current
  rw [if_neg (by omega)] at hnow
  exact ⟨hnow, h₂.asleep⟩

/-- The only worker of the small machine sleeps for one tick. The timer interrupt that would end
the sleep comes after its second iteration. -/
theorem lone_sleeper_lost_worker : ∃ (s : SchedState) (st st₁ st' : SleepState),
    smallMachine.init = some s ∧
    Steps (SleepStep Run.exec) { run := { sched := s } }
      [.sched (.createAndEnqueue "worker" (.function 0x202000) 0 0), .sched .yield,
        .sleepMs 1] st ∧
    Steps (SleepStep Run.exec) st [.iterate, .iterate] st₁ ∧
    Steps (SleepStep Run.exec) st₁ [.onTimer, .onTimer] st' ∧
    st'.run.sched.currentThread = some 8192 ∧ st'.target 28672 = some 1 ∧ st'.tickCount = 2 := by
  have hidle := smallMachine_idle
  have heval : smallMachine.init.bind (fun s =>
      (SleepState.execAll Run.exec { run := { sched := s } }
        [.sched (.createAndEnqueue "worker" (.function 0x202000) 0 0), .sched .yield,
          .sleepMs 1]).bind fun st =>
      (st.execAll Run.exec [.iterate, .iterate]).bind fun st₁ =>
      (st₁.execAll Run.exec [.onTimer, .onTimer]).map fun st' =>
        decide (st.run.sched.currentThread = some 28672 ∧ st.run.sched.runQueue.head = none ∧
          st.run.created = [28672] ∧ (st.run.sched.threads 28672).state = .running ∧
          st.target 28672 = some 1 ∧ st'.tickCount = 2)) = some true := by
    decide +kernel
  obtain ⟨s, hinit, heval⟩ := Option.bind_eq_some_iff.mp heval
  obtain ⟨st, hreach, heval⟩ := Option.bind_eq_some_iff.mp heval
  obtain ⟨st₁, hrun, heval⟩ := Option.bind_eq_some_iff.mp heval
  obtain ⟨st', hafter, hvalues⟩ := Option.map_eq_some_iff.mp heval
  obtain ⟨hcurrent, hhead, hcreated, hstate, htarget, htick⟩ := of_decide_eq_true hvalues
  rw [hinit, Option.bind_some] at hidle
  have hreach := sleepSteps_of_execAll hreach
  have hrun := sleepSteps_of_execAll hrun
  have hafter := sleepSteps_of_execAll hafter
  obtain ⟨bootstrap, hsafe₀, halive₀⟩ := Safe.init hinit rfl hidle
  have hgood₀ : Run.Good 8192 bootstrap { sched := s } := ⟨[], bootstrap, hsafe₀, halive₀⟩
  obtain ⟨contents, c, hsafe, _⟩ := hgood₀.steps (sleepSteps_run hreach)
  have hempty : contents = [] := by
    have hfirst : none = contents.head? := hhead.symm.trans hsafe.holds.head_eq
    exact List.head?_eq_none_iff.mp hfirst.symm
  have hlost := lone_sleeper_lost rfl hinit hidle hreach (hempty ▸ hsafe.holds) hcurrent
    (by simp [hcreated]) hstate htarget hrun (by simp) le_rfl hafter
  exact ⟨s, st, st₁, st', hinit, hreach, hrun, hafter, hlost.1, hlost.2, htick⟩

end HailOS.Sched
