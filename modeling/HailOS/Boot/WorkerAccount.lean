import Mathlib.Data.List.Count
import Mathlib.Logic.Function.Iterate
import Mathlib.Order.Lattice

/-!
# What the workers are to do

The two threads that `KernelMain.cpp` starts, over unbounded integers and without memory. Worker A
prints and sleeps for a second, again and again. Worker B prints every four seconds. An `Account`
has the time, what is printed and where the workers are. `timely_run` says how often they print at
most, whatever the interleaving. `counts_fair` says how often they print if both get their turns
after every tick, and how many consoles they have asked for by then.
-/

namespace HailOS.Boot

inductive Worker where
  | a
  | b
  deriving DecidableEq, Repr

/-- Where a worker is: before its first console, before it reads the clock, or in the loop that
waits for a tick, which is `targetTick` of `SleepUntilTick` in worker A and `next` in worker B. -/
inductive Point (Time : Type) where
  | start
  | started
  | waiting (tick : Time)
  deriving DecidableEq, Repr

/-- The point in another type of times. -/
def Point.map {Time Time' : Type} (f : Time → Time') : Point Time → Point Time'
  | .start => .start
  | .started => .started
  | .waiting tick => .waiting (f tick)

/-- What can happen: the timer interrupt, which `OnTimer` handles, or a step of a worker from one
point to the next. -/
inductive WorkerOp where
  | onTimer
  | run (worker : Worker)
  deriving DecidableEq, Repr

/-- The time between two messages of a worker, in ticks. -/
def Worker.period : Worker → ℕ
  | .a => 1000
  | .b => 4000

/-- The periods before the first message of a worker. -/
def Worker.lead : Worker → ℕ
  | .a => 0
  | .b => 1

theorem Worker.period_pos (worker : Worker) : 0 < worker.period := by cases worker <;> decide

/-- A step of a worker: where it is then, and whether it prints. -/
def Point.step (worker : Worker) (now : ℕ) : Point ℕ → Point ℕ × Bool
  | .start => (.started, decide (worker = .a))
  | .started => (.waiting (now + worker.period), false)
  | .waiting tick =>
      if now < tick then (.waiting tick, false)
      else (if worker = .a then .started else .waiting (tick + worker.period), true)

/-- The time in ticks, who has printed so far, and where the workers are. -/
structure Account where
  now : ℕ
  log : List Worker := []
  point : Worker → Point ℕ := fun _ => .start

namespace Account

/-- One event. -/
def exec (acc : Account) : WorkerOp → Account
  | .onTimer => { acc with now := acc.now + 1 }
  | .run worker =>
      let (point, prints) := (acc.point worker).step worker acc.now
      { acc with
        log := if prints then acc.log ++ [worker] else acc.log
        point := Function.update acc.point worker point }

/-- The number of consoles: worker A has one for each message, and worker B has one. -/
def consoles (acc : Account) : ℕ := acc.log.count .a + if acc.point .b = .start then 0 else 1

/-- A run. -/
def run (acc : Account) (ops : List WorkerOp) : Account := ops.foldl exec acc

/-- Where a worker is and how many messages it has printed. -/
def progress (acc : Account) (worker : Worker) : Point ℕ × ℕ :=
  (acc.point worker, acc.log.count worker)

/-- A step of a worker, with its messages counted. -/
def advance (worker : Worker) (now : ℕ) (x : Point ℕ × ℕ) : Point ℕ × ℕ :=
  ((x.1.step worker now).1, x.2 + (x.1.step worker now).2.toNat)

variable (acc : Account)

/-- A step of a worker is no progress of the other one. -/
theorem progress_run (worker other : Worker) :
    (acc.exec (.run other)).progress worker =
      if other = worker then advance worker acc.now (acc.progress worker)
      else acc.progress worker := by
  by_cases hsame : other = worker
  · subst hsame
    rw [if_pos rfl]
    cases hprints : ((acc.point other).step other acc.now).2 <;>
      simp [exec, progress, advance, hprints]
  · rw [if_neg hsame]
    have hpoint := Function.update_of_ne (Ne.symm hsame)
      ((acc.point other).step other acc.now).1 acc.point
    cases hprints : ((acc.point other).step other acc.now).2 <;>
      simp [exec, progress, hprints, hpoint, hsame]

theorem now_exec (op : WorkerOp) :
    (acc.exec op).now = acc.now + if op = .onTimer then 1 else 0 := by
  cases op with
  | onTimer => rfl
  | run worker => rfl

theorem now_run (ops : List WorkerOp) : (acc.run ops).now = acc.now + ops.count .onTimer := by
  induction ops generalizing acc with
  | nil => rfl
  | cons op ops ih =>
      have hrun := ih (acc.exec op)
      rw [now_exec] at hrun
      rw [run, List.foldl_cons, List.count_cons, ← run, hrun]
      simp only [beq_iff_eq]
      omega

/-- The consoles after an event are those before, and perhaps one more. -/
theorem consoles_exec (op : WorkerOp) : acc.consoles ≤ (acc.exec op).consoles := by
  cases op with
  | onTimer => exact Nat.le_refl _
  | run other =>
      have ha := congrArg Prod.snd (acc.progress_run .a other)
      have hb := congrArg Prod.fst (acc.progress_run .b other)
      simp only [progress, advance] at ha hb
      cases other with
      | a =>
          simp only [if_true, reduceCtorEq, if_false] at ha hb
          rw [consoles, consoles, ha, hb]
          omega
      | b =>
          simp only [if_true, reduceCtorEq, if_false] at ha hb
          have hleaves : ((acc.point .b).step .b acc.now).1 ≠ .start := by
            cases acc.point .b with
            | start => simp [Point.step]
            | started => simp [Point.step]
            | waiting tick =>
                simp only [Point.step]
                split <;> simp
          rw [consoles, consoles, ha, hb, if_neg hleaves]
          split <;> omega

/-- A worker reads the clock. -/
theorem exec_started {acc : Account} {worker : Worker} (h : acc.point worker = .started) :
    acc.exec (.run worker) = { acc with
      point := Function.update acc.point worker (.waiting (acc.now + worker.period)) } := by
  simp [exec, h, Point.step]

/-- A worker waits. -/
theorem exec_waiting {acc : Account} {worker : Worker} {tick : ℕ}
    (h : acc.point worker = .waiting tick) (hnow : acc.now < tick) :
    acc.exec (.run worker) = acc := by
  have hsame : Function.update acc.point worker (.waiting tick) = acc.point := by
    rw [Function.update_eq_self_iff, h]
  simp [exec, h, Point.step, hnow, hsame]

/-- Worker A prints. -/
theorem exec_printA {acc : Account}
    (h : acc.point .a = .start ∨ ∃ tick ≤ acc.now, acc.point .a = .waiting tick) :
    acc.exec (.run .a) = { acc with
      log := acc.log ++ [.a], point := Function.update acc.point .a .started } := by
  obtain h | ⟨tick, hdue, h⟩ := h
  · simp [exec, h, Point.step]
  · simp [exec, h, Point.step, Nat.not_lt.mpr hdue]

/-- Worker B starts. -/
theorem exec_startB {acc : Account} (h : acc.point .b = .start) :
    acc.exec (.run .b) = { acc with point := Function.update acc.point .b .started } := by
  simp [exec, h, Point.step]

/-- Worker B prints. -/
theorem exec_printB {acc : Account} {tick : ℕ} (h : acc.point .b = .waiting tick)
    (hdue : tick ≤ acc.now) :
    acc.exec (.run .b) = { acc with
      log := acc.log ++ [.b]
      point := Function.update acc.point .b (.waiting (tick + 4000)) } := by
  simp [exec, h, Point.step, Nat.not_lt.mpr hdue, Worker.period]

/-- A message of worker A needs a console. -/
theorem consoles_printA :
    Account.consoles { acc with
      log := acc.log ++ [.a], point := Function.update acc.point .a .started } =
      acc.consoles + 1 := by
  have hb : Function.update acc.point .a .started .b = acc.point .b :=
    Function.update_of_ne (by decide) _ _
  simp only [consoles, List.count_append, List.count_singleton_self, hb]
  omega

/-- Worker B needs a console when it starts. -/
theorem consoles_startB (hstart : acc.point .b = .start) :
    Account.consoles { acc with point := Function.update acc.point .b .started } =
      acc.consoles + 1 := by
  simp [consoles, hstart]

theorem consoles_run (ops : List WorkerOp) : acc.consoles ≤ (acc.run ops).consoles := by
  induction ops generalizing acc with
  | nil => exact Nat.le_refl _
  | cons op ops ih => exact (acc.consoles_exec op).trans (ih _)

/-! ### How often they print -/

/-- What holds of a worker from the tick `start` on: it has printed no message early, and waits for
no tick that is early for its next one. -/
def Timely (worker : Worker) (start now : ℕ) (x : Point ℕ × ℕ) : Prop :=
  start + worker.period * (x.2 + worker.lead) ≤ now + worker.period ∧
    match x.1 with
    | .start => x.2 = 0 ∧ start ≤ now
    | .started => True
    | .waiting tick => start + worker.period * (x.2 + worker.lead) ≤ tick

theorem timely_start (start : ℕ) (worker : Worker) :
    Timely worker start start (progress { now := start } worker) := by
  cases worker <;> simp [Timely, progress, Worker.period, Worker.lead]

theorem Timely.advance {worker : Worker} {start now : ℕ} {x : Point ℕ × ℕ}
    (h : Timely worker start now x) : Timely worker start now (advance worker now x) := by
  obtain ⟨point, count⟩ := x
  obtain ⟨hnow, hpoint⟩ := h
  cases point with
  | start =>
      obtain ⟨hcount, hstart⟩ := hpoint
      cases worker <;>
        simp [Timely, Account.advance, Point.step, Worker.period, Worker.lead] at hcount ⊢ <;> omega
  | started =>
      exact ⟨hnow, hnow⟩
  | waiting tick =>
      by_cases hwaits : now < tick
      · simpa [Timely, Account.advance, Point.step, hwaits] using ⟨hnow, hpoint⟩
      · cases worker <;>
          simp [Timely, Account.advance, Point.step, hwaits, Worker.period, Worker.lead]
            at hpoint ⊢ <;> omega

theorem Timely.later {worker : Worker} {start now : ℕ} {x : Point ℕ × ℕ}
    (h : Timely worker start now x) : Timely worker start (now + 1) x := by
  obtain ⟨point, count⟩ := x
  obtain ⟨hnow, hpoint⟩ := h
  refine ⟨by omega, ?_⟩
  cases point with
  | start => exact ⟨hpoint.1, Nat.le_succ_of_le hpoint.2⟩
  | started => trivial
  | waiting tick => exact hpoint

/-- Whatever happens, no worker prints early. -/
theorem timely_run {acc : Account} {start : ℕ}
    (h : ∀ worker, Timely worker start acc.now (acc.progress worker)) (ops : List WorkerOp)
    (worker : Worker) :
    Timely worker start (acc.run ops).now ((acc.run ops).progress worker) := by
  induction ops generalizing acc with
  | nil => exact h worker
  | cons op ops ih =>
      refine @ih (acc.exec op) fun worker => ?_
      cases op with
      | onTimer => exact (h worker).later
      | run other =>
          rw [progress_run]
          split
          · exact (h worker).advance
          · exact h worker

/-- What holds of a worker that started at the tick `start` and has had its turns since: it waits
for the next tick at which it is to print. -/
def Settled (worker : Worker) (start now : ℕ) (x : Point ℕ × ℕ) : Prop :=
  ∃ tick, x.1 = .waiting tick ∧ now < tick ∧ tick ≤ now + worker.period ∧
    tick = start + worker.period * (x.2 + worker.lead)

theorem Settled.advance {worker : Worker} {start now : ℕ} {x : Point ℕ × ℕ}
    (h : Settled worker start now x) : advance worker now x = x := by
  obtain ⟨point, count⟩ := x
  obtain ⟨tick, rfl, hnow, -⟩ := h
  simp [Account.advance, Point.step, hnow]

/-- Two steps are enough after the start. -/
theorem settled_start (worker : Worker) (now : ℕ) :
    Settled worker now now (advance worker now (advance worker now (.start, 0))) := by
  refine ⟨now + worker.period, rfl, ?_, Nat.le_refl _, ?_⟩
  · exact Nat.lt_add_of_pos_right worker.period_pos
  · cases worker <;> rfl

/-- Two steps are enough after a tick. -/
theorem Settled.later {worker : Worker} {start now : ℕ} {x : Point ℕ × ℕ}
    (h : Settled worker start now x) :
    Settled worker start (now + 1)
      (Account.advance worker (now + 1) (Account.advance worker (now + 1) x)) := by
  obtain ⟨point, count⟩ := x
  obtain ⟨tick, rfl, hnow, hsoon, htick⟩ := h
  by_cases hwaits : now + 1 < tick
  · have hsettled : Settled worker start (now + 1) (.waiting tick, count) :=
      ⟨tick, rfl, hwaits, by omega, htick⟩
    rwa [hsettled.advance, hsettled.advance]
  · refine ⟨tick + worker.period, ?_⟩
    have hnext : tick = now + 1 := by omega
    cases worker with
    | a =>
        simp [Account.advance, Point.step, hnext, Worker.period, Worker.lead] at htick ⊢
        omega
    | b =>
        simp [Account.advance, Point.step, hnext, Worker.period, Worker.lead] at htick ⊢
        omega

/-- What happens between two ticks if both workers get their turns. -/
def Fair (turns : List WorkerOp) : Prop :=
  .onTimer ∉ turns ∧ ∀ worker, 2 ≤ turns.count (.run worker)

/-- Between two ticks the steps of a worker are independent of the other one. -/
theorem progress_turns {turns : List WorkerOp} (hquiet : .onTimer ∉ turns) (worker : Worker) :
    (acc.run turns).progress worker =
      (advance worker acc.now)^[turns.count (.run worker)] (acc.progress worker) := by
  induction turns generalizing acc with
  | nil => rfl
  | cons op turns ih =>
      obtain ⟨hop, hrest⟩ := not_or.mp (mt List.mem_cons.mpr hquiet)
      cases op with
      | onTimer => exact absurd rfl hop
      | run other =>
          have hrun := ih (acc.exec (.run other)) hrest
          rw [run, List.foldl_cons, ← run, hrun, progress_run, List.count_cons]
          by_cases hsame : other = worker
          · simp only [hsame, if_true, beq_self_eq_true, Function.iterate_succ_apply]
            rfl
          · have hne : (WorkerOp.run other == .run worker) = false := by simpa using hsame
            simp only [if_neg hsame, hne]
            rfl

/-- A round settles the workers. -/
theorem settled_round {start : ℕ} {turns : List WorkerOp} (hfair : Fair turns)
    (h : ∀ worker, Settled worker start (acc.now + 1)
      ((advance worker (acc.now + 1))^[2] (acc.progress worker))) (worker : Worker) :
    Settled worker start (acc.now + 1) ((acc.run (.onTimer :: turns)).progress worker) := by
  obtain ⟨extra, hextra⟩ := Nat.exists_eq_add_of_le' (hfair.2 worker)
  rw [run, List.foldl_cons, ← run, progress_turns _ hfair.1, hextra, Function.iterate_add_apply]
  have hfixed := Function.iterate_fixed (h worker).advance extra
  exact hfixed.symm ▸ h worker

theorem now_round {turns : List WorkerOp} (hfair : Fair turns) :
    (acc.run (.onTimer :: turns)).now = acc.now + 1 := by
  rw [now_run, List.count_cons_self, List.count_eq_zero_of_not_mem hfair.1]

theorem settled_rounds {start : ℕ} {rounds : List (List WorkerOp)}
    (hfair : ∀ turns ∈ rounds, Fair turns)
    (h : ∀ worker, Settled worker start acc.now (acc.progress worker)) (worker : Worker) :
    Settled worker start (acc.now + rounds.length)
      ((acc.run (rounds.flatMap (.onTimer :: ·))).progress worker) := by
  induction rounds generalizing acc with
  | nil => exact h worker
  | cons turns rounds ih =>
      obtain ⟨hturns, hrounds⟩ := List.forall_mem_cons.mp hfair
      have hnow := acc.now_round hturns
      have hround := ih (acc.run (.onTimer :: turns)) hrounds fun worker => by
        rw [hnow]
        exact acc.settled_round hturns (fun worker => (h worker).later) worker
      rw [List.flatMap_cons, run, List.foldl_append, List.length_cons, Nat.add_comm rounds.length,
        ← Nat.add_assoc, ← hnow]
      exact hround

/-- What the workers have done after rounds in which both got their turns. -/
theorem settled_fair {now : ℕ} {rounds : List (List WorkerOp)} (hne : rounds ≠ [])
    (hfair : ∀ turns ∈ rounds, Fair turns) (worker : Worker) :
    Settled worker (now + 1) (now + rounds.length)
      ((run { now } (rounds.flatMap (.onTimer :: ·))).progress worker) := by
  obtain ⟨turns, rounds, rfl⟩ := List.exists_cons_of_ne_nil hne
  obtain ⟨hturns, hrounds⟩ := List.forall_mem_cons.mp hfair
  have hnow := now_round { now } hturns
  have hfirst := settled_round { now } hturns fun worker => settled_start worker (now + 1)
  have hrest := settled_rounds (run { now } (.onTimer :: turns)) hrounds
    (by rw [hnow]; exact hfirst) worker
  rw [hnow] at hrest
  rw [List.flatMap_cons, run, List.foldl_append, List.length_cons, Nat.add_comm rounds.length,
    ← Nat.add_assoc]
  exact hrest

/-- The number of messages of a settled worker. -/
theorem Settled.count_eq {worker : Worker} {start now : ℕ} {x : Point ℕ × ℕ}
    (h : Settled worker start now x) (hstart : start ≤ now) :
    x.2 + worker.lead = 1 + (now - start) / worker.period := by
  obtain ⟨tick, -, hnow, hsoon, rfl⟩ := h
  cases worker <;> simp only [Worker.period, Worker.lead] at * <;> omega

/-- The messages and the consoles of fair rounds. -/
theorem counts_fair {now : ℕ} {rounds : List (List WorkerOp)} (hne : rounds ≠ [])
    (hfair : ∀ turns ∈ rounds, Fair turns) {acc : Account}
    (hacc : acc = run { now } (rounds.flatMap (.onTimer :: ·))) :
    acc.now = now + rounds.length ∧ acc.log.count .a = 1 + (rounds.length - 1) / 1000 ∧
      acc.log.count .b = (rounds.length - 1) / 4000 ∧
      acc.consoles = 2 + (rounds.length - 1) / 1000 := by
  have hpos := List.length_pos_iff.mpr hne
  have hsettled : ∀ worker, Settled worker (now + 1) (now + rounds.length) (acc.progress worker) :=
    hacc ▸ settled_fair hne hfair
  have hticks : (rounds.flatMap (.onTimer :: ·)).count .onTimer = rounds.length := by
    clear hne hacc hsettled hpos
    induction rounds with
    | nil => rfl
    | cons turns rounds ih =>
        obtain ⟨hturns, hrounds⟩ := List.forall_mem_cons.mp hfair
        rw [List.flatMap_cons, List.count_append, ih hrounds, List.count_cons_self,
          List.count_eq_zero_of_not_mem hturns.1, List.length_cons]
        omega
  have ha := (hsettled .a).count_eq (by omega)
  have hb := (hsettled .b).count_eq (by omega)
  have hsub : now + rounds.length - (now + 1) = rounds.length - 1 := by omega
  simp only [progress, Worker.period, Worker.lead, hsub] at ha hb
  obtain ⟨tick, hwaits, -⟩ := hsettled .b
  refine ⟨by rw [hacc, now_run, hticks], by omega, by omega, ?_⟩
  rw [consoles, if_neg (by rw [show acc.point .b = .waiting tick from hwaits]; simp)]
  omega

end Account

end HailOS.Boot
