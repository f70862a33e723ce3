import HailOS.Boot.InitMemory
import HailOS.Boot.WorkerAccount
import HailOS.Devices.SerialConsole

/-!
# The workers of the kernel

Worker A asks for a console, prints, sleeps for a second and starts again with a new console. Worker
B asks for a console once and prints every four seconds. A console that is dropped is not freed, so
every message of worker A costs a page.

A run of the workers follows their account as long as there is a page for every console
(`Follows.run`). From this `workers_never_early` says how often they print at most, whatever the
interleaving. If both get their turns after every tick, `workers_lifetime` says what they print, and
for how many ticks. Then a panic starts that never halts.
-/

namespace HailOS.Boot

open Lib Kernel Early Object Console ErrorHandling Serial

/-- What a worker prints. -/
def Worker.message : Worker → List (BitVec 8)
  | .a => ascii "Hello, Scheduled tasks! This message must be shown once per a second!\n"
  | .b => ascii "Greetings from Worker B!\n"

/-- The kernel with its workers. The variables `con` of both are in `refs`. -/
structure WorkerState where
  machine : Machine
  tickCount : BitVec 64
  refs : RefState Worker ℕ := RefState.initial
  point : Worker → Point (BitVec 64) := fun _ => .start

namespace WorkerState

variable (build : Build)

/-- The objects of the workers. -/
def objects (st : WorkerState) : ObjectState Worker := ⟨st.machine.heap, st.refs⟩

/-- The state with other objects. -/
def withObjects (st : WorkerState) (s : ObjectState Worker) : WorkerState :=
  { st with machine := { st.machine with heap := s.heap }, refs := s.refs }

/-- An operation on a variable. -/
def objectOp (st : WorkerState) (op : ObjectOp Worker) : Option WorkerState :=
  (st.objects.exec op).map st.withObjects

/-- `con->PutString`. -/
def put (st : WorkerState) (worker : Worker) : WorkerState :=
  { st with machine := st.machine.redundantOutput build (.putString worker.message) }

/-- The worker goes on to a point. -/
def goto (st : WorkerState) (worker : Worker) (point : Point (BitVec 64)) : WorkerState :=
  { st with point := Function.update st.point worker point }

/-- The body of the loop of `WorkerA`, up to `SleepMs`. -/
def iterateA (st : WorkerState) : Option WorkerState :=
  (st.objectOp (.make .a redundantOutput)).map fun st => (st.put build .a).goto .a .started

/-- A step of `WorkerA`. When it wakes up, it drops its console and starts again. -/
def runA (st : WorkerState) : Option WorkerState :=
  match st.point .a with
  | .start => st.iterateA build
  | .started => some (st.goto .a (.waiting (st.tickCount + 1000)))
  | .waiting target =>
      if st.tickCount < target then some st
      else (st.objectOp (.ref (.destruct .a))).bind (iterateA build)

/-- A step of `WorkerB`. -/
def runB (st : WorkerState) : Option WorkerState :=
  match st.point .b with
  | .start => (st.objectOp (.make .b redundantOutput)).map fun st => st.goto .b .started
  | .started => some (st.goto .b (.waiting (st.tickCount + 4000)))
  | .waiting next =>
      if st.tickCount ≥ next then some ((st.put build .b).goto .b (.waiting (next + 4000)))
      else some st

/-- One event. The result is none if `operator new` panics. -/
def exec (st : WorkerState) : WorkerOp → Option WorkerState
  | .onTimer => some { st with tickCount := st.tickCount + 1 }
  | .run .a => st.runA build
  | .run .b => st.runB build

end WorkerState

/-! ## Consoles -/

variable {build : Build} {m : Machine} {heap : Heap} {st st' : WorkerState} {acc : Account}

theorem live_room (live : Finset Worker) : live.card < RefState.slotTotal := by
  have hcovered : live ⊆ {.a, .b} := by
    intro worker _
    cases worker <;> simp
  exact Nat.lt_of_le_of_lt (Finset.card_le_card hcovered) (by decide)

/-- `GetBootstrapConsole` takes a page, or panics because there is none. -/
theorem objectOp_make {v : Worker} (hinv : LeakInv heap st.objects)
    (hzero : bitAt heap.bitmap 0 = usedBit) (hv : v ∉ st.refs.live) :
    (∃ s, st.objectOp (.make v redundantOutput) = some (st.withObjects s) ∧ LeakInv heap s ∧
      s.refs.live = insert v st.refs.live ∧
      s.refs.objects.created.length = st.refs.objects.created.length + 1) ∨
    st.objectOp (.make v redundantOutput) = none ∧
      getAvailableSize st.machine.heap.bitmap = 0 := by
  have hroom := live_room st.objects.refs.live
  cases hexec : st.objects.exec (.make v redundantOutput) with
  | some s =>
      obtain ⟨hinv', hlength⟩ := hinv.make hv hroom hexec
      obtain ⟨-, -, -, -, -, -, -, hlive, -⟩ := hinv.exec_make hv hroom hexec
      refine .inl ⟨s, ?_, hinv', hlive, hlength⟩
      rw [WorkerState.objectOp, hexec]
      rfl
  | none =>
      refine .inr ⟨by rw [WorkerState.objectOp, hexec]; rfl, ?_⟩
      refine allocatePage_unavailable (hinv.used 0 hzero) (by_contra fun hpage => ?_)
      have hone : allocatePageSize st.machine.heap.bitmap (sizeAlloc redundantOutput.size) =
          allocatePage st.machine.heap.bitmap := allocatePageSize_one redundantOutput.pageCount
      rw [← hone] at hpage
      obtain ⟨s, -, hsome, -⟩ := hinv.exists_make hv hroom (operatorNew_eq hpage)
      rw [hexec] at hsome
      cases hsome

/-- A console is dropped, and stays. -/
theorem objectOp_destruct {v : Worker} (hinv : LeakInv heap st.objects) (hv : v ∈ st.refs.live) :
    ∃ s, st.objectOp (.ref (.destruct v)) = some (st.withObjects s) ∧ LeakInv heap s ∧
      s.refs.live = st.refs.live.erase v ∧
      s.refs.objects.created.length = st.refs.objects.created.length := by
  have hallowed : st.objects.refs.Allowed (.destruct v) := hv
  obtain ⟨refs, hrefs, -⟩ := hinv.refs.exec hallowed
  obtain ⟨objects, -, hresult⟩ := Option.bind_eq_some_iff.mp hrefs
  obtain ⟨s, hexec, hsame⟩ : ∃ s, st.objects.exec (.ref (.destruct v)) = some s ∧
      s.refs = refs := by
    rw [ObjectState.exec, hrefs]
    exact ⟨_, rfl, rfl⟩
  have hkeeps : KeepsVariables (RefOp.destruct v : RefOp Worker ℕ) := trivial
  obtain ⟨hinv', hlength⟩ := hinv.ref hkeeps hallowed hexec
  refine ⟨s, by rw [WorkerState.objectOp, hexec]; rfl, hinv', ?_, hlength⟩
  rw [hsame, ← Option.some.inj hresult]
  rfl

/-- The body of the loop of `WorkerA` takes a page, or panics because there is none. -/
theorem iterateA_cases (build : Build) (hinv : LeakInv heap st.objects)
    (hzero : bitAt heap.bitmap 0 = usedBit) (hv : .a ∉ st.refs.live) :
    (∃ s, st.iterateA build = some (((st.withObjects s).put build .a).goto .a .started) ∧
      LeakInv heap s ∧ s.refs.live = insert .a st.refs.live ∧
      s.refs.objects.created.length = st.refs.objects.created.length + 1) ∨
    st.iterateA build = none ∧ getAvailableSize st.machine.heap.bitmap = 0 := by
  obtain ⟨s, hmake, hrest⟩ | ⟨hmake, hfull⟩ := objectOp_make hinv hzero hv
  · exact .inl ⟨s, by rw [WorkerState.iterateA, hmake]; rfl, hrest⟩
  · exact .inr ⟨by rw [WorkerState.iterateA, hmake]; rfl, hfull⟩

/-! ## The kernel follows the account -/

/-- The machine after the messages. -/
def printed (build : Build) (m : Machine) (log : List Worker) : Machine :=
  log.foldl (fun m worker => m.redundantOutput build (.putString worker.message)) m

/-- The kernel has done what is in the account, from the machine `m` on. -/
structure Follows (build : Build) (m : Machine) (st : WorkerState) (acc : Account) : Prop where
  objects : LeakInv m.heap st.objects
  consoles : st.refs.objects.created.length = acc.consoles
  machine : st.machine = { printed build m acc.log with heap := st.machine.heap }
  now : st.tickCount.toNat = acc.now
  point : ∀ worker, (st.point worker).map BitVec.toNat = acc.point worker
  live : ∀ worker, worker ∈ st.refs.live ↔ acc.point worker ≠ .start

namespace Follows

theorem initial (build : Build) (m : Machine) (tickCount : BitVec 64) :
    Follows build m { machine := m, tickCount } { now := tickCount.toNat } where
  objects := LeakInv.initial m.heap
  consoles := rfl
  machine := rfl
  now := rfl
  point := fun _ => rfl
  live := fun worker => by simp [RefState.initial]

/-- Every console has a page. -/
theorem available (h : Follows build m st acc) :
    getAvailableSize st.machine.heap.bitmap + 4096 * acc.consoles =
      getAvailableSize m.heap.bitmap := by
  rw [← h.consoles]
  exact h.objects.available

theorem point_goto (h : Follows build m st acc) (worker : Worker) (point : Point (BitVec 64))
    (other : Worker) :
    ((st.goto worker point).point other).map BitVec.toNat =
      Function.update acc.point worker (point.map BitVec.toNat) other := by
  by_cases hsame : other = worker
  · subst hsame
    simp only [WorkerState.goto, Function.update_self]
  · simp only [WorkerState.goto, Function.update_of_ne hsame, h.point]

/-- The worker that has left its start has a console. -/
theorem live_goto (h : Follows build m st acc) {worker : Worker} {point : Point ℕ}
    (hpoint : point ≠ .start) (other : Worker) :
    other ∈ insert worker st.refs.live ↔ Function.update acc.point worker point other ≠ .start := by
  by_cases hsame : other = worker
  · subst hsame
    simp only [Finset.mem_insert_self, Function.update_self, hpoint, ne_eq, not_false_iff]
  · simp only [Finset.mem_insert, hsame, false_or, Function.update_of_ne hsame, h.live]

/-- A worker with a console goes on. -/
theorem goto (h : Follows build m st acc) {worker : Worker} {point : Point (BitVec 64)}
    (hstarted : acc.point worker ≠ .start) (hpoint : point.map BitVec.toNat ≠ .start) :
    Follows build m (st.goto worker point)
      { acc with point := Function.update acc.point worker (point.map BitVec.toNat) } where
  objects := h.objects
  consoles := by
    have hsame : (Function.update acc.point worker (point.map BitVec.toNat) .b = .start) =
        (acc.point .b = .start) := by
      cases worker with
      | a => rw [Function.update_of_ne (by decide)]
      | b => rw [Function.update_self, eq_false hpoint, eq_false hstarted]
    simp only [Account.consoles, hsame]
    exact h.consoles
  machine := h.machine
  now := h.now
  point := h.point_goto worker point
  live := fun other => by
    rw [← h.live_goto hpoint, Finset.insert_eq_of_mem ((h.live worker).mpr hstarted)]
    rfl

/-- Worker B prints. -/
theorem putB (h : Follows build m st acc) :
    Follows build m (st.put build .b) { acc with log := acc.log ++ [.b] } where
  objects := h.objects
  consoles := by
    rw [Account.consoles, List.count_append, List.count_singleton, if_neg (by decide)]
    exact h.consoles
  machine := by
    rw [WorkerState.put, h.machine, printed, printed, List.foldl_append]
    rfl
  now := h.now
  point := h.point
  live := h.live

/-- Worker A has a new console and prints. -/
theorem makeA {s : ObjectState Worker} (h : Follows build m st acc) (hinv : LeakInv m.heap s)
    (hlive : s.refs.live = insert .a st.refs.live)
    (hlength : s.refs.objects.created.length = st.refs.objects.created.length + 1) :
    Follows build m (((st.withObjects s).put build .a).goto .a .started)
      { acc with log := acc.log ++ [.a], point := Function.update acc.point .a .started } where
  objects := hinv
  consoles := by
    rw [Account.consoles_printA, ← h.consoles]
    exact hlength
  machine := by
    rw [WorkerState.goto, WorkerState.put, WorkerState.withObjects, h.machine, printed, printed,
      List.foldl_append]
    rfl
  now := h.now
  point := h.point_goto .a .started
  live := fun other => by
    rw [← h.live_goto (by simp), ← hlive]
    rfl

/-- Worker B has its console. -/
theorem makeB {s : ObjectState Worker} (h : Follows build m st acc)
    (hstart : acc.point .b = .start) (hinv : LeakInv m.heap s)
    (hlive : s.refs.live = insert .b st.refs.live)
    (hlength : s.refs.objects.created.length = st.refs.objects.created.length + 1) :
    Follows build m ((st.withObjects s).goto .b .started)
      { acc with point := Function.update acc.point .b .started } where
  objects := hinv
  consoles := by
    rw [acc.consoles_startB hstart, ← h.consoles]
    exact hlength
  machine := by
    rw [WorkerState.goto, WorkerState.withObjects, h.machine]
  now := h.now
  point := h.point_goto .b .started
  live := fun other => by
    rw [← h.live_goto (by simp), ← hlive]
    rfl

/-- The kernel does an event of the account, or panics because there is no page. -/
def Next (build : Build) (m : Machine) (st : WorkerState) (acc : Account) (op : WorkerOp) : Prop :=
  (∃ st', st.exec build op = some st' ∧ Follows build m st' (acc.exec op)) ∨
    st.exec build op = none ∧ getAvailableSize st.machine.heap.bitmap = 0 ∧
      (acc.exec op).consoles = acc.consoles + 1

theorem waiting_lt {tick : BitVec 64} (h : Follows build m st acc) :
    st.tickCount < tick ↔ acc.now < tick.toNat := by
  rw [BitVec.lt_def, h.now]

theorem toNat_add {tick : BitVec 64} {period : ℕ} (h : tick.toNat + period < 2 ^ 64) :
    (tick + BitVec.ofNat 64 period).toNat = tick.toNat + period := by
  rw [BitVec.toNat_add, BitVec.toNat_ofNat]
  omega

/-- A worker reads the clock. -/
theorem started (h : Follows build m st acc) {worker : Worker}
    (hpoint : acc.point worker = .started) (hnow : acc.now + worker.period < 2 ^ 64) :
    Follows build m (st.goto worker (.waiting (st.tickCount + BitVec.ofNat 64 worker.period)))
      (acc.exec (.run worker)) := by
  have htick : (st.tickCount + BitVec.ofNat 64 worker.period).toNat = acc.now + worker.period := by
    rw [← h.now] at hnow ⊢
    exact toNat_add hnow
  rw [Account.exec_started hpoint, ← htick]
  exact h.goto (by simp [hpoint]) (by simp [Point.map])

/-- Worker A drops its console and gets a new one. -/
theorem wakeA (h : Follows build m st acc) (hzero : bitAt m.heap.bitmap 0 = usedBit)
    (hv : .a ∈ st.refs.live) :
    (∃ st', (st.objectOp (.ref (.destruct .a))).bind (WorkerState.iterateA build) = some st' ∧
      Follows build m st' { acc with
        log := acc.log ++ [.a], point := Function.update acc.point .a .started }) ∨
    (st.objectOp (.ref (.destruct .a))).bind (WorkerState.iterateA build) = none ∧
      getAvailableSize st.machine.heap.bitmap = 0 := by
  obtain ⟨s, hdrop, hinv, hlive, hlength⟩ := objectOp_destruct h.objects hv
  have hdropped : .a ∉ (st.withObjects s).refs.live := by
    show .a ∉ s.refs.live
    rw [hlive]
    exact Finset.notMem_erase _ _
  rw [hdrop, Option.bind_some]
  obtain ⟨s', hexec, hinv', hlive', hlength'⟩ | ⟨hexec, hfull⟩ :=
    iterateA_cases build (show LeakInv m.heap (st.withObjects s).objects from hinv) hzero hdropped
  · refine .inl ⟨_, hexec, h.makeA hinv' ?_ (hlength'.trans (congrArg (· + 1) hlength))⟩
    rw [hlive', show (st.withObjects s).refs.live = s.refs.live from rfl, hlive,
      Finset.insert_erase hv, Finset.insert_eq_of_mem hv]
  · -- the dropped console has freed nothing
    refine .inr ⟨hexec, ?_⟩
    have hafter := hinv.available
    rw [hlength, show getAvailableSize s.heap.bitmap = 0 from hfull] at hafter
    exact Nat.add_right_cancel (h.objects.available.trans hafter.symm)

theorem execA (h : Follows build m st acc) (hzero : bitAt m.heap.bitmap 0 = usedBit)
    (hnow : acc.now + 4000 < 2 ^ 64) : Next build m st acc (.run .a) := by
  have hpoint := h.point .a
  rw [Next, WorkerState.exec, WorkerState.runA]
  cases hst : st.point .a with
  | start =>
      have hstart : acc.point .a = .start := by rw [← hpoint, hst, Point.map]
      rw [Account.exec_printA (.inl hstart), acc.consoles_printA]
      have hv : .a ∉ st.refs.live := fun hv => (h.live .a).mp hv hstart
      obtain ⟨s, hexec, hinv, hlive, hlength⟩ | ⟨hexec, hfull⟩ :=
        iterateA_cases build h.objects hzero hv
      · exact .inl ⟨_, hexec, h.makeA hinv hlive hlength⟩
      · exact .inr ⟨hexec, hfull, rfl⟩
  | started =>
      have hstarted : acc.point .a = .started := by rw [← hpoint, hst, Point.map]
      have hperiod : Worker.a.period = 1000 := rfl
      exact .inl ⟨_, rfl, h.started hstarted (by omega)⟩
  | waiting target =>
      have hwaiting : acc.point .a = .waiting target.toNat := by rw [← hpoint, hst, Point.map]
      by_cases hsleeps : st.tickCount < target
      · rw [Account.exec_waiting hwaiting (h.waiting_lt.mp hsleeps)]
        exact .inl ⟨st, if_pos hsleeps, h⟩
      · have hdue := Nat.not_lt.mp (mt h.waiting_lt.mpr hsleeps)
        rw [Account.exec_printA (.inr ⟨_, hdue, hwaiting⟩), acc.consoles_printA]
        simp only [if_neg hsleeps]
        have hv : .a ∈ st.refs.live := (h.live .a).mpr (by simp [hwaiting])
        obtain hnext | ⟨hexec, hfull⟩ := h.wakeA hzero hv
        · exact .inl hnext
        · exact .inr ⟨hexec, hfull, trivial⟩

theorem execB (h : Follows build m st acc) (hzero : bitAt m.heap.bitmap 0 = usedBit)
    (hnow : acc.now + 4000 < 2 ^ 64) : Next build m st acc (.run .b) := by
  have hpoint := h.point .b
  rw [Next, WorkerState.exec, WorkerState.runB]
  cases hst : st.point .b with
  | start =>
      have hstart : acc.point .b = .start := by rw [← hpoint, hst, Point.map]
      rw [Account.exec_startB hstart, acc.consoles_startB hstart]
      have hv : .b ∉ st.refs.live := fun hv => (h.live .b).mp hv hstart
      obtain ⟨s, hmake, hinv, hlive, hlength⟩ | ⟨hmake, hfull⟩ := objectOp_make h.objects hzero hv
      · exact .inl ⟨_, by rw [hmake]; rfl, h.makeB hstart hinv hlive hlength⟩
      · exact .inr ⟨by rw [hmake]; rfl, hfull, rfl⟩
  | started =>
      have hstarted : acc.point .b = .started := by rw [← hpoint, hst, Point.map]
      exact .inl ⟨_, rfl, h.started hstarted hnow⟩
  | waiting next =>
      have hwaiting : acc.point .b = .waiting next.toNat := by rw [← hpoint, hst, Point.map]
      by_cases hwaits : st.tickCount < next
      · rw [Account.exec_waiting hwaiting (h.waiting_lt.mp hwaits)]
        exact .inl ⟨st, if_neg (BitVec.not_le.mpr hwaits), h⟩
      · have hdue := Nat.not_lt.mp (mt h.waiting_lt.mpr hwaits)
        have hroom : next.toNat + 4000 < 2 ^ 64 := by omega
        have htick : (next + 4000).toNat = next.toNat + 4000 := toNat_add hroom
        rw [Account.exec_printB hwaiting hdue, ← htick]
        refine .inl ⟨_, if_pos (BitVec.not_lt.mp hwaits), h.putB.goto ?_ (by simp [Point.map])⟩
        simp [hwaiting]

/-- An event. -/
theorem exec (h : Follows build m st acc) (hzero : bitAt m.heap.bitmap 0 = usedBit)
    (hnow : acc.now + 4000 < 2 ^ 64) (op : WorkerOp) : Next build m st acc op := by
  cases op with
  | onTimer =>
      refine .inl ⟨_, rfl, { h with now := ?_ }⟩
      show (st.tickCount + 1).toNat = acc.now + 1
      have hroom : st.tickCount.toNat + 1 < 2 ^ 64 := by
        rw [h.now]
        omega
      rw [← h.now]
      exact toNat_add hroom
  | run worker =>
      cases worker with
      | a => exact h.execA hzero hnow
      | b => exact h.execB hzero hnow

/-- The kernel goes through a run of the account as long as there is a page for every console. Else
it panics on the way when no page is left. -/
theorem run (h : Follows build m st acc) (hzero : bitAt m.heap.bitmap 0 = usedBit)
    (ops : List WorkerOp) (hnow : (acc.run ops).now + 4000 < 2 ^ 64) :
    (∃ st', ops.foldlM (WorkerState.exec build) st = some st' ∧
      Follows build m st' (acc.run ops)) ∨
    getAvailableSize m.heap.bitmap < 4096 * (acc.run ops).consoles ∧
      ∃ before op after st', ops = before ++ op :: after ∧
        before.foldlM (WorkerState.exec build) st = some st' ∧
        Follows build m st' (acc.run before) ∧ st'.exec build op = none ∧
        getAvailableSize st'.machine.heap.bitmap = 0 := by
  induction ops generalizing st acc with
  | nil => exact .inl ⟨st, rfl, h⟩
  | cons op ops ih =>
      have hnow' : acc.now + 4000 < 2 ^ 64 := by
        rw [Account.now_run] at hnow
        omega
      obtain ⟨st₁, hexec, h₁⟩ | ⟨hexec, hfull, hconsoles⟩ := h.exec hzero hnow' op
      · obtain ⟨st', hrun, h'⟩ | ⟨hshort, before, op', after, st', rfl, hbefore, h', hstops⟩ :=
          ih h₁ hnow
        · exact .inl ⟨st', by rw [List.foldlM_cons, hexec]; exact hrun, h'⟩
        · refine .inr ⟨hshort, op :: before, op', after, st', rfl, ?_, h', hstops⟩
          rw [List.foldlM_cons, hexec]
          exact hbefore
      · refine .inr ⟨?_, [], op, ops, st, rfl, rfl, h, hexec, hfull⟩
        have hmore := (acc.exec op).consoles_run ops
        have havailable := h.available
        rw [Account.run, List.foldl_cons, ← Account.run]
        omega

end Follows

/-! ## The serial line -/

theorem message_text (worker : Worker) : text (.putString worker.message) = worker.message := by
  cases worker <;> rfl

theorem printed_eq (log : List Worker) :
    printed build m log =
      (log.map fun worker => ConsoleOp.putString worker.message).foldl
        (Machine.redundantOutput build) m := by
  rw [printed, List.foldl_map]

/-- The messages are on the serial line in the order in which they were printed. -/
theorem printed_serial {serial : SerialConsole} (log : List Worker)
    (hserial : m.serial = some serial) (hready : serial.isReady = true) :
    (printed build m log).serial =
      some ⟨true, serial.sent ++ onLine (log.flatMap Worker.message)⟩ := by
  have htext : (log.map fun worker => ConsoleOp.putString worker.message).flatMap text =
      log.flatMap Worker.message := by
    rw [List.flatMap_map]
    exact List.flatMap_congr fun worker _ => message_text worker
  rw [printed_eq, redundantOutput_run, ← htext]
  simp only [hserial, Option.map_some, run_ready hready]

/-! ## The end of the memory -/

theorem not_hasPage {bitmap : PageBitmap} (h : getAvailableSize bitmap = 0) :
    ¬ HasPage bitmap := by
  rintro ⟨k, -, hk, hunused⟩
  have hmem : k ∈ (Finset.range pageTotal).filter fun j => bitAt bitmap j = unusedBit :=
    Finset.mem_filter.mpr ⟨Finset.mem_range.mpr hk, hunused⟩
  have hpos := Finset.card_pos.mpr ⟨k, hmem⟩
  rw [getAvailableSize_eq] at h
  omega

/-- Without a page `GetBootstrapConsole` panics, and the panic never halts. -/
theorem getBootstrapConsole_endless (h : getAvailableSize m.heap.bitmap = 0) :
    ∃ heap, getBootstrapConsole m.heap = .error heap ∧ ∀ depth,
      panicEx build depth { m with heap } (operatorNewPanic build) = none := by
  have hnone := not_hasPage h
  obtain ⟨-, -, -, hpage, -⟩ | ⟨heap, herror, -, hsame, -⟩ := getBootstrapConsole_cases m.heap
  · exact absurd hpage hnone
  · refine ⟨heap, herror, fun depth => panicEx_endless build depth _ ?_⟩
    rintro ⟨k, hpos, hk, hunused⟩
    exact hnone ⟨k, hpos, hk, hsame k hpos ▸ hunused⟩

/-! ## Any interleaving -/

/-- Whatever the interleaving, worker A prints once at the start and then at most once a second,
worker B at most once in four seconds, and there is a free page for every message of worker A. -/
theorem workers_never_early {tickCount : BitVec 64} {ops : List WorkerOp}
    (hzero : bitAt m.heap.bitmap 0 = usedBit)
    (hnow : tickCount.toNat + ops.count .onTimer + 4000 < 2 ^ 64)
    (hrun : ops.foldlM (WorkerState.exec build) { machine := m, tickCount } = some st') :
    ∃ log, st'.machine = { printed build m log with heap := st'.machine.heap } ∧
      log.count .a ≤ 1 + ops.count .onTimer / 1000 ∧ log.count .b ≤ ops.count .onTimer / 4000 ∧
      4096 * log.count .a ≤ getAvailableSize m.heap.bitmap := by
  have hstart := Follows.initial build m tickCount
  have hnow' := Account.now_run { now := tickCount.toNat } ops
  obtain ⟨st'', hrun', h⟩ | ⟨-, before, op, after, st'', rfl, hbefore, -, hnone, -⟩ :=
    hstart.run hzero ops (by rw [hnow']; exact hnow)
  · rw [hrun] at hrun'
    cases hrun'
    have htimely := Account.timely_run (Account.timely_start tickCount.toNat) ops
    have ha := (htimely .a).1
    have hb := (htimely .b).1
    have havailable := h.available
    rw [hnow'] at ha hb
    simp only [Account.progress, Worker.period, Worker.lead] at ha hb
    rw [Account.consoles] at havailable
    exact ⟨_, h.machine, by omega, by omega, by omega⟩
  · rw [List.foldlM_append, hbefore, Option.bind_eq_bind, Option.bind_some, List.foldlM_cons, hnone]
      at hrun
    cases hrun

/-- The pages 1 and 2 are free. -/
theorem talking_available : 2 ≤ getAvailableSize talking.heap.bitmap / 4096 := by
  have hsub : {1, 2} ⊆
      (Finset.range pageTotal).filter fun k => bitAt talking.heap.bitmap k = unusedBit := by
    intro k hk
    obtain rfl | rfl : k = 1 ∨ k = 2 := by simpa using hk
    · exact Finset.mem_filter.mpr ⟨Finset.mem_range.mpr (by decide), by decide⟩
    · exact Finset.mem_filter.mpr ⟨Finset.mem_range.mpr (by decide), by decide⟩
  rw [getAvailableSize_eq, Nat.mul_div_cancel_left _ (by decide)]
  exact Finset.card_le_card hsub

theorem talking_zero : bitAt talking.heap.bitmap 0 = usedBit := by decide

/-- Both workers start between the first two ticks, and then go to sleep. -/
def bothStart : List WorkerOp :=
  [.onTimer, .run .a, .run .b, .onTimer, .run .b, .run .a, .onTimer, .run .a, .run .b]

/-- The workers start on a machine with a serial console. -/
theorem workers_never_early_start : ∃ st',
    bothStart.foldlM (WorkerState.exec bareBuild) { machine := talking, tickCount := 0 } =
      some st' ∧
    ∃ log : List Worker, st'.machine =
        { printed bareBuild talking log with heap := st'.machine.heap } ∧
      log.count .a ≤ 1 ∧ log.count .b ≤ 0 ∧
      4096 * log.count .a ≤ getAvailableSize talking.heap.bitmap := by
  have hpages := talking_available
  obtain ⟨st', hrun, -⟩ | ⟨hshort, -⟩ :=
    (Follows.initial bareBuild talking 0).run talking_zero bothStart (by decide)
  · exact ⟨st', hrun, workers_never_early talking_zero (by decide) hrun⟩
  · have hconsoles : (Account.run { now := (0 : BitVec 64).toNat } bothStart).consoles = 2 := by
      decide
    rw [hconsoles] at hshort
    omega

/-! ## Fair runs -/

/-- The workers get their turns after every tick. As long as there are pages, worker A prints in
the first round and then once a second, and worker B once in four seconds. Each message of worker A
takes a page. When none is left, a panic starts that never halts. -/
theorem workers_lifetime {tickCount : BitVec 64} {rounds : List (List WorkerOp)}
    (hzero : bitAt m.heap.bitmap 0 = usedBit) (hne : rounds ≠ [])
    (hfair : ∀ turns ∈ rounds, Account.Fair turns)
    (hnow : tickCount.toNat + rounds.length + 4000 < 2 ^ 64) :
    (2 + (rounds.length - 1) / 1000 ≤ getAvailableSize m.heap.bitmap / 4096 →
      ∃ (st' : WorkerState) (log : List Worker),
        (rounds.flatMap (.onTimer :: ·)).foldlM (WorkerState.exec build)
          { machine := m, tickCount } = some st' ∧
        log.count .a = 1 + (rounds.length - 1) / 1000 ∧
        log.count .b = (rounds.length - 1) / 4000 ∧
        ∀ serial, m.serial = some serial → serial.isReady = true → st'.machine.serial =
          some ⟨true, serial.sent ++ onLine (log.flatMap Worker.message)⟩) ∧
    (getAvailableSize m.heap.bitmap / 4096 < 2 + (rounds.length - 1) / 1000 →
      ∃ before op after st' heap, rounds.flatMap (.onTimer :: ·) = before ++ op :: after ∧
        before.foldlM (WorkerState.exec build) { machine := m, tickCount } = some st' ∧
        st'.exec build op = none ∧ getBootstrapConsole st'.machine.heap = .error heap ∧
        ∀ depth,
          panicEx build depth { st'.machine with heap } (operatorNewPanic build) = none) := by
  obtain ⟨hend, ha, hb, hconsoles⟩ := Account.counts_fair hne hfair rfl
  have hcases := (Follows.initial build m tickCount).run hzero _ (by rw [hend]; exact hnow)
  rw [hconsoles] at hcases
  constructor
  · intro hpages
    obtain ⟨st', hrun, h⟩ | ⟨hshort, -⟩ := hcases
    · refine ⟨st', _, hrun, ha, hb, fun serial hserial hready => ?_⟩
      rw [h.machine]
      exact printed_serial _ hserial hready
    · omega
  · intro hpages
    obtain ⟨st', -, h⟩ | ⟨-, before, op, after, st', hops, hbefore, -, hnone, hfull⟩ := hcases
    · have havailable := h.available
      rw [hconsoles] at havailable
      omega
    · obtain ⟨heap, herror, hendless⟩ := getBootstrapConsole_endless hfull
      exact ⟨before, op, after, st', heap, hops, hbefore, hnone, herror, hendless⟩

/-- A round in which both workers start. -/
def startRound : List WorkerOp := [.run .a, .run .b, .run .a, .run .b]

theorem startRound_fair : ∀ turns ∈ [startRound], Account.Fair turns := by
  intro turns hturns
  rw [List.mem_singleton.mp hturns]
  exact ⟨by decide, fun worker => by cases worker <;> decide⟩

/-- With two free pages the round ends with one message on the line. With none it ends in a panic
that never halts. -/
theorem workers_lifetime_round :
    (∃ (st' : WorkerState) (log : List Worker),
      (WorkerOp.onTimer :: startRound).foldlM (WorkerState.exec bareBuild)
        { machine := talking, tickCount := 0 } = some st' ∧
      log.count .a = 1 ∧ log.count .b = 0 ∧
      st'.machine.serial = some ⟨true, onLine (log.flatMap Worker.message)⟩) ∧
    ∃ before op after st' heap, WorkerOp.onTimer :: startRound = before ++ op :: after ∧
      before.foldlM (WorkerState.exec bareBuild) { machine := exhausted, tickCount := 0 } =
        some st' ∧
      st'.exec bareBuild op = none ∧ getBootstrapConsole st'.machine.heap = .error heap ∧
      ∀ depth, panicEx bareBuild depth { st'.machine with heap } (operatorNewPanic bareBuild) =
        none := by
  constructor
  · have hround := @workers_lifetime bareBuild talking 0 [startRound] talking_zero
      (List.cons_ne_nil startRound []) startRound_fair (by decide)
    obtain ⟨st', log, hrun, ha, hb, hserial⟩ := hround.1 talking_available
    exact ⟨st', log, hrun, ha, hb, hserial _ rfl rfl⟩
  · have hnone : getAvailableSize exhausted.heap.bitmap = 0 := by
      rw [getAvailableSize_eq, Finset.filter_false_of_mem, Finset.card_empty]
      intro k _ hunused
      have hused : bitAt exhausted.heap.bitmap k = usedBit := bitAt_full rfl
      rw [hused] at hunused
      cases hunused
    have hround := @workers_lifetime bareBuild exhausted 0 [startRound] (bitAt_full rfl)
      (List.cons_ne_nil startRound []) startRound_fair (by decide)
    exact hround.2 (by rw [hnone]; decide)

end HailOS.Boot
