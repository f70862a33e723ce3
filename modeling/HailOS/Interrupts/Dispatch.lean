import HailOS.APIC.LAPIC
import HailOS.Lib.Steps

/-!
# Interrupt dispatch

After `CPU/Interrupt/InterruptDispatch.cpp`, `PIC/PIC.hpp` and the handlers of
`Arch/x86_64/Interrupts`. `Dispatch` counts the interrupt, calls the handler of its vector, and
then signals the end of the interrupt for every vector that needs it. But the handlers of the timer
and of IRQ 0 signal it too.

`one_eoi_per_interrupt_iff` says that every interrupt that needs it gets exactly one signal, and no
other gets one, exactly if none of the dispatched vectors has one of these two handlers.
-/

namespace HailOS.Interrupts

open Lib APIC

/-- `struct InterruptFrame`. -/
structure InterruptFrame where
  rip : BitVec 64
  cs : BitVec 64
  rflags : BitVec 64
  rsp : BitVec 64
  ss : BitVec 64

/-- The arguments of `Dispatch`. -/
structure Interrupt where
  vec : BitVec 8
  frame : InterruptFrame
  hasError : Bool := false
  error : BitVec 64 := 0

/-- `IRQ_BASE`. -/
def irqBase : BitVec 8 := 0x20#8

/-- `VEC_ERROR`. -/
def vecError : BitVec 8 := 0x61#8

/-- `VEC_PIT_IRQ`. -/
def vecPITIRQ : BitVec 8 := 0x62#8

/-- `VEC_SPURIOUS`. -/
def vecSpurious : BitVec 8 := 0xFF#8

/-- `NeedsEOI`. -/
def needsEOI (vec : BitVec 8) : Bool :=
  if vec = vecSpurious then false
  else if vec = vecTimer ∨ vec = vecError then true
  else decide (vec ≥ irqBase) && decide (vec ≤ 0xFE#8)

/-- The write signals the end of an interrupt to the local APIC at `base`. -/
def isEOI (base : BitVec 64) : DeviceWrite → Bool
  | .mmio address _ => address == base + lapicEOI
  | .port _ _ => false

/-- The number of end-of-interrupt signals so far. -/
def eoiWrites (p : Platform) : Nat := p.writes.countP (isEOI p.base)

/-- A handler, or an event logger, that does not signal the end of the interrupt and leaves the
address of the local APIC alone. -/
structure QuietHandler where
  run : Interrupt → Platform → Platform
  apicBase : ∀ interrupt p, (run interrupt p).apicBase = p.apicBase
  lapicMMIOBase : ∀ interrupt p, (run interrupt p).lapicMMIOBase = p.lapicMMIOBase
  eoi : ∀ interrupt p, eoiWrites (run interrupt p) = eoiWrites p

/-- The handlers of `ExceptionHandlers.cpp`. -/
inductive CoreException where
  | ud
  | df
  | gp
  | pf
  deriving DecidableEq, Repr

/-- The functions that the handler table may point at. -/
inductive Handler where
  | onTimer
  | onIRQ0
  | exception (which : CoreException)
  | quiet (handler : QuietHandler)

/-- The static variables of `InterruptDispatch.cpp` together with what the handlers work on: the
devices, the tick count of the processor, the flag of the scheduler, the counter of `OnIRQ0` and the
texts sent to the bootstrap console, if there is one. -/
structure Dispatcher where
  platform : Platform
  handlers : BitVec 8 → Option Handler := fun _ => none
  vectorCounts : BitVec 8 → BitVec 64 := fun _ => 0
  eoi : Option (Platform → Platform) := none
  logger : Option QuietHandler := none
  tickCount : BitVec 64 := 0
  needReschedule : Bool := false
  irq0Count : BitVec 64 := 0
  console : Option (List String) := none
  /-- The processor is in the loop of `HaltProcessor`. -/
  halted : Bool := false

/-- `PIC::EOIMaster`. -/
def eoiMaster (p : Platform) : Platform := p.out8 0x20#16 0x20#8

/-- `PIC::EOISlave`. -/
def eoiSlave (p : Platform) : Platform := (p.out8 0xA0#16 0x20#8).out8 0x20#16 0x20#8

/-- `PIC::IsMasterVector`. -/
def isMasterVector (vec : BitVec 8) : Bool := decide (vec ≥ 0x20#8) && decide (vec ≤ 0x27#8)

/-- `PIC::IsSlaveVector`. -/
def isSlaveVector (vec : BitVec 8) : Bool := decide (vec ≥ 0x28#8) && decide (vec ≤ 0x2F#8)

/-- `DefaultEOI`. -/
def defaultEOI (p : Platform) : Platform :=
  p.store ((p.apicBase &&& 0xFFFFF000#64) + 0xB0#64) 0#32

/-- `EmitEOI`, for the emitter `gEOI`. -/
def emitEOI (eoi : Option (Platform → Platform)) (p : Platform) : Platform :=
  eoi.getD defaultEOI p

namespace Dispatcher

/-- `OnTimer`. -/
def onTimer (d : Dispatcher) : Dispatcher :=
  { d with
    tickCount := d.tickCount + 1
    needReschedule := true
    platform := d.platform.endOfInterrupt }

/-- `OnIRQ0`. The object of `GetBootstrapConsole` is taken to be granted: its page, and the panic if
there is none, are left out. -/
def onIRQ0 (d : Dispatcher) : Dispatcher :=
  let ctr := d.irq0Count + 1
  let d := { d with irq0Count := ctr }
  let d :=
    if ctr &&& 1023#64 = 0#64 then
      { d with console := d.console.map (· ++ ["[IOAPIC-IRQ0]\n"]) }
    else d
  { d with platform := d.platform.endOfInterrupt }

/-- Call a handler. The exception handlers print what they know and do not return. -/
def call (d : Dispatcher) (interrupt : Interrupt) : Handler → Dispatcher
  | .onTimer => d.onTimer
  | .onIRQ0 => d.onIRQ0
  | .exception _ => { d with halted := true }
  | .quiet handler => { d with platform := handler.run interrupt d.platform }

/-- The part of `Dispatch` before the handler: count the interrupt, and log the first one. -/
def count (d : Dispatcher) (interrupt : Interrupt) : Dispatcher :=
  let count := d.vectorCounts interrupt.vec + 1
  let d := { d with vectorCounts := Function.update d.vectorCounts interrupt.vec count }
  match d.logger with
  | some logger =>
      if count = 1 then { d with platform := logger.run interrupt d.platform } else d
  | none => d

/-- The part of `Dispatch` that calls the handler. -/
def handle (d : Dispatcher) (interrupt : Interrupt) : Dispatcher :=
  match d.handlers interrupt.vec with
  | some fn => d.call interrupt fn
  | none => d

/-- The part of `Dispatch` after the handler. -/
def finish (d : Dispatcher) (vec : BitVec 8) : Dispatcher :=
  if needsEOI vec then
    let p :=
      if vec = vecPITIRQ then eoiMaster d.platform
      else if isSlaveVector vec then eoiSlave d.platform
      else if isMasterVector vec then eoiMaster d.platform
      else d.platform
    { d with platform := emitEOI d.eoi p }
  else d

/-- `Dispatch`. If the handler does not return, the rest is not reached. -/
def dispatch (d : Dispatcher) (interrupt : Interrupt) : Dispatcher :=
  let d := (d.count interrupt).handle interrupt
  if d.halted then d else d.finish interrupt.vec

/-- `RegisterInterruptHandler`. -/
def registerInterruptHandler (d : Dispatcher) (vector : BitVec 8) (fn : Option Handler) :
    Bool × Dispatcher :=
  if fn.isNone then (false, d)
  else (true, { d with handlers := Function.update d.handlers vector fn })

/-- `InitTimerHandler`. -/
def initTimerHandler (d : Dispatcher) (vec : BitVec 8) : Dispatcher :=
  (d.registerInterruptHandler vec (some .onTimer)).2

/-- `InitIRQ0Handler`. -/
def initIRQ0Handler (d : Dispatcher) (vec : BitVec 8) : Dispatcher :=
  (d.registerInterruptHandler vec (some .onIRQ0)).2

/-- `InitCoreExceptionHandlers`. -/
def initCoreExceptionHandlers (d : Dispatcher) : Dispatcher :=
  let d := (d.registerInterruptHandler 6#8 (some (.exception .ud))).2
  let d := (d.registerInterruptHandler 8#8 (some (.exception .df))).2
  let d := (d.registerInterruptHandler 13#8 (some (.exception .gp))).2
  (d.registerInterruptHandler 14#8 (some (.exception .pf))).2

end Dispatcher

/-! ## Counting the signals -/

section Platform

variable {p : Platform}

theorem eoiWrites_out8 (port : BitVec 16) (value : BitVec 8) :
    eoiWrites (p.out8 port value) = eoiWrites p := by
  show (p.writes ++ [_]).countP (isEOI p.base) = _
  rw [List.countP_append, List.countP_singleton, isEOI, if_neg Bool.false_ne_true]
  rfl

/-- A write to the register counts. -/
theorem eoiWrites_store (value : BitVec 32) :
    eoiWrites (p.store (p.base + lapicEOI) value) = eoiWrites p + 1 := by
  show (p.writes ++ [_]).countP (isEOI p.base) = _
  rw [List.countP_append, List.countP_singleton, isEOI, if_pos (beq_self_eq_true _)]
  rfl

/-- `EndOfInterrupt` signals once. -/
theorem eoiWrites_endOfInterrupt (h : p.Enabled) :
    eoiWrites p.endOfInterrupt = eoiWrites p + 1 := by
  rw [Platform.endOfInterrupt, if_pos h.nonnull, Platform.lapicWrite, h.pointer, eoiWrites_store]

/-- So does `DefaultEOI`. -/
theorem eoiWrites_defaultEOI : eoiWrites (defaultEOI p) = eoiWrites p + 1 := eoiWrites_store _

theorem enabled_endOfInterrupt (h : p.Enabled) : p.endOfInterrupt.Enabled := by
  rw [Platform.endOfInterrupt, if_pos h.nonnull]
  exact h.lapicWrite _ _

theorem enabled_out8 (h : p.Enabled) (port : BitVec 16) (value : BitVec 8) :
    (p.out8 port value).Enabled := ⟨h.pointer, h.nonnull⟩

/-- A quiet handler leaves the local APIC enabled. -/
theorem QuietHandler.enabled (handler : QuietHandler) (interrupt : Interrupt) (h : p.Enabled) :
    (handler.run interrupt p).Enabled := by
  have hpointer := handler.lapicMMIOBase interrupt p
  refine ⟨?_, by rw [hpointer]; exact h.nonnull⟩
  rw [hpointer, h.pointer, Platform.base, Platform.base, handler.apicBase interrupt p]

/-- The emitter is unset or `EndOfInterrupt`. -/
def EmitsEOI (eoi : Option (Platform → Platform)) : Prop :=
  eoi = none ∨ eoi = some Platform.endOfInterrupt

/-- `EmitEOI` signals once. -/
theorem emitEOI_spec {eoi : Option (Platform → Platform)} (heoi : EmitsEOI eoi) (h : p.Enabled) :
    (emitEOI eoi p).Enabled ∧ eoiWrites (emitEOI eoi p) = eoiWrites p + 1 := by
  rcases heoi with rfl | rfl
  · exact ⟨⟨h.pointer, h.nonnull⟩, eoiWrites_defaultEOI⟩
  · exact ⟨enabled_endOfInterrupt h, eoiWrites_endOfInterrupt h⟩

end Platform

/-- `NeedsEOI` holds for every vector but the exceptions and the spurious one. -/
theorem needsEOI_iff (vec : BitVec 8) : needsEOI vec = true ↔ 0x20#8 ≤ vec ∧ vec ≠ 0xFF#8 := by
  unfold needsEOI
  by_cases hspurious : vec = vecSpurious
  · rw [if_pos hspurious]
    exact iff_of_false Bool.false_ne_true fun h => h.2 hspurious
  · rw [if_neg hspurious]
    by_cases hknown : vec = vecTimer ∨ vec = vecError
    · rw [if_pos hknown]
      refine iff_of_true rfl ⟨?_, hspurious⟩
      rcases hknown with rfl | rfl
      · decide
      · decide
    · rw [if_neg hknown, Bool.and_eq_true, decide_eq_true_iff, decide_eq_true_iff]
      have hlast : vec ≤ 0xFE#8 ↔ vec ≠ 0xFF#8 := by bv_omega
      rw [hlast]
      rfl

/-! ## One dispatch -/

/-- The handler signals the end of the interrupt itself. -/
def Handler.signalsEOI : Option Handler → Bool
  | some .onTimer => true
  | some .onIRQ0 => true
  | _ => false

/-- Exception handlers stand at vectors that need no signal. -/
def ExceptionsBelow (handlers : BitVec 8 → Option Handler) : Prop :=
  ∀ vec which, handlers vec = some (.exception which) → needsEOI vec = false

/-- What holds of the dispatcher throughout a run. -/
structure Ready (d : Dispatcher) : Prop where
  enabled : d.platform.Enabled
  emits : EmitsEOI d.eoi
  exceptions : ExceptionsBelow d.handlers

namespace Dispatcher

variable {d : Dispatcher} {interrupt : Interrupt}

/-- The part before the handler changes neither the tables nor the number of signals. -/
theorem count_spec (interrupt : Interrupt) (h : d.platform.Enabled) :
    (d.count interrupt).platform.Enabled ∧
      eoiWrites (d.count interrupt).platform = eoiWrites d.platform ∧
      (d.count interrupt).handlers = d.handlers ∧ (d.count interrupt).eoi = d.eoi ∧
      (d.count interrupt).halted = d.halted := by
  unfold count
  cases d.logger with
  | none => exact ⟨h, rfl, rfl, rfl, rfl⟩
  | some logger =>
      dsimp only
      split
      · exact ⟨logger.enabled interrupt h, logger.eoi interrupt _, rfl, rfl, rfl⟩
      · exact ⟨h, rfl, rfl, rfl, rfl⟩

/-- Calling the handler signals once or not at all, and only an exception handler halts. -/
theorem handle_spec (interrupt : Interrupt) (h : d.platform.Enabled)
    (hrunning : d.halted = false) :
    (d.handle interrupt).platform.Enabled ∧
      eoiWrites (d.handle interrupt).platform =
        eoiWrites d.platform + (Handler.signalsEOI (d.handlers interrupt.vec)).toNat ∧
      (d.handle interrupt).handlers = d.handlers ∧ (d.handle interrupt).eoi = d.eoi ∧
      ((d.handle interrupt).halted = true →
        ∃ which, d.handlers interrupt.vec = some (.exception which)) := by
  have hnot : ¬ d.halted = true := by
    rw [hrunning]
    exact Bool.false_ne_true
  unfold handle
  cases d.handlers interrupt.vec with
  | none => exact ⟨h, rfl, rfl, rfl, fun hhalted => absurd hhalted hnot⟩
  | some fn =>
      cases fn with
      | onTimer =>
          exact ⟨enabled_endOfInterrupt h, eoiWrites_endOfInterrupt h, rfl, rfl,
            fun hhalted => absurd hhalted hnot⟩
      | onIRQ0 =>
          simp only [call, onIRQ0]
          split
          · exact ⟨enabled_endOfInterrupt h, eoiWrites_endOfInterrupt h, rfl, rfl,
              fun hhalted => absurd hhalted hnot⟩
          · exact ⟨enabled_endOfInterrupt h, eoiWrites_endOfInterrupt h, rfl, rfl,
              fun hhalted => absurd hhalted hnot⟩
      | exception which => exact ⟨h, rfl, rfl, rfl, fun _ => ⟨which, rfl⟩⟩
      | quiet handler =>
          exact ⟨handler.enabled interrupt h, handler.eoi interrupt _, rfl, rfl,
            fun hhalted => absurd hhalted hnot⟩

/-- The part after the handler signals once if the vector needs it. -/
theorem finish_spec (h : d.platform.Enabled) (heoi : EmitsEOI d.eoi) (vec : BitVec 8) :
    (d.finish vec).platform.Enabled ∧
      eoiWrites (d.finish vec).platform = eoiWrites d.platform + (needsEOI vec).toNat ∧
      (d.finish vec).handlers = d.handlers ∧ (d.finish vec).eoi = d.eoi := by
  unfold finish
  cases needsEOI vec with
  | false => exact ⟨h, rfl, rfl, rfl⟩
  | true =>
      -- the legacy controllers are signalled through ports, before the local APIC
      have hmaster : (eoiMaster d.platform).Enabled ∧
          eoiWrites (eoiMaster d.platform) = eoiWrites d.platform :=
        ⟨enabled_out8 h _ _, eoiWrites_out8 _ _⟩
      have hslave : (eoiSlave d.platform).Enabled ∧
          eoiWrites (eoiSlave d.platform) = eoiWrites d.platform :=
        ⟨enabled_out8 (enabled_out8 h _ _) _ _, (eoiWrites_out8 _ _).trans (eoiWrites_out8 _ _)⟩
      have hemit : ∀ p : Platform, p.Enabled ∧ eoiWrites p = eoiWrites d.platform →
          (emitEOI d.eoi p).Enabled ∧ eoiWrites (emitEOI d.eoi p) = eoiWrites d.platform + 1 := by
        intro p hp
        obtain ⟨henabled, hcount⟩ := emitEOI_spec heoi hp.1
        exact ⟨henabled, by rw [hcount, hp.2]⟩
      rw [if_pos rfl]
      refine ⟨(hemit _ ?_).1, (hemit _ ?_).2, rfl, rfl⟩
      all_goals
        split
        · exact hmaster
        · split
          · exact hslave
          · split
            · exact hmaster
            · exact ⟨h, rfl⟩

/-- What one dispatch does: one signal if the vector needs it, and one more if the handler signals
as well. -/
theorem dispatch_spec (h : Ready d) (hrunning : d.halted = false) :
    Ready (d.dispatch interrupt) ∧ (d.dispatch interrupt).handlers = d.handlers ∧
      eoiWrites (d.dispatch interrupt).platform =
        eoiWrites d.platform + (needsEOI interrupt.vec).toNat +
          (Handler.signalsEOI (d.handlers interrupt.vec)).toNat := by
  obtain ⟨hcounted, hcount, htable, heoi, hhalted⟩ := count_spec interrupt h.enabled
  obtain ⟨hhandled, hsignals, htable', heoi', hexception⟩ :=
    handle_spec interrupt hcounted (hhalted.trans hrunning)
  rw [htable] at hsignals htable' hexception
  rw [hcount] at hsignals
  rw [heoi] at heoi'
  unfold dispatch
  dsimp only
  by_cases hstop : ((d.count interrupt).handle interrupt).halted = true
  · rw [if_pos hstop]
    obtain ⟨which, hwhich⟩ := hexception hstop
    refine ⟨⟨hhandled, heoi' ▸ h.emits, htable' ▸ h.exceptions⟩, htable', ?_⟩
    rw [hsignals, h.exceptions _ _ hwhich]
    rfl
  · rw [if_neg hstop]
    obtain ⟨hfinished, hfinal, htable'', heoi''⟩ :=
      finish_spec hhandled (heoi' ▸ h.emits) interrupt.vec
    refine ⟨⟨hfinished, ?_, ?_⟩, htable''.trans htable', ?_⟩
    · rw [heoi'', heoi']
      exact h.emits
    · rw [htable'', htable']
      exact h.exceptions
    · rw [hfinal, hsignals]
      omega

end Dispatcher

/-! ## Sequences of interrupts -/

/-- One dispatch. A halted processor takes no interrupt. -/
def DispatchStep (d : Dispatcher) (interrupt : Interrupt) (d' : Dispatcher) : Prop :=
  d.halted = false ∧ d' = d.dispatch interrupt

/-- The signals of a whole run. -/
theorem run_eoiWrites {d d' : Dispatcher} {interrupts : List Interrupt} (h : Ready d)
    (hrun : Steps DispatchStep d interrupts d') :
    eoiWrites d'.platform =
      eoiWrites d.platform + interrupts.countP (fun i => needsEOI i.vec) +
        interrupts.countP (fun i => Handler.signalsEOI (d.handlers i.vec)) := by
  induction hrun with
  | refl => rfl
  | cons hstep _ ih =>
      obtain ⟨hrunning, rfl⟩ := hstep
      obtain ⟨hready, htable, hcount⟩ := Dispatcher.dispatch_spec h hrunning
      rw [ih hready, hcount, htable, List.countP_cons, List.countP_cons]
      simp only [Bool.toNat, Bool.cond_eq_ite]
      omega

/-- What fills the handler table. -/
inductive Registration where
  | initTimerHandler (vec : BitVec 8)
  | initIRQ0Handler (vec : BitVec 8)
  | initCoreExceptionHandlers
  | registerInterruptHandler (vector : BitVec 8) (handler : QuietHandler)

/-- Make a registration. -/
def Registration.apply (d : Dispatcher) : Registration → Dispatcher
  | initTimerHandler vec => d.initTimerHandler vec
  | initIRQ0Handler vec => d.initIRQ0Handler vec
  | initCoreExceptionHandlers => d.initCoreExceptionHandlers
  | registerInterruptHandler vector handler =>
      (d.registerInterruptHandler vector (some (.quiet handler))).2

/-- Fill the handler table. -/
def fillTable (d : Dispatcher) (registrations : List Registration) : Dispatcher :=
  registrations.foldl Registration.apply d

/-- Registering a handler keeps the exception handlers where no signal is needed. -/
theorem Ready.register {d : Dispatcher} (h : Ready d) {vector : BitVec 8} {fn : Handler}
    (hfn : ∀ which, fn = .exception which → needsEOI vector = false) :
    Ready (d.registerInterruptHandler vector (some fn)).2 := by
  refine ⟨h.enabled, h.emits, ?_⟩
  intro vec which hwhich
  replace hwhich : Function.update d.handlers vector (some fn) vec = _ := hwhich
  by_cases hvec : vec = vector
  · rw [hvec, Function.update_self, Option.some.injEq] at hwhich
    rw [hvec]
    exact hfn which hwhich
  · rw [Function.update_of_ne hvec] at hwhich
    exact h.exceptions vec which hwhich

theorem Ready.registration {d : Dispatcher} (h : Ready d) (registration : Registration) :
    Ready (registration.apply d) := by
  cases registration with
  | initTimerHandler vec => exact h.register fun _ heq => nomatch heq
  | initIRQ0Handler vec => exact h.register fun _ heq => nomatch heq
  | initCoreExceptionHandlers =>
      exact (((h.register fun _ _ => rfl).register fun _ _ => rfl).register
        fun _ _ => rfl).register fun _ _ => rfl
  | registerInterruptHandler vector handler => exact h.register fun _ heq => nomatch heq

theorem Ready.fillTable {d : Dispatcher} (h : Ready d) (registrations : List Registration) :
    Ready (fillTable d registrations) := by
  unfold Interrupts.fillTable
  refine foldl_invariant ?_ registrations h
  intro d registration hd
  exact hd.registration registration

/-- Every interrupt that needs it was signalled once, and no other: none for the exceptions and the
spurious vector, and one for every other vector. -/
structure OneEOIPerInterrupt (d d' : Dispatcher) (interrupts : List Interrupt) : Prop where
  total : eoiWrites d'.platform =
    eoiWrites d.platform + interrupts.countP (fun i => needsEOI i.vec)
  needed : ∀ vec, needsEOI vec = true ↔ 0x20#8 ≤ vec ∧ vec ≠ 0xFF#8

/-- In every run with the local APIC enabled, over a table filled by the registrations, every
interrupt gets the signals it needs iff no dispatched vector has `OnTimer` or `OnIRQ0` for its
handler. -/
theorem one_eoi_per_interrupt_iff {d d' : Dispatcher} {registrations : List Registration}
    {interrupts : List Interrupt} (hempty : d.handlers = fun _ => none)
    (henabled : d.platform.Enabled) (hemits : EmitsEOI d.eoi)
    (hrun : Steps DispatchStep (fillTable d registrations) interrupts d') :
    OneEOIPerInterrupt (fillTable d registrations) d' interrupts ↔
      ∀ i ∈ interrupts,
        Handler.signalsEOI ((fillTable d registrations).handlers i.vec) = false := by
  have hready : Ready d := ⟨henabled, hemits, fun vec which h => by simp [hempty] at h⟩
  have hcount := run_eoiWrites (hready.fillTable registrations) hrun
  have hnone : (∀ i ∈ interrupts,
      Handler.signalsEOI ((fillTable d registrations).handlers i.vec) = false) ↔
      interrupts.countP
        (fun i => Handler.signalsEOI ((fillTable d registrations).handlers i.vec)) = 0 := by
    simp only [List.countP_eq_zero, Bool.not_eq_true]
  rw [hnone]
  constructor
  · intro hone
    have htotal := hone.total
    omega
  · intro hzero
    exact ⟨by omega, needsEOI_iff⟩

/-- An interrupt without a frame of interest. -/
def interruptAt (vec : BitVec 8) : Interrupt := ⟨vec, ⟨0, 0, 0, 0, 0⟩, false, 0⟩

/-- The dispatcher with the local APIC enabled and nothing registered. -/
def emptyDispatcher : Dispatcher := { platform := enabledPlatform }

/-- With the timer handler in the table, an interrupt of another vector gets its one signal. -/
theorem one_eoi_keyboard :
    OneEOIPerInterrupt (fillTable emptyDispatcher [.initTimerHandler 0x60#8])
      ((fillTable emptyDispatcher [.initTimerHandler 0x60#8]).dispatch (interruptAt 0x21#8))
      [interruptAt 0x21#8] := by
  refine (one_eoi_per_interrupt_iff rfl enabledPlatform_enabled (.inl rfl)
    (.cons ⟨rfl, rfl⟩ (.refl _))).2 ?_
  intro i hi
  rw [List.mem_singleton.1 hi]
  rfl

/-- A timer interrupt is signalled twice. -/
theorem timer_interrupt_signalled_twice :
    Steps DispatchStep (fillTable emptyDispatcher [.initTimerHandler 0x60#8])
        [interruptAt 0x60#8]
        ((fillTable emptyDispatcher [.initTimerHandler 0x60#8]).dispatch (interruptAt 0x60#8)) ∧
      eoiWrites (fillTable emptyDispatcher [.initTimerHandler 0x60#8]).platform = 0 ∧
      eoiWrites ((fillTable emptyDispatcher [.initTimerHandler 0x60#8]).dispatch
        (interruptAt 0x60#8)).platform = 2 ∧
      ¬ OneEOIPerInterrupt (fillTable emptyDispatcher [.initTimerHandler 0x60#8])
        ((fillTable emptyDispatcher [.initTimerHandler 0x60#8]).dispatch (interruptAt 0x60#8))
        [interruptAt 0x60#8] := by
  have htwice : eoiWrites ((fillTable emptyDispatcher [.initTimerHandler 0x60#8]).dispatch
      (interruptAt 0x60#8)).platform = 2 := by decide
  refine ⟨.cons ⟨rfl, rfl⟩ (.refl _), rfl, htwice, ?_⟩
  intro hone
  have htotal := hone.total
  rw [htwice] at htotal
  exact absurd htotal (by decide)

end HailOS.Interrupts
