import HailOS.Interrupts.Dispatch
import HailOS.Lib.InterruptController

/-!
# Interrupts in service

The local APIC keeps an interrupt in service until its end is signalled, and holds back every
interrupt of the same or a lower class meanwhile. A system here is the dispatcher of the kernel
together with that part of the local APIC. Requests come at any time, also while an interrupt is
handled. The gates of the IDT are interrupt gates, so no interrupt is delivered then.

`Dispatch` signals the end of some interrupts twice. `service_ends_iff` says that this is harmless:
in a run nothing stays in service exactly if every delivered vector is signalled at all.
`served_in_turn` says that no interrupt is lost, and how many are served before it, and
`ticks_steps` relates the tick count to the timer.
-/

namespace HailOS.Interrupts

open Lib APIC

/-- The kernel with the request and in-service registers of the local APIC. -/
structure System where
  dispatcher : Dispatcher
  controller : Controller ℕ := {}

/-- The priority class of a vector. -/
def vectorClass (vec : ℕ) : ℕ := vec / 16

/-- What happens. The signals of an interrupt are those that the local APIC gets while it is
handled, in their order. -/
inductive SystemOp where
  /-- A device requests an interrupt. -/
  | raise (vec : BitVec 8)
  /-- An interrupt that the local APIC delivers. -/
  | external (interrupt : Interrupt) (during : List (Signal ℕ))
  /-- An exception, a software interrupt or a spurious one. -/
  | internal (interrupt : Interrupt) (during : List (Signal ℕ))

/-- The signals that end an interrupt are those that the kernel writes. -/
def System.Signals (sys : System) (interrupt : Interrupt) (during : List (Signal ℕ)) : Prop :=
  eoiWrites sys.dispatcher.platform + during.countP Signal.isEnd =
    eoiWrites (sys.dispatcher.dispatch interrupt).platform

instance (sys : System) (interrupt : Interrupt) (during : List (Signal ℕ)) :
    Decidable (sys.Signals interrupt during) :=
  inferInstanceAs (Decidable (_ = _))

/-- One event. A halted processor takes no interrupt. -/
def System.exec (sys : System) : SystemOp → Option System
  | .raise vec => some { sys with controller := sys.controller.raise vec.toNat }
  | .external interrupt during =>
      if sys.dispatcher.halted = false ∧
          sys.controller.next vectorClass = some interrupt.vec.toNat ∧
          sys.Signals interrupt during then
        some ⟨sys.dispatcher.dispatch interrupt,
          (sys.controller.accept interrupt.vec.toNat).handle during⟩
      else none
  | .internal interrupt during =>
      if sys.dispatcher.halted = false ∧ sys.Signals interrupt during then
        some ⟨sys.dispatcher.dispatch interrupt, sys.controller.handle during⟩
      else none

/-- The transitions of the system. -/
def SystemStep (sys : System) (op : SystemOp) (sys' : System) : Prop := sys.exec op = some sys'

variable {sys sys' start finish : System} {op : SystemOp} {ops : List SystemOp} {v : ℕ}

/-- Everything that an event can do. -/
theorem systemStep_cases (h : SystemStep sys op sys') :
    (∃ vec, op = .raise vec ∧ sys' = { sys with controller := sys.controller.raise vec.toNat }) ∨
    (∃ interrupt during, op = .external interrupt during ∧ sys.dispatcher.halted = false ∧
      sys.controller.next vectorClass = some interrupt.vec.toNat ∧ sys.Signals interrupt during ∧
      sys' = ⟨sys.dispatcher.dispatch interrupt,
        (sys.controller.accept interrupt.vec.toNat).handle during⟩) ∨
    (∃ interrupt during, op = .internal interrupt during ∧ sys.dispatcher.halted = false ∧
      sys.Signals interrupt during ∧
      sys' = ⟨sys.dispatcher.dispatch interrupt, sys.controller.handle during⟩) := by
  cases op with
  | raise vec => exact .inl ⟨vec, rfl, (Option.some.inj h).symm⟩
  | external interrupt during =>
      obtain ⟨⟨hrunning, hnext, hsignals⟩, heq⟩ := Option.ite_none_right_eq_some.mp h
      exact .inr (.inl ⟨interrupt, during, rfl, hrunning, hnext, hsignals,
        (Option.some.inj heq).symm⟩)
  | internal interrupt during =>
      obtain ⟨⟨hrunning, hsignals⟩, heq⟩ := Option.ite_none_right_eq_some.mp h
      exact .inr (.inr ⟨interrupt, during, rfl, hrunning, hsignals, (Option.some.inj heq).symm⟩)

/-- The end of the interrupt is signalled, by `Dispatch` or by the handler. -/
def signalled (handlers : BitVec 8 → Option Handler) (vec : BitVec 8) : Bool :=
  needsEOI vec || Handler.signalsEOI (handlers vec)

/-- The vector of a delivered interrupt. -/
def SystemOp.delivered : SystemOp → Option (BitVec 8)
  | .external interrupt _ => some interrupt.vec
  | .raise _ | .internal .. => none

/-! ## What one event does -/

/-- While an interrupt is handled, its end is signalled as often as the two parts of `Dispatch`
do it. -/
theorem System.Signals.any_eq {interrupt : Interrupt} {during : List (Signal ℕ)}
    (hready : Ready sys.dispatcher) (hrunning : sys.dispatcher.halted = false)
    (h : sys.Signals interrupt during) :
    during.any Signal.isEnd = signalled sys.dispatcher.handlers interrupt.vec := by
  obtain ⟨-, -, hcount⟩ : Ready (sys.dispatcher.dispatch interrupt) ∧ _ ∧ _ :=
    Dispatcher.dispatch_spec hready hrunning
  have hsum : during.countP Signal.isEnd = (needsEOI interrupt.vec).toNat +
      (Handler.signalsEOI (sys.dispatcher.handlers interrupt.vec)).toNat := by
    rw [System.Signals] at h
    omega
  have hsome : ∀ b c : Bool, 0 < b.toNat + c.toNat ↔ (b || c) = true := by decide
  rw [Bool.eq_iff_iff, List.any_eq_true, ← List.countP_pos_iff, hsum]
  exact hsome _ _

/-- The tables of the dispatcher stay as they are. -/
theorem SystemStep.dispatcher (hready : Ready sys.dispatcher) (h : SystemStep sys op sys') :
    Ready sys'.dispatcher ∧ sys'.dispatcher.handlers = sys.dispatcher.handlers := by
  obtain ⟨vec, rfl, rfl⟩ | ⟨interrupt, during, rfl, hrunning, -, -, rfl⟩ |
    ⟨interrupt, during, rfl, hrunning, -, rfl⟩ := systemStep_cases h
  · exact ⟨hready, rfl⟩
  · obtain ⟨hready', hhandlers, -⟩ := Dispatcher.dispatch_spec hready hrunning
    exact ⟨hready', hhandlers⟩
  · obtain ⟨hready', hhandlers, -⟩ := Dispatcher.dispatch_spec hready hrunning
    exact ⟨hready', hhandlers⟩

/-- With nothing in service, an event leaves nothing in service exactly if it is not the delivery
of a vector that is not signalled. -/
theorem SystemStep.idle_iff (hready : Ready sys.dispatcher) (hidle : sys.controller.inService = ∅)
    (h : SystemStep sys op sys') :
    sys'.controller.inService = ∅ ↔
      ∀ vec ∈ op.delivered, signalled sys.dispatcher.handlers vec = true := by
  obtain ⟨vec, rfl, rfl⟩ | ⟨interrupt, during, rfl, hrunning, -, hsignals, rfl⟩ |
    ⟨interrupt, during, rfl, hrunning, -, rfl⟩ := systemStep_cases h
  · exact iff_of_true hidle (by simp [SystemOp.delivered])
  · have hserved : (sys.controller.accept interrupt.vec.toNat).inService =
        {interrupt.vec.toNat} := by
      show insert _ sys.controller.inService = _
      rw [hidle, insert_empty_eq]
    show ((sys.controller.accept interrupt.vec.toNat).handle during).inService = ∅ ↔ _
    rw [Controller.handle_served hserved, hsignals.any_eq hready hrunning]
    cases hsignalled : signalled sys.dispatcher.handlers interrupt.vec with
    | true => simp [SystemOp.delivered, hsignalled]
    | false => simp [SystemOp.delivered, hsignalled]
  · exact iff_of_true (Controller.handle_idle hidle) (by simp [SystemOp.delivered])

/-! ## Runs -/

/-- The events that deliver an interrupt. -/
def deliveries (ops : List SystemOp) : List (BitVec 8) := ops.filterMap SystemOp.delivered

theorem mem_deliveries {vec : BitVec 8} :
    vec ∈ deliveries ops ↔ ∃ op ∈ ops, vec ∈ op.delivered := by
  simp [deliveries]

/-- A property of all delivered vectors. -/
theorem forall_deliveries_cons {P : BitVec 8 → Prop} :
    (∀ vec ∈ deliveries (op :: ops), P vec) ↔
      (∀ vec ∈ op.delivered, P vec) ∧ ∀ vec ∈ deliveries ops, P vec := by
  simp only [mem_deliveries, List.mem_cons]
  constructor
  · intro h
    exact ⟨fun vec hvec => h vec ⟨op, .inl rfl, hvec⟩,
      fun vec ⟨op', hop', hvec⟩ => h vec ⟨op', .inr hop', hvec⟩⟩
  · rintro ⟨hfirst, hrest⟩ vec ⟨op', rfl | hop', hvec⟩
    · exact hfirst vec hvec
    · exact hrest vec ⟨op', hop', hvec⟩

theorem dispatcher_steps (hready : Ready start.dispatcher)
    (hrun : Steps SystemStep start ops finish) :
    Ready finish.dispatcher ∧ finish.dispatcher.handlers = start.dispatcher.handlers := by
  induction hrun with
  | refl => exact ⟨hready, rfl⟩
  | cons hstep _ ih =>
      obtain ⟨hready', hhandlers⟩ := hstep.dispatcher hready
      obtain ⟨hready'', hhandlers'⟩ := ih hready'
      exact ⟨hready'', hhandlers'.trans hhandlers⟩

/-- If every delivered vector is signalled, nothing stays in service. -/
theorem idle_steps (hready : Ready start.dispatcher) (hidle : start.controller.inService = ∅)
    (hrun : Steps SystemStep start ops finish)
    (hsignalled : ∀ vec ∈ deliveries ops, signalled start.dispatcher.handlers vec = true) :
    finish.controller.inService = ∅ := by
  induction hrun with
  | refl => exact hidle
  | @cons start middle finish op ops hstep _ ih =>
      obtain ⟨hready', hhandlers⟩ := hstep.dispatcher hready
      obtain ⟨hfirst, hrest⟩ := forall_deliveries_cons.mp hsignalled
      refine ih hready' ((hstep.idle_iff hready hidle).mpr hfirst) ?_
      rw [hhandlers]
      exact hrest

/-- Signalling an interrupt twice is harmless, and not signalling it is not. In a run in which
requests come at any time, nothing is in service between any two events exactly if every delivered
vector is signalled, by `Dispatch` or by its handler. -/
theorem service_ends_iff (hready : Ready start.dispatcher)
    (hidle : start.controller.inService = ∅) (hrun : Steps SystemStep start ops finish) :
    (∀ before after sys, ops = before ++ after → Steps SystemStep start before sys →
        sys.controller.inService = ∅) ↔
      ∀ vec ∈ deliveries ops, signalled start.dispatcher.handlers vec = true := by
  constructor
  · intro hall vec hvec
    obtain ⟨op, hop, hdelivered⟩ := mem_deliveries.mp hvec
    obtain ⟨before, after, rfl⟩ := List.append_of_mem hop
    obtain ⟨sys, hbefore, hrest⟩ := hrun.of_append
    cases hrest with
    | @cons _ sys' _ _ _ hstep _ =>
        have hidle₁ := hall before (op :: after) sys rfl hbefore
        have hidle₂ := hall (before ++ [op]) after sys' (by simp) (hbefore.snoc hstep)
        obtain ⟨hready', hhandlers⟩ := dispatcher_steps hready hbefore
        have hsignalled := (hstep.idle_iff hready' hidle₁).mp hidle₂ vec hdelivered
        rwa [hhandlers] at hsignalled
  · intro hall before after sys hops hbefore
    refine idle_steps hready hidle hbefore fun vec hvec => hall vec ?_
    obtain ⟨op, hop, hdelivered⟩ := mem_deliveries.mp hvec
    exact mem_deliveries.mpr ⟨op, hops ▸ List.mem_append_left _ hop, hdelivered⟩

/-- The kernel with the timer's handler registered. -/
def timerSystem : System where
  dispatcher := fillTable emptyDispatcher [.initTimerHandler vecTimer]

theorem timerSystem_ready : Ready timerSystem.dispatcher := by
  refine Ready.fillTable ⟨enabledPlatform_enabled, .inl rfl, ?_⟩ _
  intro vec which hwhich
  cases hwhich

/-- The timer expires twice and is served once, and a device requests its interrupt meanwhile. -/
def timerOps : List SystemOp :=
  [.raise vecTimer, .raise vecTimer,
    .external (interruptAt vecTimer) [.endOfInterrupt, .raise 0x21, .endOfInterrupt],
    .external (interruptAt 0x21#8) [.endOfInterrupt]]

theorem timerOps_run : ∃ finish, Steps SystemStep timerSystem timerOps finish := by
  have heval : (timerOps.foldlM System.exec timerSystem).isSome = true := by decide +kernel
  obtain ⟨finish, hfinish⟩ := Option.isSome_iff_exists.mp heval
  exact ⟨finish, Steps.of_foldlM hfinish⟩

/-- The timer's interrupt is signalled twice, the device's once, and nothing stays in service. -/
theorem service_ends_timer : ∃ finish, Steps SystemStep timerSystem timerOps finish ∧
    ∀ before after sys, timerOps = before ++ after → Steps SystemStep timerSystem before sys →
      sys.controller.inService = ∅ := by
  obtain ⟨finish, hrun⟩ := timerOps_run
  have hsignalled : ∀ vec ∈ deliveries timerOps,
      signalled timerSystem.dispatcher.handlers vec = true := by decide
  exact ⟨finish, hrun, (service_ends_iff timerSystem_ready rfl hrun).mpr hsignalled⟩

/-! ## Waiting interrupts -/

/-- The signals that an event passes to the local APIC. -/
def SystemOp.signals : SystemOp → List (Signal ℕ)
  | .raise vec => [.raise vec.toNat]
  | .external _ during => during
  | .internal _ during => during

/-- A requested interrupt stays requested while others are delivered. They are higher ones, and
each of them was ahead of it or was requested meanwhile. -/
theorem SystemStep.waits (hv : v ∈ sys.controller.requested) (h : SystemStep sys op sys')
    (hother : ∀ vec ∈ op.delivered, vec.toNat ≠ v) :
    v ∈ sys'.controller.requested ∧
      sys'.controller.ahead v + op.delivered.toList.length ≤
        sys.controller.ahead v + op.signals.countP (Signal.above v) := by
  obtain ⟨vec, rfl, rfl⟩ | ⟨interrupt, during, rfl, -, hnext, -, rfl⟩ |
    ⟨interrupt, during, rfl, -, -, rfl⟩ := systemStep_cases h
  · refine ⟨Finset.mem_insert_of_mem hv, ?_⟩
    show (sys.controller.handle [.raise vec.toNat]).ahead v ≤ _
    exact Controller.ahead_handle_le
  · obtain ⟨hmem, hhighest⟩ := Controller.next_eq_some hnext
    have hne : interrupt.vec.toNat ≠ v := hother _ rfl
    have hlt : v < interrupt.vec.toNat := lt_of_le_of_ne (hhighest v hv) hne.symm
    refine ⟨Controller.mem_requested_handle.mpr (.inl (Finset.mem_erase.mpr ⟨hne.symm, hv⟩)), ?_⟩
    have haccept := Controller.ahead_accept hmem hlt
    calc ((sys.controller.accept interrupt.vec.toNat).handle during).ahead v + 1
        ≤ (sys.controller.accept interrupt.vec.toNat).ahead v +
            during.countP (Signal.above v) + 1 := Nat.add_le_add_right Controller.ahead_handle_le 1
      _ = sys.controller.ahead v + during.countP (Signal.above v) := by omega
  · exact ⟨Controller.mem_requested_handle.mpr (.inl hv), Controller.ahead_handle_le⟩

/-- The same for a run. -/
theorem waits_steps (hv : v ∈ start.controller.requested)
    (hrun : Steps SystemStep start ops finish) (hother : ∀ vec ∈ deliveries ops, vec.toNat ≠ v) :
    v ∈ finish.controller.requested ∧
      finish.controller.ahead v + (deliveries ops).length ≤
        start.controller.ahead v + (ops.flatMap SystemOp.signals).countP (Signal.above v) := by
  induction hrun with
  | refl => exact ⟨hv, Nat.le_refl _⟩
  | @cons start middle finish op ops hstep _ ih =>
      obtain ⟨hotherFirst, hotherRest⟩ := forall_deliveries_cons.mp hother
      obtain ⟨hv', hfirst⟩ := hstep.waits hv hotherFirst
      obtain ⟨hv'', hrest⟩ := ih hv' hotherRest
      have hlength : (deliveries (op :: ops)).length =
          op.delivered.toList.length + (deliveries ops).length := by
        rw [deliveries, List.filterMap_cons]
        cases op.delivered with
        | none => simp [deliveries]
        | some vec => simp [deliveries, Nat.add_comm]
      rw [hlength, List.flatMap_cons, List.countP_append]
      exact ⟨hv'', by omega⟩

/-- The requests are for vectors of 8 bits, and stay so if those that come are. -/
theorem SystemStep.vectors (hvectors : ∀ w ∈ sys.controller.requested, w < 2 ^ 8)
    (h : SystemStep sys op sys') (hsignals : ∀ w, .raise w ∈ op.signals → w < 2 ^ 8) :
    ∀ w ∈ sys'.controller.requested, w < 2 ^ 8 := by
  intro w hw
  obtain ⟨vec, rfl, rfl⟩ | ⟨interrupt, during, rfl, -, -, -, rfl⟩ |
    ⟨interrupt, during, rfl, -, -, rfl⟩ := systemStep_cases h
  · obtain rfl | hw := Finset.mem_insert.mp hw
    · exact vec.isLt
    · exact hvectors w hw
  · obtain hw | hw := Controller.mem_requested_handle.mp hw
    · exact hvectors w (Finset.mem_of_mem_erase hw)
    · exact hsignals w hw
  · obtain hw | hw := Controller.mem_requested_handle.mp hw
    · exact hvectors w hw
    · exact hsignals w hw

theorem vectors_steps (hvectors : ∀ w ∈ start.controller.requested, w < 2 ^ 8)
    (hrun : Steps SystemStep start ops finish)
    (hsignals : ∀ w, .raise w ∈ ops.flatMap SystemOp.signals → w < 2 ^ 8) :
    ∀ w ∈ finish.controller.requested, w < 2 ^ 8 := by
  induction hrun with
  | refl => exact hvectors
  | @cons start middle finish op ops hstep _ ih =>
      simp only [List.flatMap_cons, List.mem_append, or_imp, forall_and] at hsignals
      exact ih (hstep.vectors hvectors hsignals.1) hsignals.2

/-- The interrupt that is next is delivered, unless the processor is halted. -/
theorem exists_delivery (hready : Ready sys.dispatcher) (hrunning : sys.dispatcher.halted = false)
    {interrupt : Interrupt} (hnext : sys.controller.next vectorClass = some interrupt.vec.toNat) :
    ∃ during sys', SystemStep sys (.external interrupt during) sys' := by
  obtain ⟨-, -, hcount⟩ : Ready (sys.dispatcher.dispatch interrupt) ∧ _ ∧ _ :=
    Dispatcher.dispatch_spec hready hrunning
  let ends : List (Signal ℕ) := List.replicate ((needsEOI interrupt.vec).toNat +
    (Handler.signalsEOI (sys.dispatcher.handlers interrupt.vec)).toNat) .endOfInterrupt
  have hsignals : sys.Signals interrupt ends := by
    have hisEnd : Signal.isEnd (.endOfInterrupt : Signal ℕ) = true := rfl
    rw [System.Signals, hcount, List.countP_replicate, if_pos hisEnd, Nat.add_assoc]
  exact ⟨ends, _, if_pos ⟨hrunning, hnext, hsignals⟩⟩

/-- No interrupt is lost. Let a vector be requested, with nothing in service, and let every vector
that is delivered be signalled. As long as it is not delivered itself it stays requested. It or a
higher one is next, and is delivered unless an exception has halted the processor. At most as many
are delivered before it as there are higher requests, before and meanwhile. -/
theorem served_in_turn (hready : Ready start.dispatcher)
    (hidle : start.controller.inService = ∅)
    (hvectors : ∀ w ∈ start.controller.requested, w < 2 ^ 8) (hv : v ∈ start.controller.requested)
    (hrun : Steps SystemStep start ops finish)
    (hsignals : ∀ w, .raise w ∈ ops.flatMap SystemOp.signals → w < 2 ^ 8)
    (hsignalled : ∀ vec ∈ deliveries ops, signalled start.dispatcher.handlers vec = true)
    (hother : ∀ vec ∈ deliveries ops, vec.toNat ≠ v) :
    v ∈ finish.controller.requested ∧
      (∃ vec : BitVec 8, v ≤ vec.toNat ∧ finish.controller.next vectorClass = some vec.toNat ∧
        (finish.dispatcher.halted = false → ∀ interrupt : Interrupt, interrupt.vec = vec →
          ∃ during sys', SystemStep finish (.external interrupt during) sys')) ∧
      (deliveries ops).length ≤
        start.controller.ahead v + (ops.flatMap SystemOp.signals).countP (Signal.above v) := by
  obtain ⟨hv', hcount⟩ := waits_steps hv hrun hother
  obtain ⟨hready', -⟩ := dispatcher_steps hready hrun
  obtain ⟨w, hnext, hle⟩ : ∃ w, finish.controller.next vectorClass = some w ∧ v ≤ w :=
    Controller.next_of_idle (idle_steps hready hidle hrun hsignalled) hv'
  have hw : w < 2 ^ 8 := vectors_steps hvectors hrun hsignals w (Controller.next_eq_some hnext).1
  have hvec : (BitVec.ofNat 8 w).toNat = w := by rw [BitVec.toNat_ofNat, Nat.mod_eq_of_lt hw]
  refine ⟨hv', ⟨BitVec.ofNat 8 w, by rw [hvec]; exact hle, by rw [hvec]; exact hnext, ?_⟩, by omega⟩
  intro hrunning interrupt hinterrupt
  exact exists_delivery hready' hrunning (by rw [hinterrupt, hvec]; exact hnext)

/-- The device's interrupt waits for the timer's, and can be delivered after it. -/
theorem served_in_turn_device : ∃ sys finish,
    Steps SystemStep sys [.external (interruptAt vecTimer) [.endOfInterrupt, .endOfInterrupt]]
      finish ∧
    0x21 ∈ sys.controller.requested ∧ 0x21 ∈ finish.controller.requested ∧
    ∃ vec : BitVec 8, 0x21 ≤ vec.toNat ∧
      ∃ during sys', SystemStep finish (.external (interruptAt vec) during) sys' := by
  let sys : System := { timerSystem with controller := { requested := {0x21, vecTimer.toNat} } }
  let op : SystemOp := .external (interruptAt vecTimer) [.endOfInterrupt, .endOfInterrupt]
  have hready : Ready sys.dispatcher := timerSystem_ready
  have hwaits : 0x21 ∈ sys.controller.requested := by decide
  have heval : (sys.exec op).map (·.dispatcher.halted) = some false := by decide +kernel
  obtain ⟨finish, hfinish, hrunning⟩ := Option.map_eq_some_iff.mp heval
  have hrun : Steps SystemStep sys [op] finish := .cons hfinish (.refl _)
  obtain ⟨hwaits', ⟨vec, hvec, -, hdelivery⟩, -⟩ := served_in_turn hready rfl (by decide) hwaits
    hrun (by simp [op, SystemOp.signals]) (by decide) (by decide)
  exact ⟨sys, finish, hrun, hwaits, hwaits', vec, hvec, hdelivery hrunning _ rfl⟩

/-! ## The tick count -/

/-- The handler counts a tick. -/
def Handler.ticks : Option Handler → Bool
  | some .onTimer => true
  | _ => false

/-- An interrupt is counted once for its vector, and as a tick if `OnTimer` handles it. -/
theorem Dispatcher.dispatch_counts (d : Dispatcher) (interrupt : Interrupt) :
    (d.dispatch interrupt).vectorCounts =
        Function.update d.vectorCounts interrupt.vec (d.vectorCounts interrupt.vec + 1) ∧
      (d.dispatch interrupt).tickCount =
        d.tickCount + if Handler.ticks (d.handlers interrupt.vec) then 1 else 0 := by
  have hcount : (d.count interrupt).vectorCounts =
        Function.update d.vectorCounts interrupt.vec (d.vectorCounts interrupt.vec + 1) ∧
      (d.count interrupt).tickCount = d.tickCount ∧
      (d.count interrupt).handlers = d.handlers := by
    unfold count
    cases d.logger with
    | none => exact ⟨rfl, rfl, rfl⟩
    | some logger =>
        dsimp only
        split <;> exact ⟨rfl, rfl, rfl⟩
  have hhandle : ∀ d : Dispatcher, (d.handle interrupt).vectorCounts = d.vectorCounts ∧
      (d.handle interrupt).tickCount =
        d.tickCount + if Handler.ticks (d.handlers interrupt.vec) then 1 else 0 := by
    intro d
    unfold handle
    cases d.handlers interrupt.vec with
    | none => simp [Handler.ticks]
    | some fn =>
        cases fn with
        | onTimer => simp [Handler.ticks, call, onTimer]
        | onIRQ0 =>
            simp only [call, onIRQ0]
            split <;> simp [Handler.ticks]
        | exception which => simp [Handler.ticks, call]
        | quiet handler => simp [Handler.ticks, call]
  have hfinish : ∀ d : Dispatcher, (d.finish interrupt.vec).vectorCounts = d.vectorCounts ∧
      (d.finish interrupt.vec).tickCount = d.tickCount := by
    intro d
    unfold finish
    split <;> exact ⟨rfl, rfl⟩
  obtain ⟨hcounts, hticks, hhandlers⟩ := hcount
  obtain ⟨hcounts', hticks'⟩ := hhandle (d.count interrupt)
  rw [hcounts] at hcounts'
  rw [hticks, hhandlers] at hticks'
  unfold dispatch
  dsimp only
  split
  · exact ⟨hcounts', hticks'⟩
  · obtain ⟨hcounts'', hticks''⟩ := hfinish ((d.count interrupt).handle interrupt)
    exact ⟨hcounts''.trans hcounts', hticks''.trans hticks'⟩

/-- The event is an interrupt of the vector that the local APIC does not deliver. -/
def SystemOp.software (vec : BitVec 8) : SystemOp → Prop
  | .internal interrupt _ => interrupt.vec = vec
  | .raise _ | .external .. => False

/-- One event delivers the timer interrupt or it does not, and both counters say so. -/
theorem SystemStep.ticks (h : SystemStep sys op sys')
    (htimer : ∀ vec, Handler.ticks (sys.dispatcher.handlers vec) = true ↔ vec = vecTimer)
    (hsoftware : ¬ op.software vecTimer) :
    sys'.dispatcher.tickCount =
        sys.dispatcher.tickCount + BitVec.ofNat 64 (op.delivered.toList.count vecTimer) ∧
      sys'.dispatcher.vectorCounts vecTimer =
        sys.dispatcher.vectorCounts vecTimer +
          BitVec.ofNat 64 (op.delivered.toList.count vecTimer) ∧
      sys'.controller.pending vecTimer.toNat + op.delivered.toList.count vecTimer ≤
        sys.controller.pending vecTimer.toNat + op.signals.count (.raise vecTimer.toNat) := by
  obtain ⟨vec, rfl, rfl⟩ | ⟨interrupt, during, rfl, -, hnext, -, rfl⟩ |
    ⟨interrupt, during, rfl, -, -, rfl⟩ := systemStep_cases h
  · refine ⟨?_, ?_, ?_⟩
    · simp [SystemOp.delivered]
    · simp [SystemOp.delivered]
    · show (sys.controller.handle [.raise vec.toNat]).pending vecTimer.toNat ≤ _
      exact Controller.pending_handle_le
  · obtain ⟨hcounts, hticks⟩ := sys.dispatcher.dispatch_counts interrupt
    have hpending := Controller.pending_accept (v := vecTimer.toNat)
      (Controller.next_eq_some hnext).1
    have hle : ((sys.controller.accept interrupt.vec.toNat).handle during).pending
        vecTimer.toNat ≤ _ := Controller.pending_handle_le
    show (sys.dispatcher.dispatch interrupt).tickCount = _ ∧
      (sys.dispatcher.dispatch interrupt).vectorCounts vecTimer = _ ∧
      ((sys.controller.accept interrupt.vec.toNat).handle during).pending vecTimer.toNat + _ ≤ _
    rw [hcounts, hticks]
    by_cases hvec : interrupt.vec = vecTimer
    · have hone : (SystemOp.external interrupt during).delivered.toList.count vecTimer = 1 := by
        simp [SystemOp.delivered, hvec]
      rw [if_pos ((htimer _).mpr hvec), hvec, Function.update_self, hone]
      rw [hvec, if_pos rfl] at hpending
      rw [hvec] at hle
      exact ⟨rfl, rfl, by rw [SystemOp.signals]; omega⟩
    · have hnone : (SystemOp.external interrupt during).delivered.toList.count vecTimer = 0 := by
        simp [SystemOp.delivered, hvec]
      have hne : interrupt.vec.toNat ≠ vecTimer.toNat := fun heq => hvec (BitVec.eq_of_toNat_eq heq)
      rw [if_neg fun h => hvec ((htimer _).mp h), Function.update_of_ne (Ne.symm hvec), hnone]
      rw [if_neg hne] at hpending
      exact ⟨rfl, (BitVec.add_zero _).symm, by rw [SystemOp.signals]; omega⟩
  · obtain ⟨hcounts, hticks⟩ := sys.dispatcher.dispatch_counts interrupt
    have hvec : interrupt.vec ≠ vecTimer := hsoftware
    refine ⟨?_, ?_, Controller.pending_handle_le⟩
    · show (sys.dispatcher.dispatch interrupt).tickCount = _
      rw [hticks, if_neg fun h => hvec ((htimer _).mp h)]
      rfl
    · show (sys.dispatcher.dispatch interrupt).vectorCounts vecTimer = _
      rw [hcounts, Function.update_of_ne (Ne.symm hvec)]
      simp [SystemOp.delivered]

/-- The number of deliveries of a vector. -/
theorem count_deliveries_cons (vec : BitVec 8) :
    (deliveries (op :: ops)).count vec =
      op.delivered.toList.count vec + (deliveries ops).count vec := by
  rw [deliveries, List.filterMap_cons]
  cases op.delivered with
  | none => simp [deliveries]
  | some w => simp [deliveries, List.count_cons, Nat.add_comm]

/-- The kernel's time never runs ahead of the timer. If `OnTimer` is the handler of the timer's
vector only, and no instruction raises that interrupt, then the tick count and the count of the
vector advance by the number of deliveries. That is at most the number of expiries, and one more if
one was pending: an expiry that comes while another is pending is lost. -/
theorem ticks_steps (hready : Ready start.dispatcher)
    (htimer : ∀ vec, Handler.ticks (start.dispatcher.handlers vec) = true ↔ vec = vecTimer)
    (hrun : Steps SystemStep start ops finish) (hsoftware : ∀ op ∈ ops, ¬ op.software vecTimer) :
    finish.dispatcher.tickCount =
        start.dispatcher.tickCount + BitVec.ofNat 64 ((deliveries ops).count vecTimer) ∧
      finish.dispatcher.vectorCounts vecTimer =
        start.dispatcher.vectorCounts vecTimer +
          BitVec.ofNat 64 ((deliveries ops).count vecTimer) ∧
      finish.controller.pending vecTimer.toNat + (deliveries ops).count vecTimer ≤
        start.controller.pending vecTimer.toNat +
          (ops.flatMap SystemOp.signals).count (.raise vecTimer.toNat) := by
  induction hrun with
  | refl => exact ⟨(BitVec.add_zero _).symm, (BitVec.add_zero _).symm, Nat.le_refl _⟩
  | @cons start middle finish op ops hstep _ ih =>
      obtain ⟨hready', hhandlers⟩ := hstep.dispatcher hready
      obtain ⟨htick, hcount, hpending⟩ := hstep.ticks htimer (hsoftware op (List.mem_cons_self ..))
      obtain ⟨htick', hcount', hpending'⟩ := ih hready' (hhandlers ▸ htimer)
        fun op' hop' => hsoftware op' (List.mem_cons_of_mem _ hop')
      rw [count_deliveries_cons, List.flatMap_cons, List.count_append, BitVec.ofNat_add,
        ← BitVec.add_assoc, ← BitVec.add_assoc, ← htick, ← hcount]
      exact ⟨htick', hcount', by omega⟩

end HailOS.Interrupts
