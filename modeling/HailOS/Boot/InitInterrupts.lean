import HailOS.APIC.Calibration
import HailOS.Interrupts.InService

/-!
# The interrupts of the booted kernel

What `main` of `KernelMain.cpp` does for the interrupts, from `DisableLegacyPIC` to `ConfigureTimer`
with `APICInit.hpp`, `APICController.cpp`, `InitEarly` of `LAPIC.cpp` and `InitPerCPU`. The
constructor of the controller sets `EndOfInterrupt` as the emitter, and `InitInterruptDispatch`
unsets it again. Interrupts are disabled all the while.

`boot_configures_interrupts` says what the local APIC and the dispatcher look like afterwards, and
that the timer is masked until its handler is registered. `booted_serves` says what follows for the
runs of the booted kernel. The result of `InitAPIC` is ignored, and `boot_without_apic` says what
boot does on a processor without a local APIC.
-/

namespace HailOS.APIC

open Lib

/-- `LAPIC_ID`. -/
def lapicID : BitVec 64 := 0x020#64

/-- `LAPIC_TPR`. -/
def lapicTPR : BitVec 64 := 0x080#64

/-- `LAPIC_SVR`. -/
def lapicSVR : BitVec 64 := 0x0F0#64

/-- `LAPIC_ESR`. -/
def lapicESR : BitVec 64 := 0x280#64

/-- `LAPIC_LVT_THERMAL`. -/
def lapicLVTThermal : BitVec 64 := 0x330#64

/-- `LAPIC_LVT_PERF`. -/
def lapicLVTPerf : BitVec 64 := 0x340#64

/-- `LAPIC_LVT_LINT0`. -/
def lapicLVTLINT0 : BitVec 64 := 0x350#64

/-- `LAPIC_LVT_LINT1`. -/
def lapicLVTLINT1 : BitVec 64 := 0x360#64

/-- `LAPIC_LVT_ERROR`. -/
def lapicLVTError : BitVec 64 := 0x370#64

/-- `SVR_APIC_ENABLE`. -/
def svrAPICEnable : BitVec 32 := 1#32 <<< 8

/-- `VEC_SPURIOUS` of `APICInit.hpp`. -/
def vecSpurious : BitVec 8 := 0xFF#8

/-- `VEC_ERROR` of `APICInit.hpp`. The dispatcher has another one. -/
def vecError : BitVec 8 := 0xF1#8

/-- `IsPresent`, for the value of `edx` that `CPUID_1` gives. -/
def isPresent (edx : BitVec 32) : Bool := edx &&& (1#32 <<< 9) != 0#32

namespace Platform

/-- Calls of `LAPICMMIOWrite`, one after the other. -/
def lapicWrites (p : Platform) (writes : List (BitVec 64 × BitVec 32)) : Platform :=
  writes.foldl (fun p write => p.lapicWrite write.1 write.2) p

/-- `DisableLegacyPIC`. -/
def disableLegacyPIC (p : Platform) : Platform := (p.out8 0x21#16 0xFF#8).out8 0xA1#16 0xFF#8

/-- `ReadLAPICID`. -/
def readLAPICID (p : Platform) : BitVec 32 :=
  if p.lapicMMIOBase ≠ 0 then p.lapicRead lapicID >>> 24 else 0xFFFFFFFF#32

/-- The registers that `InitEarly` writes. -/
def earlyWrites (spuriousVector errorVector : BitVec 8) : List (BitVec 64 × BitVec 32) :=
  [(lapicTPR, 0#32),
    (lapicLVTTimer, lvtMasked ||| 0xF0#32),
    (lapicLVTPerf, lvtMasked ||| 0xF2#32),
    (lapicLVTThermal, lvtMasked ||| 0xF3#32),
    (lapicLVTLINT0, lvtMasked ||| 0xF4#32),
    (lapicLVTLINT1, lvtMasked ||| 0xF5#32),
    (lapicLVTError, errorVector.setWidth 32),
    (lapicESR, 0#32),
    (lapicSVR, svrAPICEnable ||| spuriousVector.setWidth 32),
    (lapicEOI, 0#32)]

/-- `InitEarly`. -/
def initEarly (p : Platform) (spuriousVector errorVector : BitVec 8) : Platform :=
  let p := if p.lapicMMIOBase = 0 then p.enable else p
  let spuriousVector := if spuriousVector < 0x20#8 then 0xFF#8 else spuriousVector
  -- the second test is of the spurious vector as well, and never holds
  let errorVector := if spuriousVector < 0x20#8 then 0xF1#8 else errorVector
  p.lapicWrites (earlyWrites spuriousVector errorVector)

/-- `InitAPIC`. -/
def initAPIC (p : Platform) (edx : BitVec 32) : Bool × Platform :=
  if ¬ isPresent edx then (false, p)
  else (true, (p.enable.initEarly vecSpurious vecError).disableLegacyPIC)

/-! ## Writing registers -/

/-- A register of the local APIC. -/
def register (p : Platform) (offset : BitVec 64) : BitVec 32 := p.words (p.base + offset)

variable {p : Platform}

theorem lapicWrites_cons (write : BitVec 64 × BitVec 32) (writes : List (BitVec 64 × BitVec 32)) :
    p.lapicWrites (write :: writes) = (p.lapicWrite write.1 write.2).lapicWrites writes := rfl

theorem Enabled.lapicWrites (h : p.Enabled) (writes : List (BitVec 64 × BitVec 32)) :
    (p.lapicWrites writes).Enabled := by
  induction writes generalizing p with
  | nil => exact h
  | cons write writes ih => exact ih (h.lapicWrite _ _)

theorem lapicWrites_base (writes : List (BitVec 64 × BitVec 32)) :
    (p.lapicWrites writes).base = p.base ∧
      (p.lapicWrites writes).lapicMMIOBase = p.lapicMMIOBase := by
  induction writes generalizing p with
  | nil => exact ⟨rfl, rfl⟩
  | cons write writes ih => exact ih

/-- A register holds what was written to it last. -/
theorem register_lapicWrites (h : p.Enabled) (writes : List (BitVec 64 × BitVec 32))
    (offset : BitVec 64) :
    (p.lapicWrites writes).register offset =
      lastSet (fun write => if write.1 = offset then some write.2 else none) writes
        (p.register offset) := by
  have hinv : ∀ (p : Platform) (write : BitVec 64 × BitVec 32), p.Enabled →
      (p.lapicWrite write.1 write.2).Enabled := fun p write hp => hp.lapicWrite _ _
  refine foldl_lastSet (fun p : Platform => p.register offset) hinv ?_ writes h
  intro p write hp
  rw [register, register, lapicWrite_base, lapicWrite_words, hp.pointer]
  by_cases hoffset : write.1 = offset
  · rw [if_pos hoffset, hoffset, Function.update_self]
    rfl
  · rw [if_neg hoffset, Function.update_of_ne]
    · rfl
    · intro heq
      exact hoffset ((BitVec.add_right_inj _).mp heq).symm

/-- The log of the writes. -/
theorem writes_lapicWrites (writes : List (BitVec 64 × BitVec 32)) :
    (p.lapicWrites writes).writes =
      p.writes ++ writes.map fun write => .mmio (p.lapicMMIOBase + write.1) write.2 := by
  induction writes generalizing p with
  | nil => exact (List.append_nil _).symm
  | cons write writes ih =>
      rw [lapicWrites_cons, ih]
      show p.writes ++ [_] ++ _ = _
      rw [List.append_assoc]
      rfl

/-- The registers that `ConfigureTimer` writes. -/
def timerWrites (vector divideShift : BitVec 8) (initialCount : BitVec 32) (periodic : Bool) :
    List (BitVec 64 × BitVec 32) :=
  [(lapicTimerDiv, (divideShift &&& 7#8).setWidth 32),
    (lapicLVTTimer, lvtValue vector periodic ||| lvtMasked),
    (lapicTimerInit, initialCount),
    (lapicLVTTimer, lvtValue vector periodic)]

theorem configureTimer_eq (vector divideShift : BitVec 8) (initialCount : BitVec 32)
    (periodic : Bool) :
    p.configureTimer vector divideShift initialCount periodic =
      (if p.lapicMMIOBase ≠ 0 then p.enable else p).lapicWrites
        (timerWrites vector divideShift initialCount periodic) := rfl

/-- The registers that `CalibrateTimerInitialCountTSC` writes, where it reads `lvt` from the timer's
LVT register. -/
def calibrationWrites (divideShift : BitVec 8) (lvt : BitVec 32) :
    List (BitVec 64 × BitVec 32) :=
  [(lapicTimerDiv, (divideShift &&& 7#8).setWidth 32),
    (lapicLVTTimer, ((lvt &&& ~~~lvtPeriodic ||| lvtMasked) &&& 0xFFFFFF00#32) |||
      vecTimer.setWidth 32),
    (lapicTimerInit, startCount)]

/-- The calibration writes these registers or none. -/
theorem calibrate_writes {clock : Clock} {fuel i : ℕ} {curr targetPeriodUs sampleMs : BitVec 32}
    {tscHz : BitVec 64} {divideShift : BitVec 8} {initial : BitVec 32} {p' : Platform}
    (h : calibrateTimerInitialCountTSC p clock fuel curr tscHz divideShift targetPeriodUs sampleMs =
      some ((initial, i), p')) :
    p' = p ∨ ∃ lvt, p' = p.lapicWrites (calibrationWrites divideShift lvt) := by
  unfold calibrateTimerInitialCountTSC at h
  split at h
  · cases h
    exact .inl rfl
  · obtain ⟨j, -, heq⟩ := Option.map_eq_some_iff.mp h
    obtain ⟨-, rfl⟩ := Prod.mk.inj heq
    exact .inr ⟨_, rfl⟩

/-- The calibration ends if the counter is seen to have advanced far enough. -/
theorem calibrate_returns {clock : Clock} {fuel k : ℕ} {curr targetPeriodUs sampleMs : BitVec 32}
    {tscHz : BitVec 64} {divideShift : BitVec 8} (hk : 1 ≤ k) (hfuel : k ≤ fuel)
    (hclock : targetDelta tscHz sampleMs ≤ clock.reading k - clock.reading 0) :
    ∃ initial i p', calibrateTimerInitialCountTSC p clock fuel curr tscHz divideShift targetPeriodUs
      sampleMs = some ((initial, i), p') := by
  unfold calibrateTimerInitialCountTSC
  split
  · exact ⟨_, _, _, rfl⟩
  · obtain ⟨j, hj⟩ : ∃ j, spin (fun i => decide (clock.reading i - clock.reading 0 ≥
        targetDelta tscHz sampleMs)) fuel 1 = some j :=
      exists_spin_eq_some hk (by omega) (decide_eq_true hclock)
    exact ⟨_, j, _, Option.map_eq_some_iff.mpr ⟨j, hj, rfl⟩⟩

/-! ## Masking the timer -/

/-- A register that is not written. -/
theorem register_lapicWrites_of_not_mem {writes : List (BitVec 64 × BitVec 32)}
    {offset : BitVec 64} (h : p.Enabled) (hoffset : offset ∉ writes.map Prod.fst) :
    (p.lapicWrites writes).register offset = p.register offset := by
  have hnone : writes.filterMap
      (fun write => if write.1 = offset then some write.2 else none) = [] := by
    rw [List.filterMap_eq_nil_iff]
    intro write hwrite
    exact if_neg fun heq => hoffset (List.mem_map.mpr ⟨write, hwrite, heq⟩)
  rw [register_lapicWrites h, lastSet, hnone]
  rfl

/-- The write does not unmask the timer. -/
def KeepsTimerMasked (write : BitVec 64 × BitVec 32) : Prop :=
  write.1 = lapicLVTTimer → write.2.getLsbD 16 = true

theorem earlyWrites_keep : ∀ write ∈ earlyWrites vecSpurious vecError, KeepsTimerMasked write := by
  simp [earlyWrites, KeepsTimerMasked, lapicTPR, lapicLVTTimer, lapicLVTPerf, lapicLVTThermal,
    lapicLVTLINT0, lapicLVTLINT1, lapicLVTError, lapicESR, lapicSVR, lapicEOI, lvtMasked]

theorem calibrationWrites_keep (divideShift : BitVec 8) (lvt : BitVec 32) :
    ∀ write ∈ calibrationWrites divideShift lvt, KeepsTimerMasked write := by
  have hdiv : lapicTimerDiv ≠ lapicLVTTimer := by decide
  have hinit : lapicTimerInit ≠ lapicLVTTimer := by decide
  simp only [calibrationWrites, List.forall_mem_cons, KeepsTimerMasked]
  refine ⟨fun h => absurd h hdiv, fun _ => ?_, fun h => absurd h hinit, by simp⟩
  simp [lvtMasked]

/-- The timer stays masked from one log of writes to the other. -/
def MaskedFrom (base : BitVec 64) (before after : List DeviceWrite) : Prop :=
  ∃ log, after = before ++ log ∧
    ∀ value, .mmio (base + lapicLVTTimer) value ∈ log → value.getLsbD 16 = true

theorem MaskedFrom.trans {base : BitVec 64} {first second third : List DeviceWrite}
    (h : MaskedFrom base first second) (h' : MaskedFrom base second third) :
    MaskedFrom base first third := by
  obtain ⟨log, rfl, hlog⟩ := h
  obtain ⟨log', rfl, hlog'⟩ := h'
  refine ⟨log ++ log', List.append_assoc .., fun value hvalue => ?_⟩
  rcases List.mem_append.mp hvalue with hmem | hmem
  · exact hlog value hmem
  · exact hlog' value hmem

theorem maskedFrom_disableLegacyPIC (base : BitVec 64) (p : Platform) :
    MaskedFrom base p.writes p.disableLegacyPIC.writes :=
  ⟨[_, _], List.append_assoc .., by simp⟩

theorem maskedFrom_lapicWrites {writes : List (BitVec 64 × BitVec 32)} (h : p.Enabled)
    (hkeep : ∀ write ∈ writes, KeepsTimerMasked write) :
    MaskedFrom p.base p.writes (p.lapicWrites writes).writes := by
  refine ⟨_, writes_lapicWrites writes, fun value hvalue => ?_⟩
  obtain ⟨write, hwrite, heq⟩ := List.mem_map.mp hvalue
  rw [h.pointer, DeviceWrite.mmio.injEq] at heq
  exact heq.2 ▸ hkeep write hwrite ((BitVec.add_right_inj _).mp heq.1)

end Platform

end HailOS.APIC

namespace HailOS.Interrupts

open Lib APIC

namespace Dispatcher

/-- `InitInterruptDispatch`. -/
def initInterruptDispatch (d : Dispatcher) : Dispatcher :=
  { d with
    handlers := fun _ => none
    vectorCounts := fun _ => 0
    logger := none
    eoi := none }

/-- `SetEOIEmitter`. -/
def setEOIEmitter (d : Dispatcher) (fn : Option (Platform → Platform)) : Dispatcher :=
  { d with eoi := fn }

/-- The constructor of `APICController`, for its static variable `isInitialized`. -/
def apicController (d : Dispatcher) (edx : BitVec 32) (isInitialized : Bool) : Bool × Dispatcher :=
  let d := if isInitialized then d else { d with platform := (d.platform.initAPIC edx).2 }
  (true, d.setEOIEmitter (some Platform.endOfInterrupt))

/-- `InitPerCPU`, as far as interrupts go: the tick count of the new object, and the ID. -/
def initPerCPU (d : Dispatcher) : BitVec 32 × Dispatcher :=
  (d.platform.readLAPICID, { d with tickCount := 0 })

end Dispatcher

/-- What boot reads from the hardware: `edx` of `CPUID_1`, the time stamp counter, and the count of
the timer at the end of the calibration. -/
structure BootReadings where
  edx : BitVec 32
  clock : Clock
  curr : BitVec 32

/-- The part of `main` before the timer's handler is registered. The result has the initial count
of the timer. -/
def prepareInterrupts (readings : BootReadings) (fuel : ℕ) (tscFreq : BitVec 64) (d : Dispatcher) :
    Option (BitVec 32 × Dispatcher) :=
  let d := { d with platform := d.platform.disableLegacyPIC }
  let d := (d.apicController readings.edx false).2
  let d := d.initInterruptDispatch
  let d := d.initCoreExceptionHandlers
  let d := d.initPerCPU.2
  (calibrateTimerInitialCountTSC d.platform readings.clock fuel readings.curr tscFreq 3#8 1000#32
    200#32).map fun out => (out.1.1, { d with platform := out.2 })

/-- The end of `InitPerCPUAndTime`. -/
def startTimer (initial : BitVec 32) (d : Dispatcher) : Dispatcher :=
  let d := d.initTimerHandler vecTimer
  { d with platform := d.platform.configureTimer vecTimer 3#8 initial true }

/-- What `main` does for the interrupts. -/
def initInterrupts (readings : BootReadings) (fuel : ℕ) (tscFreq : BitVec 64) (d : Dispatcher) :
    Option Dispatcher :=
  (prepareInterrupts readings fuel tscFreq d).map fun out => startTimer out.1 out.2

/-! ## The local APIC -/

/-- The registers as `InitAPIC` leaves them. -/
structure EarlyRegisters (p : Platform) : Prop where
  tpr : p.register lapicTPR = 0#32
  svr : p.register lapicSVR = 0x1FF#32
  error : p.register lapicLVTError = 0xF1#32
  masked : ∀ offset ∈ [lapicLVTPerf, lapicLVTThermal, lapicLVTLINT0, lapicLVTLINT1],
    (p.register offset).getLsbD 16 = true

/-- The registers as boot leaves them: the timer runs, with its vector and in periodic mode. -/
structure BootRegisters (p : Platform) (initial : BitVec 32) : Prop extends EarlyRegisters p where
  timer : p.register lapicLVTTimer = 0x20060#32
  divide : p.register lapicTimerDiv = 3#32
  count : p.register lapicTimerInit = initial

variable {p : Platform}

theorem EarlyRegisters.of_writes (h : p.Enabled) :
    EarlyRegisters (p.lapicWrites (Platform.earlyWrites APIC.vecSpurious APIC.vecError)) := by
  have hlast := Platform.register_lapicWrites h
    (Platform.earlyWrites APIC.vecSpurious APIC.vecError)
  refine ⟨hlast _, hlast _, hlast _, ?_⟩
  have hbit : ∀ offset ∈ [lapicLVTPerf, lapicLVTThermal, lapicLVTLINT0, lapicLVTLINT1],
      ∀ initial : BitVec 32, (lastSet (fun write => if write.1 = offset then some write.2 else none)
        (Platform.earlyWrites APIC.vecSpurious APIC.vecError) initial).getLsbD 16 = true := by
    simp [lastSet, Platform.earlyWrites, lapicLVTPerf, lapicLVTThermal, lapicLVTLINT0,
      lapicLVTLINT1, lapicTPR, lapicLVTTimer, lapicLVTError, lapicESR, lapicSVR, lapicEOI,
      lvtMasked]
  intro offset hoffset
  rw [hlast]
  exact hbit offset hoffset _

/-- Writes to the registers of the timer leave the others alone. -/
theorem EarlyRegisters.lapicWrites (h : EarlyRegisters p) (henabled : p.Enabled)
    {writes : List (BitVec 64 × BitVec 32)}
    (hwrites : ∀ offset ∈ writes.map Prod.fst,
      offset ∈ [lapicTimerDiv, lapicLVTTimer, lapicTimerInit]) :
    EarlyRegisters (p.lapicWrites writes) := by
  have hother : ∀ offset, offset ∉ [lapicTimerDiv, lapicLVTTimer, lapicTimerInit] →
      (p.lapicWrites writes).register offset = p.register offset := fun offset hoffset =>
    Platform.register_lapicWrites_of_not_mem henabled fun hmem => hoffset (hwrites offset hmem)
  refine ⟨?_, ?_, ?_, ?_⟩
  · rw [hother _ (by decide), h.tpr]
  · rw [hother _ (by decide), h.svr]
  · rw [hother _ (by decide), h.error]
  · intro offset hoffset
    have hdisjoint : List.Disjoint [lapicLVTPerf, lapicLVTThermal, lapicLVTLINT0, lapicLVTLINT1]
        [lapicTimerDiv, lapicLVTTimer, lapicTimerInit] := by
      simp [lapicLVTPerf, lapicLVTThermal, lapicLVTLINT0, lapicLVTLINT1, lapicTimerDiv,
        lapicLVTTimer, lapicTimerInit]
    rw [hother _ (hdisjoint hoffset)]
    exact h.masked offset hoffset

/-- The legacy controllers are disabled through ports. -/
theorem EarlyRegisters.disableLegacyPIC (h : EarlyRegisters p) :
    EarlyRegisters p.disableLegacyPIC := ⟨h.tpr, h.svr, h.error, h.masked⟩

theorem enabled_disableLegacyPIC (h : p.Enabled) : p.disableLegacyPIC.Enabled :=
  ⟨h.pointer, h.nonnull⟩

theorem base_disableLegacyPIC (p : Platform) : p.disableLegacyPIC.base = p.base := rfl

/-- `InitAPIC` on a processor with a local APIC. -/
theorem initAPIC_spec {edx : BitVec 32} (hbase : p.base ≠ 0) (hpresent : isPresent edx = true) :
    (p.initAPIC edx).2.Enabled ∧ (p.initAPIC edx).2.base = p.base ∧
      EarlyRegisters (p.initAPIC edx).2 ∧
      Platform.MaskedFrom p.base p.writes (p.initAPIC edx).2.writes := by
  have henabled := Platform.enabled_enable hbase
  have hinit : (p.initAPIC edx).2 =
      (p.enable.lapicWrites
        (Platform.earlyWrites APIC.vecSpurious APIC.vecError)).disableLegacyPIC := by
    rw [Platform.initAPIC, if_neg (not_not.mpr hpresent), Platform.initEarly,
      if_neg henabled.nonnull]
    rfl
  have hmasked := Platform.maskedFrom_lapicWrites henabled Platform.earlyWrites_keep
  rw [Platform.base_enable] at hmasked
  rw [hinit]
  refine ⟨enabled_disableLegacyPIC (henabled.lapicWrites _), ?_,
    (EarlyRegisters.of_writes henabled).disableLegacyPIC,
    Platform.MaskedFrom.trans hmasked (Platform.maskedFrom_disableLegacyPIC _ _)⟩
  rw [base_disableLegacyPIC, (Platform.lapicWrites_base _).1, Platform.base_enable]

/-- The calibration with the local APIC enabled. -/
theorem calibrate_spec {clock : Clock} {fuel i : ℕ} {curr targetPeriodUs sampleMs : BitVec 32}
    {tscHz : BitVec 64} {divideShift : BitVec 8} {initial : BitVec 32} {p' : Platform}
    (henabled : p.Enabled) (hearly : EarlyRegisters p)
    (h : calibrateTimerInitialCountTSC p clock fuel curr tscHz divideShift targetPeriodUs sampleMs =
      some ((initial, i), p')) :
    p'.Enabled ∧ p'.base = p.base ∧ EarlyRegisters p' ∧
      Platform.MaskedFrom p.base p.writes p'.writes := by
  rcases Platform.calibrate_writes h with rfl | ⟨lvt, rfl⟩
  · exact ⟨henabled, rfl, hearly, [], (List.append_nil _).symm, by simp⟩
  · exact ⟨henabled.lapicWrites _, (Platform.lapicWrites_base _).1,
      hearly.lapicWrites henabled fun offset hoffset => hoffset,
      Platform.maskedFrom_lapicWrites henabled (Platform.calibrationWrites_keep _ _)⟩

/-- `ConfigureTimer` with the local APIC enabled. -/
theorem BootRegisters.configureTimer (henabled : p.Enabled) (hearly : EarlyRegisters p)
    (initial : BitVec 32) :
    BootRegisters (p.configureTimer vecTimer 3#8 initial true) initial := by
  have hagain := Platform.enabled_enable (henabled.pointer ▸ henabled.nonnull)
  have hearly' : EarlyRegisters p.enable := by
    have hregister : ∀ offset, p.enable.register offset = p.register offset := by
      intro offset
      rw [Platform.register, Platform.base_enable]
      rfl
    refine ⟨?_, ?_, ?_, ?_⟩
    · rw [hregister, hearly.tpr]
    · rw [hregister, hearly.svr]
    · rw [hregister, hearly.error]
    · intro offset hoffset
      rw [hregister]
      exact hearly.masked offset hoffset
  have hlast := Platform.register_lapicWrites hagain
    (Platform.timerWrites vecTimer 3#8 initial true)
  rw [Platform.configureTimer_eq, if_pos henabled.nonnull]
  refine ⟨hearly'.lapicWrites hagain ?_, hlast _, hlast _, hlast _⟩
  simp [Platform.timerWrites]

/-! ## The dispatcher -/

/-- The handlers that boot registers. -/
def bootHandlers : BitVec 8 → Option Handler :=
  (fillTable emptyDispatcher [.initCoreExceptionHandlers, .initTimerHandler vecTimer]).handlers

theorem bootHandlers_apply (vec : BitVec 8) :
    bootHandlers vec =
      if vec = vecTimer then some .onTimer
      else if vec = 14#8 then some (.exception .pf)
      else if vec = 13#8 then some (.exception .gp)
      else if vec = 8#8 then some (.exception .df)
      else if vec = 6#8 then some (.exception .ud)
      else none := by
  show Function.update (Function.update (Function.update (Function.update (Function.update
    (fun _ => none) 6#8 _) 8#8 _) 13#8 _) 14#8 _) vecTimer _ vec = _
  simp only [Function.update_apply]

/-- Only the timer's handler counts ticks. -/
theorem ticks_bootHandlers (vec : BitVec 8) :
    Handler.ticks (bootHandlers vec) = true ↔ vec = vecTimer := by
  rw [bootHandlers_apply]
  by_cases htimer : vec = vecTimer
  · simp [htimer, Handler.ticks]
  · rw [if_neg htimer]
    refine iff_of_false ?_ htimer
    split_ifs <;> exact Bool.false_ne_true

/-- The end of every interrupt is signalled that is not an exception or the spurious one. -/
theorem signalled_bootHandlers (vec : BitVec 8) :
    signalled bootHandlers vec = true ↔ 0x20#8 ≤ vec ∧ vec ≠ 0xFF#8 := by
  rw [← needsEOI_iff, signalled, bootHandlers_apply]
  by_cases htimer : vec = vecTimer
  · rw [htimer]
    exact iff_of_true rfl rfl
  · rw [if_neg htimer]
    split_ifs <;> simp [Handler.signalsEOI]

/-- The exceptions that halt the processor. -/
theorem exception_bootHandlers {vec : BitVec 8} {which : CoreException}
    (h : bootHandlers vec = some (.exception which)) : vec ∈ [6#8, 8#8, 13#8, 14#8] := by
  rw [bootHandlers_apply] at h
  split_ifs at h with _ hpf hgp hdf hud
  · cases h
  · simp [hpf]
  · simp [hgp]
  · simp [hdf]
  · simp [hud]

/-- The dispatcher as boot leaves it. -/
structure Booted (d : Dispatcher) (initial : BitVec 32) : Prop where
  ready : Ready d
  registers : BootRegisters d.platform initial
  handlers : d.handlers = bootHandlers
  tickCount : d.tickCount = 0
  vectorCounts : d.vectorCounts = fun _ => 0

variable {readings : BootReadings} {fuel k : ℕ} {tscFreq : BitVec 64} {d prepared : Dispatcher}
  {initial : BitVec 32}

theorem prepareInterrupts_spec (hbase : d.platform.base ≠ 0)
    (hpresent : isPresent readings.edx = true)
    (h : prepareInterrupts readings fuel tscFreq d = some (initial, prepared)) :
    Platform.MaskedFrom d.platform.base d.platform.writes prepared.platform.writes ∧
      prepared.halted = d.halted ∧ Booted (startTimer initial prepared) initial := by
  obtain ⟨⟨⟨initial', i⟩, p'⟩, hcalibrate, heq⟩ := Option.map_eq_some_iff.mp h
  obtain ⟨rfl, rfl⟩ := Prod.mk.inj heq
  obtain ⟨henabled, hkept, hearly, hmasked⟩ :=
    initAPIC_spec (p := d.platform.disableLegacyPIC) hbase hpresent
  obtain ⟨henabled', -, hearly', hmasked'⟩ := calibrate_spec henabled hearly hcalibrate
  rw [hkept] at hmasked'
  have hregisters := BootRegisters.configureTimer henabled' hearly' initial'
  have hbelow : ExceptionsBelow bootHandlers := by
    have hexceptions : ∀ vec ∈ [6#8, 8#8, 13#8, 14#8], needsEOI vec = false := by decide
    exact fun vec which hwhich => hexceptions vec (exception_bootHandlers hwhich)
  refine ⟨?_, rfl, ⟨?_, .inl rfl, hbelow⟩, hregisters, rfl, rfl, rfl⟩
  · exact (Platform.maskedFrom_disableLegacyPIC _ _).trans (hmasked.trans hmasked')
  · exact (Platform.configureTimer_spec henabled' _ _ _ _).1

/-- With a local APIC, boot gets through once the time stamp counter has advanced far enough. The
timer is masked until its handler is registered. Then it runs in periodic mode with the count that
was calibrated, every other source in the local APIC but the error is masked, all priorities are
accepted, and the dispatcher is ready. -/
theorem boot_configures_interrupts (hbase : d.platform.base ≠ 0)
    (hpresent : isPresent readings.edx = true) (hk : 1 ≤ k) (hfuel : k ≤ fuel)
    (hclock : targetDelta tscFreq 200#32 ≤ readings.clock.reading k - readings.clock.reading 0) :
    ∃ initial prepared, prepareInterrupts readings fuel tscFreq d = some (initial, prepared) ∧
      Platform.MaskedFrom d.platform.base d.platform.writes prepared.platform.writes ∧
      initInterrupts readings fuel tscFreq d = some (startTimer initial prepared) ∧
      Booted (startTimer initial prepared) initial := by
  obtain ⟨initial, prepared, hprepare⟩ :
      ∃ initial prepared, prepareInterrupts readings fuel tscFreq d = some (initial, prepared) := by
    obtain ⟨initial, i, p', hcalibrate⟩ := Platform.calibrate_returns hk hfuel hclock
    exact ⟨initial, _, Option.map_eq_some_iff.mpr ⟨_, hcalibrate, rfl⟩⟩
  obtain ⟨hmasked, -, hbooted⟩ := prepareInterrupts_spec hbase hpresent hprepare
  exact ⟨initial, prepared, hprepare, hmasked, Option.map_eq_some_iff.mpr ⟨_, hprepare, rfl⟩,
    hbooted⟩

/-- The counter at its reading number. -/
def countingClock : Clock where
  count := id
  mono := fun _ _ h => h

/-- A processor with a local APIC and a slow counter. -/
def slowReadings : BootReadings := ⟨1#32 <<< 9, countingClock, 0x7FFFFF00#32⟩

theorem boot_configures_slow : ∃ initial prepared,
    prepareInterrupts slowReadings 1 5#64 emptyDispatcher = some (initial, prepared) ∧
    Booted (startTimer initial prepared) initial := by
  have hpresent : isPresent slowReadings.edx = true := by decide
  have hclock : targetDelta 5#64 200#32 ≤
      slowReadings.clock.reading 1 - slowReadings.clock.reading 0 := by decide
  obtain ⟨initial, prepared, hprepare, -, -, hbooted⟩ := boot_configures_interrupts
    (d := emptyDispatcher) (by decide) hpresent (Nat.le_refl 1) (Nat.le_refl 1) hclock
  exact ⟨initial, prepared, hprepare, hbooted⟩

/-! ## The runs of the booted kernel -/

variable {booted : Dispatcher} {finish : System} {ops : List SystemOp}

/-- Only an exception handler halts the processor. -/
theorem Dispatcher.halted_dispatch {interrupt : Interrupt} (h : Ready d)
    (hrunning : d.halted = false) (hhalted : (d.dispatch interrupt).halted = true) :
    ∃ which, d.handlers interrupt.vec = some (.exception which) := by
  obtain ⟨hcounted, -, htable, -, hcount⟩ := Dispatcher.count_spec interrupt h.enabled
  obtain ⟨-, -, -, -, hexception⟩ :=
    Dispatcher.handle_spec interrupt hcounted (hcount.trans hrunning)
  rw [htable] at hexception
  have hfinish : ∀ d : Dispatcher, (d.finish interrupt.vec).halted = d.halted := by
    intro d
    unfold Dispatcher.finish
    split <;> rfl
  unfold Dispatcher.dispatch at hhalted
  dsimp only at hhalted
  split at hhalted
  · exact hexception hhalted
  · rw [hfinish] at hhalted
    exact hexception hhalted

/-- An event that halts the processor. -/
theorem SystemStep.halts {sys sys' : System} {op : SystemOp} (hready : Ready sys.dispatcher)
    (hrunning : sys.dispatcher.halted = false) (h : SystemStep sys op sys')
    (hhalted : sys'.dispatcher.halted = true) :
    ∃ vec which, (vec ∈ op.delivered ∨ op.software vec) ∧
      sys.dispatcher.handlers vec = some (.exception which) := by
  obtain ⟨vec, rfl, rfl⟩ | ⟨interrupt, during, rfl, -, -, -, rfl⟩ |
    ⟨interrupt, during, rfl, -, -, rfl⟩ := systemStep_cases h
  · exact absurd (hrunning.symm.trans hhalted) Bool.false_ne_true
  · obtain ⟨which, hwhich⟩ := Dispatcher.halted_dispatch hready hrunning hhalted
    exact ⟨interrupt.vec, which, .inl rfl, hwhich⟩
  · obtain ⟨which, hwhich⟩ := Dispatcher.halted_dispatch hready hrunning hhalted
    exact ⟨interrupt.vec, which, .inr rfl, hwhich⟩

/-- The kernel halts in an exception that boot registered a handler for, or never. -/
theorem halted_steps {start : System} (hready : Ready start.dispatcher)
    (hhandlers : start.dispatcher.handlers = bootHandlers)
    (hrunning : start.dispatcher.halted = false) (hrun : Steps SystemStep start ops finish)
    (hdevices : ∀ vec ∈ deliveries ops, 0x20#8 ≤ vec ∧ vec ≠ 0xFF#8)
    (hhalted : finish.dispatcher.halted = true) :
    ∃ op ∈ ops, ∃ vec ∈ [6#8, 8#8, 13#8, 14#8], op.software vec := by
  induction hrun with
  | refl => exact absurd (hrunning.symm.trans hhalted) Bool.false_ne_true
  | @cons start middle finish op ops hstep hrest ih =>
      obtain ⟨hready', hhandlers'⟩ := hstep.dispatcher hready
      obtain ⟨hfirst, hdevices'⟩ := forall_deliveries_cons.mp hdevices
      cases hmiddle : middle.dispatcher.halted with
      | false =>
          obtain ⟨op', hop', hvec⟩ :=
            ih hready' (hhandlers'.trans hhandlers) hmiddle hdevices' hhalted
          exact ⟨op', List.mem_cons_of_mem _ hop', hvec⟩
      | true =>
          obtain ⟨vec, which, hvec, hwhich⟩ := hstep.halts hready hrunning hmiddle
          rw [hhandlers] at hwhich
          have hexception := exception_bootHandlers hwhich
          refine ⟨op, List.mem_cons_self .., vec, hexception, hvec.resolve_left fun hmem => ?_⟩
          have hlow : ∀ vec ∈ [6#8, 8#8, 13#8, 14#8], ¬ 0x20#8 ≤ vec := by decide
          exact hlow vec hexception (hfirst vec hmem).1

/-- A booted kernel serves every device. Let only vectors from `0x20` to `0xFE` be delivered, and
let no instruction raise the timer's interrupt. Then nothing stays in service, the tick count is the
number of timer interrupts that were delivered, which is at most the number of expiries, and the
processor halts only in one of the exceptions that boot registered a handler for. -/
theorem booted_serves (hbase : d.platform.base ≠ 0) (hpresent : isPresent readings.edx = true)
    (hrunning : d.halted = false) (hboot : initInterrupts readings fuel tscFreq d = some booted)
    (hrun : Steps SystemStep { dispatcher := booted } ops finish)
    (hdevices : ∀ vec ∈ deliveries ops, 0x20#8 ≤ vec ∧ vec ≠ 0xFF#8)
    (hsoftware : ∀ op ∈ ops, ¬ op.software vecTimer) :
    finish.controller.inService = ∅ ∧
      finish.dispatcher.tickCount = BitVec.ofNat 64 ((deliveries ops).count vecTimer) ∧
      (deliveries ops).count vecTimer ≤
        (ops.flatMap SystemOp.signals).count (.raise vecTimer.toNat) ∧
      (finish.dispatcher.halted = true →
        ∃ op ∈ ops, ∃ vec ∈ [6#8, 8#8, 13#8, 14#8], op.software vec) := by
  obtain ⟨⟨initial, prepared⟩, hprepare, rfl⟩ := Option.map_eq_some_iff.mp hboot
  obtain ⟨-, hhalted, hbooted⟩ := prepareInterrupts_spec hbase hpresent hprepare
  have hsignalled : ∀ vec ∈ deliveries ops,
      signalled (startTimer initial prepared).handlers vec = true := by
    intro vec hvec
    rw [hbooted.handlers]
    exact (signalled_bootHandlers vec).mpr (hdevices vec hvec)
  have htimer : ∀ vec, Handler.ticks ((startTimer initial prepared).handlers vec) = true ↔
      vec = vecTimer := by
    rw [hbooted.handlers]
    exact ticks_bootHandlers
  obtain ⟨hticks, -, hexpiries⟩ := ticks_steps hbooted.ready htimer hrun hsoftware
  refine ⟨idle_steps hbooted.ready rfl hrun hsignalled, ?_, ?_, ?_⟩
  · rw [hticks]
    show (startTimer initial prepared).tickCount + _ = _
    rw [hbooted.tickCount]
    exact BitVec.zero_add _
  · exact Nat.le_trans (Nat.le_add_left _ _) (hexpiries.trans (Nat.le_of_eq (Nat.zero_add _)))
  · exact halted_steps hbooted.ready hbooted.handlers (hhalted.trans hrunning) hrun hdevices

/-- Of two expiries before the timer's interrupt is served, one is counted. -/
theorem booted_serves_slow : ∃ booted finish,
    initInterrupts slowReadings 1 5#64 emptyDispatcher = some booted ∧
    Steps SystemStep { dispatcher := booted } timerOps finish ∧
    finish.controller.inService = ∅ ∧ finish.dispatcher.tickCount = 1 := by
  have heval : ((initInterrupts slowReadings 1 5#64 emptyDispatcher).bind fun booted =>
      timerOps.foldlM System.exec { dispatcher := booted }).isSome = true := by decide +kernel
  obtain ⟨finish, hfinish⟩ := Option.isSome_iff_exists.mp heval
  obtain ⟨booted, hboot, hrun⟩ := Option.bind_eq_some_iff.mp hfinish
  obtain ⟨hidle, hticks, -, -⟩ := booted_serves (by decide)
    (show isPresent slowReadings.edx = true by decide) rfl hboot (Steps.of_foldlM hrun)
    (by decide) (by simp [timerOps, SystemOp.software])
  exact ⟨booted, finish, hboot, Steps.of_foldlM hrun, hidle, hticks⟩

/-! ## Without a local APIC -/

/-- Boot does not look at the result of `InitAPIC`. Without a local APIC the pointer to its
registers stays null, so that none is enabled, and the timer is configured in the first page of
memory. -/
theorem boot_without_apic (hnull : d.platform.lapicMMIOBase = 0)
    (habsent : isPresent readings.edx = false) :
    ∃ booted, initInterrupts readings fuel tscFreq d = some booted ∧
      ¬ booted.platform.Enabled ∧
      ∀ address, booted.platform.words address =
        if address = 0x320#64 then 0x20060#32
        else if address = 0x380#64 then 62500#32
        else if address = 0x3E0#64 then 3#32
        else d.platform.words address := by
  have hinit : d.platform.disableLegacyPIC.initAPIC readings.edx =
      (false, d.platform.disableLegacyPIC) := by
    rw [Platform.initAPIC, if_pos]
    rw [habsent]
    exact Bool.false_ne_true
  obtain ⟨prepared, hprepare, hplatform⟩ : ∃ prepared,
      prepareInterrupts readings fuel tscFreq d = some (fallbackInitialCount, prepared) ∧
        prepared.platform = d.platform.disableLegacyPIC := by
    refine ⟨_, Option.map_eq_some_iff.mpr ⟨((fallbackInitialCount, 0), _), if_pos (.inl ?_), rfl⟩,
      ?_⟩
    · show (d.platform.disableLegacyPIC.initAPIC readings.edx).2 = _
      rw [hinit]
    · show (d.platform.disableLegacyPIC.initAPIC readings.edx).2.lapicMMIOBase = 0
      rw [hinit]
      exact hnull
  have hnull' : prepared.platform.lapicMMIOBase = 0 := by
    rw [hplatform]
    exact hnull
  have hstarted : (startTimer fallbackInitialCount prepared).platform =
      prepared.platform.lapicWrites
        (Platform.timerWrites vecTimer 3#8 fallbackInitialCount true) := by
    show prepared.platform.configureTimer vecTimer 3#8 fallbackInitialCount true = _
    rw [Platform.configureTimer_eq, if_neg (not_not.mpr hnull')]
  refine ⟨startTimer fallbackInitialCount prepared,
    Option.map_eq_some_iff.mpr ⟨_, hprepare, rfl⟩, ?_, ?_⟩
  · intro henabled
    refine henabled.nonnull ?_
    rw [hstarted, (Platform.lapicWrites_base _).2, hnull']
  · intro address
    have hwords : prepared.platform.words = d.platform.words := by
      rw [hplatform]
      rfl
    rw [hstarted]
    simp only [Platform.lapicWrites, Platform.timerWrites, List.foldl_cons, List.foldl_nil,
      Platform.lapicWrite_words, Platform.lapicWrite_lapicMMIOBase, hnull', hwords,
      Function.update_apply, lapicLVTTimer, lapicTimerInit, lapicTimerDiv, BitVec.ofNat_eq_ofNat,
      BitVec.zero_add]
    by_cases haddress : address = 0x320#64
    · rw [if_pos haddress, if_pos haddress]
      rfl
    · rw [if_neg haddress, if_neg haddress, if_neg haddress]
      rfl

/-- A processor without a local APIC. -/
def bareReadings : BootReadings := ⟨0#32, countingClock, 0#32⟩

theorem boot_without_apic_words : ∃ booted,
    initInterrupts bareReadings 0 5#64
      { platform := { apicBase := 0#64, words := fun _ => 0#32 } } = some booted ∧
    ¬ booted.platform.Enabled ∧ booted.platform.words 0x320#64 = 0x20060#32 := by
  obtain ⟨booted, hboot, hdisabled, hwords⟩ : ∃ booted,
      initInterrupts bareReadings 0 5#64
        { platform := { apicBase := 0#64, words := fun _ => 0#32 } } = some booted ∧
      _ ∧ ∀ address, booted.platform.words address = _ :=
    boot_without_apic rfl (by decide)
  exact ⟨booted, hboot, hdisabled, hwords _⟩

end HailOS.Interrupts
