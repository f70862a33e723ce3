import HailOS.Lib.Registers
import Mathlib.Data.BitVec

/-!
# The local APIC

After `Arch/x86_64/APIC/LAPIC.cpp` and `APICController.cpp`. The registers of the local APIC are
words at the addresses from the base that the MSR `IA32_APIC_BASE` holds, and a register keeps what
was last written to it. Every write to a device is logged.

`MaskTimer` is to change the mask bit of the timer's LVT register, but its guard is the wrong way
round: with the local APIC enabled it returns at once. `timer_masking_iff` says for which sequences
of calls the mask bit nevertheless ends up as requested.
-/

namespace HailOS.APIC

open Lib

/-- A write to a device. -/
inductive DeviceWrite where
  | mmio (address : BitVec 64) (value : BitVec 32)
  | port (port : BitVec 16) (value : BitVec 8)
  deriving DecidableEq, Repr

/-- The devices as the kernel sees them: the MSR with the base of the local APIC, the pointer
`gLAPICMMIO` with 0 for null, the memory-mapped words and all writes so far. -/
structure Platform where
  apicBase : BitVec 64
  lapicMMIOBase : BitVec 64 := 0
  words : BitVec 64 → BitVec 32
  writes : List DeviceWrite := []

/-- `APIC_BASE_EN`. -/
def apicBaseEn : BitVec 64 := 0x800#64

/-- `APIC_BASE_EXTD`. -/
def apicBaseExtd : BitVec 64 := 0x400#64

/-- `APIC_BASE_ADDR_MASK`. -/
def apicBaseAddrMask : BitVec 64 := 0xFFFFF000#64

/-- `LAPIC_EOI`. -/
def lapicEOI : BitVec 64 := 0x0B0#64

/-- `LAPIC_LVT_TIMER`. -/
def lapicLVTTimer : BitVec 64 := 0x320#64

/-- `LAPIC_TIMER_INIT`. -/
def lapicTimerInit : BitVec 64 := 0x380#64

/-- `LAPIC_TIMER_DIV`. -/
def lapicTimerDiv : BitVec 64 := 0x3E0#64

/-- `LVT_MASKED`. -/
def lvtMasked : BitVec 32 := 1#32 <<< 16

/-- `LVT_PERIODIC`. -/
def lvtPeriodic : BitVec 32 := 1#32 <<< 17

/-- `VEC_TIMER`. -/
def vecTimer : BitVec 8 := 0x60#8

namespace Platform

/-- Write a memory-mapped word. -/
def store (p : Platform) (address : BitVec 64) (value : BitVec 32) : Platform :=
  { p with
    words := Function.update p.words address value
    writes := p.writes ++ [.mmio address value] }

/-- `Out8`. -/
def out8 (p : Platform) (port : BitVec 16) (value : BitVec 8) : Platform :=
  { p with writes := p.writes ++ [.port port value] }

/-- `LAPICMMIORead`. -/
def lapicRead (p : Platform) (offset : BitVec 64) : BitVec 32 := p.words (p.lapicMMIOBase + offset)

/-- `LAPICMMIOWrite`. The value that is read back from the ID register is not used. -/
def lapicWrite (p : Platform) (offset : BitVec 64) (value : BitVec 32) : Platform :=
  p.store (p.lapicMMIOBase + offset) value

/-- `Enable`. -/
def enable (p : Platform) : Platform :=
  let apicBase := (p.apicBase ||| apicBaseEn) &&& ~~~apicBaseExtd
  { p with apicBase := apicBase, lapicMMIOBase := apicBase &&& apicBaseAddrMask }

/-- `EndOfInterrupt`. -/
def endOfInterrupt (p : Platform) : Platform :=
  if p.lapicMMIOBase ≠ 0 then p.lapicWrite lapicEOI 0#32 else p

/-- `ConfigureTimer`. Its guard calls `Enable` where the pointer is set, not where it is null. -/
def configureTimer (p : Platform) (vector divideShift : BitVec 8) (initialCount : BitVec 32)
    (periodic : Bool) : Platform :=
  let p := if p.lapicMMIOBase ≠ 0 then p.enable else p
  let div := (divideShift &&& 7#8).setWidth 32
  let p := p.lapicWrite lapicTimerDiv div
  let lvt := vector.setWidth 32 ||| (if periodic then lvtPeriodic else 0#32)
  let p := p.lapicWrite lapicLVTTimer (lvt ||| lvtMasked)
  let p := p.lapicWrite lapicTimerInit initialCount
  p.lapicWrite lapicLVTTimer lvt

/-- `MaskTimer`. It returns at once where the pointer is set, not where it is null. -/
def maskTimer (p : Platform) (masked : Bool) : Platform :=
  if p.lapicMMIOBase ≠ 0 then p
  else
    let lvt := p.lapicRead lapicLVTTimer
    let lvt := if masked then lvt ||| lvtMasked else lvt &&& ~~~lvtMasked
    p.lapicWrite lapicLVTTimer lvt

/-- `APICController::Enable`. -/
def controllerEnable (p : Platform) (vector : BitVec 8) : Platform :=
  if vector = vecTimer then p.maskTimer false else p

/-- `APICController::Disable`. -/
def controllerDisable (p : Platform) (vector : BitVec 8) : Platform :=
  if vector = vecTimer then p.maskTimer true else p

/-! ## The enabled local APIC -/

/-- The address of the registers, from the MSR. -/
def base (p : Platform) : BitVec 64 := p.apicBase &&& apicBaseAddrMask

/-- `Enable` has set the pointer, to an address other than null. -/
structure Enabled (p : Platform) : Prop where
  pointer : p.lapicMMIOBase = p.base
  nonnull : p.lapicMMIOBase ≠ 0

variable {p : Platform}

/-- `Enable` keeps the address of the registers. -/
theorem base_enable (p : Platform) : p.enable.base = p.base := by
  have hextd : ~~~apicBaseExtd &&& apicBaseAddrMask = apicBaseAddrMask := by decide
  have hen : apicBaseEn &&& apicBaseAddrMask = 0#64 := by decide
  show (p.apicBase ||| apicBaseEn) &&& ~~~apicBaseExtd &&& apicBaseAddrMask = _
  rw [BitVec.and_assoc, hextd, BitVec.and_or_distrib_right, hen, BitVec.or_zero]
  rfl

theorem lapicMMIOBase_enable (p : Platform) : p.enable.lapicMMIOBase = p.base := base_enable p

/-- `Enable` enables the local APIC, if its registers are not at address 0. -/
theorem enabled_enable (h : p.base ≠ 0) : p.enable.Enabled :=
  ⟨by rw [lapicMMIOBase_enable, base_enable], by rw [lapicMMIOBase_enable]; exact h⟩

@[simp] theorem lapicWrite_lapicMMIOBase (offset : BitVec 64) (value : BitVec 32) :
    (p.lapicWrite offset value).lapicMMIOBase = p.lapicMMIOBase := rfl

@[simp] theorem lapicWrite_base (offset : BitVec 64) (value : BitVec 32) :
    (p.lapicWrite offset value).base = p.base := rfl

@[simp] theorem lapicWrite_words (offset : BitVec 64) (value : BitVec 32) :
    (p.lapicWrite offset value).words =
      Function.update p.words (p.lapicMMIOBase + offset) value := rfl

/-- Writing registers leaves the local APIC enabled. -/
theorem Enabled.lapicWrite (h : p.Enabled) (offset : BitVec 64) (value : BitVec 32) :
    (p.lapicWrite offset value).Enabled := ⟨h.pointer, h.nonnull⟩

/-! ## The timer register -/

/-- The LVT register of the timer. -/
def lvtTimer (p : Platform) : BitVec 32 := p.words (p.base + lapicLVTTimer)

/-- Writing the register. -/
theorem lvtTimer_lapicWrite (h : p.Enabled) (value : BitVec 32) :
    (p.lapicWrite lapicLVTTimer value).lvtTimer = value := by
  rw [lvtTimer, lapicWrite_base, lapicWrite_words, h.pointer, Function.update_self]

/-- The value that `ConfigureTimer` gives the register. -/
def lvtValue (vector : BitVec 8) (periodic : Bool) : BitVec 32 :=
  vector.setWidth 32 ||| (if periodic then lvtPeriodic else 0#32)

/-- `ConfigureTimer` with the local APIC enabled. -/
theorem configureTimer_spec (h : p.Enabled) (vector divideShift : BitVec 8)
    (initialCount : BitVec 32) (periodic : Bool) :
    (p.configureTimer vector divideShift initialCount periodic).Enabled ∧
      (p.configureTimer vector divideShift initialCount periodic).lvtTimer =
        lvtValue vector periodic := by
  have henabled : p.enable.Enabled := enabled_enable (h.pointer ▸ h.nonnull)
  simp only [configureTimer, if_pos h.nonnull]
  have hdiv := henabled.lapicWrite lapicTimerDiv ((divideShift &&& 7#8).setWidth 32)
  have hmasked := hdiv.lapicWrite lapicLVTTimer (lvtValue vector periodic ||| lvtMasked)
  have hwritten := hmasked.lapicWrite lapicTimerInit initialCount
  exact ⟨hwritten.lapicWrite _ _, lvtTimer_lapicWrite hwritten _⟩

/-- `MaskTimer` does nothing with the local APIC enabled. -/
theorem maskTimer_enabled (h : p.Enabled) (masked : Bool) : p.maskTimer masked = p :=
  if_pos h.nonnull

theorem lvtValue_vector (vector : BitVec 8) (periodic : Bool) :
    (lvtValue vector periodic).setWidth 8 = vector := by
  apply BitVec.eq_of_getLsbD_eq
  intro i hi
  have hbits : ∀ i < 8, lvtPeriodic.getLsbD i = false := by decide
  have hperiodic : (if periodic then lvtPeriodic else 0#32).getLsbD i = false := by
    cases periodic
    · exact BitVec.getLsbD_zero
    · exact hbits i hi
  have hword : i < 32 := by omega
  simp only [lvtValue, BitVec.getLsbD_setWidth, BitVec.getLsbD_or, hperiodic, hi, hword,
    decide_true, Bool.true_and, Bool.or_false]

theorem lvtValue_mask (vector : BitVec 8) (periodic : Bool) :
    (lvtValue vector periodic).getLsbD 16 = false := by
  cases periodic <;> simp [lvtValue, lvtPeriodic]

theorem lvtValue_periodic (vector : BitVec 8) (periodic : Bool) :
    (lvtValue vector periodic).getLsbD 17 = periodic := by
  cases periodic <;> simp [lvtValue, lvtPeriodic]

end Platform

/-! ## Sequences of calls -/

/-- A call that may concern the timer. -/
inductive TimerCall where
  | configureTimer (vector divideShift : BitVec 8) (initialCount : BitVec 32) (periodic : Bool)
  | enable (vector : BitVec 8)
  | disable (vector : BitVec 8)
  deriving DecidableEq, Repr

namespace TimerCall

/-- Make the call. -/
def apply (p : Platform) : TimerCall → Platform
  | configureTimer vector divideShift initialCount periodic =>
      p.configureTimer vector divideShift initialCount periodic
  | enable vector => p.controllerEnable vector
  | disable vector => p.controllerDisable vector

/-- The mask bit that the call requests. -/
def maskRequest : TimerCall → Option Bool
  | configureTimer .. => some false
  | enable vector => if vector = vecTimer then some false else none
  | disable vector => if vector = vecTimer then some true else none

/-- The vector and the mode that the call configures. -/
def configured : TimerCall → Option (BitVec 8 × Bool)
  | configureTimer vector _ _ periodic => some (vector, periodic)
  | _ => none

/-- The mask bit that the call leaves, if it writes the register. -/
def maskEffect (call : TimerCall) : Option Bool := call.configured.map fun _ => false

end TimerCall

/-- The calls, one after the other. -/
def timerRun (p : Platform) (calls : List TimerCall) : Platform := calls.foldl TimerCall.apply p

/-- After the calls the mask bit of the timer is what the last call that concerns the timer
requested, the vector and the mode are those of the last `ConfigureTimer`, and a call for another
vector changes nothing. -/
structure MaskingEffective (p : Platform) (calls : List TimerCall) : Prop where
  mask : (timerRun p calls).lvtTimer.getLsbD 16 =
    lastSet TimerCall.maskRequest calls (p.lvtTimer.getLsbD 16)
  vector : (timerRun p calls).lvtTimer.setWidth 8 =
    lastSet (fun call => call.configured.map Prod.fst) calls (p.lvtTimer.setWidth 8)
  periodic : (timerRun p calls).lvtTimer.getLsbD 17 =
    lastSet (fun call => call.configured.map Prod.snd) calls (p.lvtTimer.getLsbD 17)
  others : ∀ vector, vector ≠ vecTimer →
    (timerRun p calls).controllerEnable vector = timerRun p calls ∧
      (timerRun p calls).controllerDisable vector = timerRun p calls

/-! ## Where masking is effective -/

variable {p : Platform}

/-- A call leaves the local APIC enabled, and only `ConfigureTimer` writes the register. -/
theorem TimerCall.apply_spec (h : p.Enabled) (call : TimerCall) :
    (call.apply p).Enabled ∧
      (call.apply p).lvtTimer =
        (call.configured.map fun c => Platform.lvtValue c.1 c.2).getD p.lvtTimer := by
  have hmask : ∀ vector masked, (if vector = vecTimer then p.maskTimer masked else p) = p := by
    intro vector masked
    rw [Platform.maskTimer_enabled h, ite_self]
  cases call with
  | configureTimer vector divideShift initialCount periodic =>
      exact Platform.configureTimer_spec h vector divideShift initialCount periodic
  | enable vector =>
      rw [TimerCall.apply, Platform.controllerEnable, hmask]
      exact ⟨h, rfl⟩
  | disable vector =>
      rw [TimerCall.apply, Platform.controllerDisable, hmask]
      exact ⟨h, rfl⟩

/-- Whatever is observed of the register is what the last `ConfigureTimer` made it. -/
theorem timerRun_observe {α : Type} (h : p.Enabled) (observe : BitVec 32 → α)
    (calls : List TimerCall) :
    observe (timerRun p calls).lvtTimer =
      lastSet (fun call => call.configured.map fun c => observe (Platform.lvtValue c.1 c.2)) calls
        (observe p.lvtTimer) := by
  have hinv : ∀ (p : Platform) (call : TimerCall), p.Enabled → (call.apply p).Enabled :=
    fun p call hp => (TimerCall.apply_spec hp call).1
  refine foldl_lastSet (fun p : Platform => observe p.lvtTimer) hinv ?_ calls h
  intro p call hp
  rw [(TimerCall.apply_spec hp call).2]
  cases call.configured <;> rfl

/-- The call is for the timer. -/
def TimerCall.concernsTimer (call : TimerCall) : Bool := call.maskRequest.isSome

/-- One of the calls is `ConfigureTimer`. -/
def Configured (calls : List TimerCall) : Prop := ∃ call ∈ calls, call.configured.isSome

/-- The condition on a sequence of calls, and on the mask bit before it. If `Enable` is the last
call for the timer, the timer was configured by an earlier call or its mask bit was clear already.
If `Disable` is, the timer was not configured and its mask bit was set already. -/
def MaskAsRequested (masked : Bool) (calls : List TimerCall) : Prop :=
  match (calls.filter TimerCall.concernsTimer).getLast? with
  | some (.enable _) => Configured calls ∨ masked = false
  | some (.disable _) => ¬ Configured calls ∧ masked = true
  | _ => True

theorem configured_concat (calls : List TimerCall) (call : TimerCall) :
    Configured (calls ++ [call]) ↔ Configured calls ∨ call.configured.isSome := by
  simp [Configured, or_and_right, exists_or]

/-- The mask bit that a run leaves: clear once the timer is configured, and otherwise as it was. -/
theorem lastSet_maskEffect (calls : List TimerCall) (masked : Bool) :
    lastSet TimerCall.maskEffect calls masked = true ↔ ¬ Configured calls ∧ masked = true := by
  induction calls using List.reverseRecOn with
  | nil => simp [Configured]
  | append_singleton calls call ih =>
      rw [lastSet_concat, configured_concat, TimerCall.maskEffect]
      cases hcall : call.configured with
      | none => simpa using ih
      | some value => simp

/-- A call for another vector does not bear on the condition. -/
theorem maskAsRequested_concat {calls : List TimerCall} {call : TimerCall} {masked : Bool}
    (hcall : call.maskRequest = none) :
    MaskAsRequested masked (calls ++ [call]) ↔ MaskAsRequested masked calls := by
  have hconfigured : Configured (calls ++ [call]) ↔ Configured calls := by
    rw [configured_concat]
    cases call <;> simp_all [TimerCall.configured, TimerCall.maskRequest]
  have hfilter : (calls ++ [call]).filter TimerCall.concernsTimer =
      calls.filter TimerCall.concernsTimer := by
    simp [TimerCall.concernsTimer, hcall]
  simp only [MaskAsRequested, hconfigured, hfilter]

/-- The condition after a call for the timer looks at that call. -/
theorem filter_concat {calls : List TimerCall} {call : TimerCall} {masked : Bool}
    (hcall : call.maskRequest = some masked) :
    ((calls ++ [call]).filter TimerCall.concernsTimer).getLast? = some call := by
  simp [TimerCall.concernsTimer, hcall]

/-- The mask bit is what was requested exactly under the condition. -/
theorem maskAsRequested_iff (masked : Bool) (calls : List TimerCall) :
    lastSet TimerCall.maskEffect calls masked =
        lastSet TimerCall.maskRequest calls masked ↔ MaskAsRequested masked calls := by
  induction calls using List.reverseRecOn with
  | nil => exact iff_of_true rfl trivial
  | append_singleton calls call ih =>
      rw [lastSet_concat, lastSet_concat]
      cases hrequest : call.maskRequest with
      | none =>
          have hnone : call.configured = none := by
            cases call <;> simp_all [TimerCall.configured, TimerCall.maskRequest]
          rw [maskAsRequested_concat hrequest, TimerCall.maskEffect, hnone]
          exact ih
      | some request =>
          rw [MaskAsRequested, filter_concat hrequest]
          cases call with
          | configureTimer vector divideShift initialCount periodic =>
              cases hrequest
              exact iff_of_true rfl trivial
          | enable vector =>
              obtain ⟨-, hvalue⟩ := Option.ite_none_right_eq_some.1 hrequest
              show lastSet TimerCall.maskEffect calls masked = request ↔
                Configured (calls ++ [.enable vector]) ∨ masked = false
              rw [← Option.some.inj hvalue, configured_concat, ← Bool.not_eq_true,
                lastSet_maskEffect, not_and_or, not_not, Bool.not_eq_true]
              simp [TimerCall.configured]
          | disable vector =>
              obtain ⟨-, hvalue⟩ := Option.ite_none_right_eq_some.1 hrequest
              show lastSet TimerCall.maskEffect calls masked = request ↔
                ¬ Configured (calls ++ [.disable vector]) ∧ masked = true
              rw [← Option.some.inj hvalue, configured_concat, lastSet_maskEffect]
              simp [TimerCall.configured]

/-- With the local APIC enabled, masking is effective exactly under the condition. -/
theorem timer_masking_iff (h : p.Enabled) (calls : List TimerCall) :
    MaskingEffective p calls ↔ MaskAsRequested (p.lvtTimer.getLsbD 16) calls := by
  have hmask := timerRun_observe h (fun lvt => lvt.getLsbD 16) calls
  simp only [Platform.lvtValue_mask] at hmask
  rw [← maskAsRequested_iff]
  constructor
  · intro heffective
    exact hmask.symm.trans heffective.mask
  · intro hrequested
    refine ⟨hmask.trans hrequested, ?_, ?_, ?_⟩
    · have hvector := timerRun_observe h (fun lvt => lvt.setWidth 8) calls
      simp only [Platform.lvtValue_vector] at hvector
      exact hvector
    · have hperiodic := timerRun_observe h (fun lvt => lvt.getLsbD 17) calls
      simp only [Platform.lvtValue_periodic] at hperiodic
      exact hperiodic
    · intro vector hvector
      exact ⟨if_neg hvector, if_neg hvector⟩

/-- The platform with the registers at their usual address, after `Enable`. -/
def enabledPlatform : Platform :=
  Platform.enable { apicBase := 0xFEE00900#64, words := fun _ => 0#32 }

theorem enabledPlatform_enabled : enabledPlatform.Enabled :=
  Platform.enabled_enable (by decide)

/-- A configured timer that is then enabled is unmasked. -/
theorem timer_masking_enable :
    MaskingEffective enabledPlatform
      [.configureTimer 0x60#8 3#8 1000#32 true, .enable 0x60#8] :=
  (timer_masking_iff enabledPlatform_enabled _).2
    (Or.inl ⟨_, List.mem_cons_self, rfl⟩)

/-- A configured timer that is then disabled stays unmasked. -/
theorem disabled_timer_unmasked :
    enabledPlatform.Enabled ∧
      (timerRun enabledPlatform
        [.configureTimer 0x60#8 3#8 1000#32 true, .disable 0x60#8]).lvtTimer = 0x20060#32 ∧
      ¬ MaskingEffective enabledPlatform
        [.configureTimer 0x60#8 3#8 1000#32 true, .disable 0x60#8] := by
  have hlvt := timerRun_observe enabledPlatform_enabled id
    [.configureTimer 0x60#8 3#8 1000#32 true, .disable 0x60#8]
  refine ⟨enabledPlatform_enabled, hlvt, ?_⟩
  intro heffective
  have hmask := heffective.mask
  rw [show (timerRun enabledPlatform
    [.configureTimer 0x60#8 3#8 1000#32 true, .disable 0x60#8]).lvtTimer = 0x20060#32 from hlvt]
    at hmask
  exact absurd hmask (by decide)

end HailOS.APIC
