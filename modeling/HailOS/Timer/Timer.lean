import HailOS.Lib.Clock
import HailOS.Lib.IntegralDouble

/-!
# The timer

`Timer`, after `Core/Timer/Timer.cpp`: `Sleep` waits on the time stamp counter, and `StopTimer` and
`LapTimer` convert the time since the last stamp. Both directions go through a `double`, but the
division comes first and is one of integers, so whatever is less than a second is lost.

`conversion_faithful_iff` says exactly when the conversions are those of the exact quotients.
-/

namespace HailOS.Kernel

open Lib

/-! ## The timer and its operations -/

/-- `TimeScale`. -/
inductive TimeScale where
  | seconds
  | milliseconds
  | nanosecounds
  deriving DecidableEq, Repr

/-- The value of the enumerator: the units in a second. -/
def TimeScale.units : TimeScale → BitVec 64
  | .seconds => 1#64
  | .milliseconds => 1000#64
  | .nanosecounds => 1000000000#64

theorem TimeScale.units_pos (timeScale : TimeScale) : 0 < timeScale.units.toNat := by
  cases timeScale <;> decide

/-- `TimerType`. -/
inductive TimerType where
  | tscTimer
  | apicTimer
  deriving DecidableEq, Repr

/-- `Timer`. Only timers on the time stamp counter are ever constructed. -/
structure Timer where
  freq : BitVec 64
  lastStamp : BitVec 64
  timeScale : TimeScale
  type : TimerType
  isTSC : type = .tscTimer

namespace Timer

/-- `Timer()`, with the frequency that the boot loader measured. -/
def create (tscFreq : BitVec 64) : Timer where
  freq := tscFreq
  lastStamp := 0#64
  timeScale := .milliseconds
  type := .tscTimer
  isTSC := rfl

/-- `Timer(TimerType)`: any other type is replaced. -/
def createOfType (tscFreq : BitVec 64) (type : TimerType) : Timer where
  freq := tscFreq
  lastStamp := 0#64
  timeScale := .milliseconds
  type := if type ≠ .tscTimer then .tscTimer else type
  isTSC := by
    cases type <;> rfl

/-- `GetCurrentStamp`. -/
def getCurrentStamp (t : Timer) (tsc : BitVec 64) : BitVec 64 :=
  if t.type = .tscTimer then tsc else 0#64

/-- `waitClock` of `Sleep`. -/
def waitClock (t : Timer) (value : BitVec 64) (timeScale : TimeScale) : BitVec 64 :=
  let sleepSec := IntegralDouble.ofUInt64 (value / timeScale.units)
  ((IntegralDouble.ofUInt64 t.freq).mul sleepSec).toUInt64

/-- `Sleep(value, timeScale)`: the index of the reading that ends the wait, or nothing if the wait
is not over after `fuel` readings. -/
def sleep (t : Timer) (clock : Clock) (fuel : Nat) (value : BitVec 64) (timeScale : TimeScale) :
    Option Nat :=
  if t.type = .tscTimer then
    let deadline := clock.reading 0 + t.waitClock value timeScale
    spin (fun i => !decide (clock.reading i < deadline)) fuel 1
  else some 0

/-- `Sleep(value)`. -/
def sleepDefault (t : Timer) (clock : Clock) (fuel : Nat) (value : BitVec 64) : Option Nat :=
  t.sleep clock fuel value t.timeScale

/-- `SetTimeScale`. -/
def setTimeScale (t : Timer) (timeScale : TimeScale) : Timer := { t with timeScale := timeScale }

/-- The common body of `StartTimer` and `RestartTimer`. -/
def stamp (t : Timer) (tsc : BitVec 64) : Timer :=
  if t.type = .tscTimer then { t with lastStamp := tsc } else t

/-- `StartTimer`. -/
def startTimer (t : Timer) (tsc : BitVec 64) : Timer := t.stamp tsc

/-- `RestartTimer`. -/
def restartTimer (t : Timer) (tsc : BitVec 64) : Timer := t.stamp tsc

/-- The common body of `StopTimer(timeScale)` and `LapTimer(timeScale)`. -/
def sinceStamp (t : Timer) (tsc : BitVec 64) (timeScale : TimeScale) : BitVec 64 :=
  if t.type = .tscTimer then
    let delta := tsc - t.lastStamp
    let elapsed := IntegralDouble.ofUInt64 (delta / t.freq)
    (elapsed.mul (IntegralDouble.ofUInt64 timeScale.units)).toUInt64
  else 0#64

/-- `StopTimer(timeScale)`. -/
def stopTimer (t : Timer) (tsc : BitVec 64) (timeScale : TimeScale) : BitVec 64 :=
  t.sinceStamp tsc timeScale

/-- `LapTimer(timeScale)`. -/
def lapTimer (t : Timer) (tsc : BitVec 64) (timeScale : TimeScale) : BitVec 64 :=
  t.sinceStamp tsc timeScale

/-- `StopTimer()`. -/
def stopTimerDefault (t : Timer) (tsc : BitVec 64) : BitVec 64 := t.stopTimer tsc t.timeScale

/-- `LapTimer()`. -/
def lapTimerDefault (t : Timer) (tsc : BitVec 64) : BitVec 64 := t.lapTimer tsc t.timeScale

/-! ## The exact conversions -/

/-- The cycles in a number of units of time. -/
def exactCycles (t : Timer) (value : BitVec 64) (timeScale : TimeScale) : Nat :=
  value.toNat * t.freq.toNat / timeScale.units.toNat

/-- The units of time in a number of cycles. -/
def exactUnits (t : Timer) (delta : BitVec 64) (timeScale : TimeScale) : Nat :=
  delta.toNat * timeScale.units.toNat / t.freq.toNat

/-- Sleeping from the count `start` waits for the exact number of cycles on every counter that does
not go round, and the time from the last stamp to the reading `tsc` is the exact number of units. -/
structure ConversionFaithful (t : Timer) (value : BitVec 64) (timeScale : TimeScale)
    (start tsc : BitVec 64) : Prop where
  sleep : ∀ (clock : Clock) (fuel : Nat), clock.count 0 = start.toNat → clock.count fuel < 2 ^ 64 →
    t.sleep clock fuel value timeScale = clock.waited fuel (t.exactCycles value timeScale)
  stop : (t.stopTimer tsc timeScale).toNat = t.exactUnits (tsc - t.lastStamp) timeScale
  lap : (t.lapTimer tsc timeScale).toNat = t.exactUnits (tsc - t.lastStamp) timeScale

variable {t : Timer} {value start tsc : BitVec 64}

/-- `Sleep` multiplies the whole seconds. -/
theorem toNat_waitClock {timeScale : TimeScale} (hvalue : value.toNat * t.freq.toNat < 2 ^ 53) :
    (t.waitClock value timeScale).toNat =
      t.freq.toNat * (value.toNat / timeScale.units.toNat) := by
  have hle : t.freq.toNat * (value.toNat / timeScale.units.toNat) ≤
      value.toNat * t.freq.toNat := by
    rw [Nat.mul_comm value.toNat]
    exact Nat.mul_le_mul_left _ (Nat.div_le_self _ _)
  rw [← BitVec.toNat_udiv] at hle ⊢
  exact IntegralDouble.toNat_toUInt64_mul (by omega)

/-- `StopTimer` and `LapTimer` multiply the whole seconds. -/
theorem toNat_sinceStamp {timeScale : TimeScale}
    (hdelta : (tsc - t.lastStamp).toNat * timeScale.units.toNat < 2 ^ 53) :
    (t.sinceStamp tsc timeScale).toNat =
      (tsc - t.lastStamp).toNat / t.freq.toNat * timeScale.units.toNat := by
  have hle : (tsc - t.lastStamp).toNat / t.freq.toNat * timeScale.units.toNat ≤
      (tsc - t.lastStamp).toNat * timeScale.units.toNat :=
    Nat.mul_le_mul_right _ (Nat.div_le_self _ _)
  rw [sinceStamp, if_pos t.isTSC]
  rw [← BitVec.toNat_udiv] at hle ⊢
  exact IntegralDouble.toNat_toUInt64_mul (by omega)

/-- `Sleep` waits for a reading at or after the deadline. -/
theorem sleep_eq {timeScale : TimeScale} {clock : Clock} {fuel : Nat}
    (hcount : clock.count 0 = start.toNat) (hround : clock.count fuel < 2 ^ 64) :
    t.sleep clock fuel value timeScale =
      spin (fun i => decide ((start.toNat + (t.waitClock value timeScale).toNat) % 2 ^ 64 ≤
        clock.count i)) fuel 1 := by
  have hcounts : ∀ i, i ≤ fuel → (clock.reading i).toNat = clock.count i := fun i hi =>
    clock.toNat_reading (Nat.lt_of_le_of_lt (clock.mono hi) hround)
  rw [sleep, if_pos t.isTSC]
  apply spin_congr
  intro i hlow hhigh
  rw [← decide_not]
  apply decide_eq_decide.2
  rw [BitVec.not_lt, BitVec.le_def, BitVec.toNat_add, hcounts i (by omega),
    hcounts 0 (Nat.zero_le _), hcount]

theorem sleep_faithful_iff {timeScale : TimeScale}
    (hvalue : value.toNat * t.freq.toNat < 2 ^ 53) :
    (∀ (clock : Clock) (fuel : Nat), clock.count 0 = start.toNat → clock.count fuel < 2 ^ 64 →
        t.sleep clock fuel value timeScale = clock.waited fuel (t.exactCycles value timeScale)) ↔
      t.freq.toNat * (value.toNat % timeScale.units.toNat) < timeScale.units.toNat ∧
        start.toNat + t.exactCycles value timeScale < 2 ^ 64 := by
  have hle : (t.waitClock value timeScale).toNat ≤ t.exactCycles value timeScale := by
    rw [toNat_waitClock hvalue, exactCycles, Nat.mul_comm value.toNat]
    exact Nat.mul_div_le_mul_div_assoc _ _ _
  have hwait : (t.waitClock value timeScale).toNat = t.exactCycles value timeScale ↔
      t.freq.toNat * (value.toNat % timeScale.units.toNat) < timeScale.units.toNat := by
    rw [toNat_waitClock hvalue, exactCycles]
    exact mul_div_eq_iff _ _ timeScale.units_pos
  rw [← hwait, ← Clock.deadline_eq_waited_iff start.isLt (t.waitClock value timeScale).isLt hle]
  refine forall₄_congr fun clock fuel hcount hround => ?_
  rw [sleep_eq hcount hround]

theorem sinceStamp_faithful_iff {timeScale : TimeScale} (hfreq : 0 < t.freq.toNat)
    (hdelta : (tsc - t.lastStamp).toNat * timeScale.units.toNat < 2 ^ 53) :
    (t.sinceStamp tsc timeScale).toNat = t.exactUnits (tsc - t.lastStamp) timeScale ↔
      timeScale.units.toNat * ((tsc - t.lastStamp).toNat % t.freq.toNat) < t.freq.toNat := by
  rw [toNat_sinceStamp hdelta, exactUnits, Nat.mul_comm (_ / _)]
  exact mul_div_eq_iff _ _ hfreq

/-- A timer that is started, put to sleep for a number of seconds and stopped has measured at least
that number: whole seconds are lost in neither direction. -/
theorem le_stopTimer_of_sleep {clock : Clock} {fuel k : Nat} (hfreq : 0 < t.freq.toNat)
    (hvalue : value.toNat * t.freq.toNat < 2 ^ 53) (hround : clock.count fuel < 2 ^ 64)
    (hdeadline : clock.count 0 + value.toNat * t.freq.toNat < 2 ^ 64)
    (hsleep : t.sleep clock fuel value .seconds = some k) (helapsed : clock.elapsed k < 2 ^ 53) :
    value.toNat ≤
      ((t.startTimer (clock.reading 0)).stopTimer (clock.reading k) .seconds).toNat := by
  have hunits : TimeScale.seconds.units.toNat = 1 := rfl
  have hfirst := clock.toNat_reading (i := 0) (by omega)
  rw [sleep_eq hfirst.symm hround, hfirst, toNat_waitClock hvalue, hunits, Nat.div_one,
    Nat.mul_comm t.freq.toNat, Nat.mod_eq_of_lt hdeadline] at hsleep
  obtain ⟨-, -, hdone, -⟩ := spin_eq_some.1 hsleep
  have hlate : clock.count 0 + value.toNat * t.freq.toNat ≤ clock.count k := of_decide_eq_true hdone
  have hstamp : t.startTimer (clock.reading 0) = { t with lastStamp := clock.reading 0 } := by
    rw [startTimer, stamp, if_pos t.isTSC]
  have hdelta : (clock.reading k - clock.reading 0).toNat = clock.elapsed k := by
    rw [clock.toNat_reading_sub, Nat.mod_eq_of_lt (by omega)]
  rw [hstamp, stopTimer, toNat_sinceStamp (by rw [hdelta, hunits]; omega), hdelta, hunits,
    Nat.mul_one, Nat.le_div_iff_mul_le hfreq, Clock.elapsed]
  omega

/-- The conversions are exact if and only if what they lose, the part of the value and of the
elapsed time that is less than a second, comes to less than one cycle and less than one unit, and
the deadline of the sleep does not wrap. -/
theorem conversion_faithful_iff (t : Timer) (value : BitVec 64) (timeScale : TimeScale)
    (start tsc : BitVec 64) (hfreq : 0 < t.freq.toNat)
    (hvalue : value.toNat * t.freq.toNat < 2 ^ 53)
    (hdelta : (tsc - t.lastStamp).toNat * timeScale.units.toNat < 2 ^ 53) :
    ConversionFaithful t value timeScale start tsc ↔
      t.freq.toNat * (value.toNat % timeScale.units.toNat) < timeScale.units.toNat ∧
        start.toNat + t.exactCycles value timeScale < 2 ^ 64 ∧
        timeScale.units.toNat * ((tsc - t.lastStamp).toNat % t.freq.toNat) < t.freq.toNat := by
  rw [← sinceStamp_faithful_iff hfreq hdelta, ← and_assoc, ← sleep_faithful_iff hvalue]
  constructor
  · intro h
    exact ⟨h.sleep, h.stop⟩
  · intro h
    exact ⟨h.1, h.2, h.2⟩

/-- Two seconds, with a counter of three gigahertz and an elapsed time of whole seconds. -/
theorem conversion_faithful_two_seconds :
    ConversionFaithful (create 3000000000#64) 2#64 .seconds 12345#64 9000000000#64 :=
  (conversion_faithful_iff _ _ _ _ _ (by decide) (by decide) (by decide)).2
    ⟨by decide, by decide, by decide⟩

/-- A sleep of 500 milliseconds with a counter of three gigahertz ends at the first reading, and a
time of 500 milliseconds is measured as none. -/
theorem half_second_lost :
    ((create 3000000000#64).sleep (Clock.jumping 12345 0) 1 500#64 .milliseconds = some 1 ∧
      (create 3000000000#64).exactCycles 500#64 .milliseconds = 1500000000) ∧
    ((create 3000000000#64).stopTimer 1500000000#64 .milliseconds = 0#64 ∧
      (create 3000000000#64).lapTimer 1500000000#64 .milliseconds = 0#64 ∧
      (create 3000000000#64).exactUnits 1500000000#64 .milliseconds = 500) ∧
    ¬ ConversionFaithful (create 3000000000#64) 500#64 .milliseconds 12345#64 1500000000#64 := by
  have hunits : (create 3000000000#64).stopTimer 1500000000#64 .milliseconds = 0#64 :=
    BitVec.eq_of_toNat_eq (toNat_sinceStamp (by decide))
  refine ⟨⟨rfl, rfl⟩, ⟨hunits, hunits, rfl⟩, ?_⟩
  intro hfaithful
  have hstop := hfaithful.stop
  rw [hunits] at hstop
  exact absurd hstop (by decide)

end Timer

end HailOS.Kernel
