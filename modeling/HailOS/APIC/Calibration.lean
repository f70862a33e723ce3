import HailOS.APIC.LAPIC
import HailOS.Lib.Clock

/-!
# Calibration of the local APIC timer

`CalibrateTimerInitialCountTSC`, after `Arch/x86_64/APIC/LAPIC.cpp`. The timer counts down from
`0x7FFFFFFF` while the function waits for `sampleMs` milliseconds of the time stamp counter, and
the counts that have passed are scaled to the target period. The count that is read back is up to
the hardware, so it is a parameter.

The products are computed in 64 bits. `calibration_exact_iff` says exactly for which parameters none
of them wraps around and the wait and the result are those of the computation over unbounded
integers.
-/

namespace HailOS.APIC

open Lib

/-- `startCount`. -/
def startCount : BitVec 32 := 0x7FFFFFFF#32

/-- `FALLBACK_INITIAL_COUNT`. -/
def fallbackInitialCount : BitVec 32 := 62500#32

/-- The cycles of the time stamp counter to wait for. -/
def targetDelta (tscHz : BitVec 64) (sampleMs : BitVec 32) : BitVec 64 :=
  (tscHz * sampleMs.setWidth 64) / 1000#64

/-- The last steps of `CalibrateTimerInitialCountTSC`: the two bounds on `initial64`. -/
def clampedCount (initial64 : BitVec 64) : BitVec 32 :=
  let initial64 := if initial64 = 0#64 then 1#64 else initial64
  let initial64 := if initial64 > 0xFFFFFFFF#64 then 0xFFFFFFFF#64 else initial64
  initial64.setWidth 32

/-- `deltaApic`: the counts that have passed, for the count that was read back. -/
def deltaApic (curr : BitVec 32) : BitVec 64 := (startCount - curr).setWidth 64

/-- `countsPerSec`. -/
def countsPerSec (curr sampleMs : BitVec 32) : BitVec 64 :=
  (deltaApic curr * 1000#64) / sampleMs.setWidth 64

/-- The end of `CalibrateTimerInitialCountTSC`: the initial count for the count that was read
back. -/
def scaledCount (curr targetPeriodUs sampleMs : BitVec 32) : BitVec 32 :=
  if deltaApic curr = 0#64 then fallbackInitialCount
  else clampedCount ((countsPerSec curr sampleMs * targetPeriodUs.setWidth 64) / 1000000#64)

/-- `CalibrateTimerInitialCountTSC`, where `curr` is read back from `LAPIC_TIMER_CURR`. It returns
the initial count together with the index of the last reading of the time stamp counter, and
nothing if the wait is not over after `fuel` readings. -/
def calibrateTimerInitialCountTSC (p : Platform) (clock : Clock) (fuel : Nat) (curr : BitVec 32)
    (tscHz : BitVec 64) (divideShift : BitVec 8) (targetPeriodUs sampleMs : BitVec 32) :
    Option ((BitVec 32 × Nat) × Platform) :=
  if p.lapicMMIOBase = 0 ∨ tscHz = 0 ∨ targetPeriodUs = 0 ∨ sampleMs = 0 then
    some ((fallbackInitialCount, 0), p)
  else
    let p := p.lapicWrite lapicTimerDiv ((divideShift &&& 7#8).setWidth 32)
    let lvt := p.lapicRead lapicLVTTimer
    let lvt := lvt &&& ~~~lvtPeriodic
    let lvt := lvt ||| lvtMasked
    let lvt := (lvt &&& 0xFFFFFF00#32) ||| vecTimer.setWidth 32
    let p := p.lapicWrite lapicLVTTimer lvt
    let p := p.lapicWrite lapicTimerInit startCount
    let done := fun i => decide (clock.reading i - clock.reading 0 ≥ targetDelta tscHz sampleMs)
    (spin done fuel 1).map fun i => ((scaledCount curr targetPeriodUs sampleMs, i), p)

/-! ## The computation over unbounded integers -/

/-- The initial count as computed without a bound on the numbers. -/
def exactCount (curr targetPeriodUs sampleMs : Nat) : Nat :=
  if curr = 0x7FFFFFFF then 62500
  else max 1 (min (2 ^ 32 - 1)
    ((0x7FFFFFFF - curr) * 1000 / sampleMs * targetPeriodUs / 1000000))

/-- None of the three products wraps around: the one of the wait, and the two of the scaling. -/
structure ProductsFit (curr : BitVec 32) (tscHz : BitVec 64) (targetPeriodUs sampleMs : BitVec 32) :
    Prop where
  wait : tscHz.umulOverflow (sampleMs.setWidth 64) = false
  perSec : (deltaApic curr).umulOverflow 1000#64 = false
  perPeriod : (countsPerSec curr sampleMs).umulOverflow (targetPeriodUs.setWidth 64) = false

/-- No product wraps around and, with every counter that does not go round during the wait, the
calibration waits for the exact number of cycles and returns the exact count. -/
structure CalibrationExact (p : Platform) (curr : BitVec 32) (tscHz : BitVec 64)
    (divideShift : BitVec 8) (targetPeriodUs sampleMs : BitVec 32) : Prop where
  products : ProductsFit curr tscHz targetPeriodUs sampleMs
  result : ∀ (clock : Clock) (fuel : Nat), clock.count fuel < clock.count 0 + 2 ^ 64 →
    (calibrateTimerInitialCountTSC p clock fuel curr tscHz divideShift targetPeriodUs
        sampleMs).map (fun r => (r.1.1.toNat, r.1.2)) =
      (clock.waited fuel (tscHz.toNat * sampleMs.toNat / 1000)).map
        (exactCount curr.toNat targetPeriodUs.toNat sampleMs.toNat, ·)

variable {p : Platform} {curr targetPeriodUs sampleMs : BitVec 32} {tscHz : BitVec 64}

theorem toNat_widen (x : BitVec 32) : (x.setWidth 64).toNat = x.toNat :=
  BitVec.toNat_setWidth_of_le (by omega)

theorem toNat_targetDelta (tscHz : BitVec 64) (sampleMs : BitVec 32) :
    (targetDelta tscHz sampleMs).toNat = tscHz.toNat * sampleMs.toNat % 2 ^ 64 / 1000 := by
  rw [targetDelta, BitVec.toNat_udiv, BitVec.toNat_mul, toNat_widen]
  rfl

/-- The wait is for the wrapped product. -/
theorem spin_targetDelta (clock : Clock) {fuel : Nat}
    (hround : clock.count fuel < clock.count 0 + 2 ^ 64) :
    spin (fun i => decide (clock.reading i - clock.reading 0 ≥ targetDelta tscHz sampleMs)) fuel 1 =
      clock.waited fuel (targetDelta tscHz sampleMs).toNat := by
  apply spin_congr
  intro i hlow hhigh
  have hle : clock.count i ≤ clock.count fuel := clock.mono (by omega)
  have helapsed : clock.elapsed i < 2 ^ 64 := by
    rw [Clock.elapsed]
    omega
  apply decide_eq_decide.2
  rw [ge_iff_le, BitVec.le_def, clock.toNat_reading_sub, Nat.mod_eq_of_lt helapsed]

theorem toNat_clampedCount (initial64 : BitVec 64) :
    (clampedCount initial64).toNat = min (2 ^ 32 - 1) (max 1 initial64.toNat) := by
  have hmax : (if initial64 = 0#64 then 1#64 else initial64).toNat = max 1 initial64.toNat := by
    by_cases hzero : initial64 = 0#64
    · rw [if_pos hzero, hzero]
      rfl
    · rw [if_neg hzero]
      have hne : initial64.toNat ≠ 0 := fun h => hzero (BitVec.eq_of_toNat_eq h)
      omega
  rw [clampedCount, ← hmax]
  by_cases hlarge : (if initial64 = 0#64 then 1#64 else initial64) > 0xFFFFFFFF#64
  · have hlt := BitVec.lt_def.1 hlarge
    rw [if_pos hlarge]
    rw [show (0xFFFFFFFF#64).toNat = 2 ^ 32 - 1 from rfl] at hlt
    rw [Nat.min_eq_left (by omega)]
    rfl
  · have hle := Nat.le_of_not_lt fun h => hlarge (BitVec.lt_def.2 h)
    rw [show (0xFFFFFFFF#64).toNat = 2 ^ 32 - 1 from rfl] at hle
    rw [if_neg hlarge, Nat.min_eq_right hle, BitVec.toNat_setWidth, Nat.mod_eq_of_lt (by omega)]

theorem toNat_deltaApic (hcurr : curr.toNat ≤ 0x7FFFFFFF) :
    (deltaApic curr).toNat = 0x7FFFFFFF - curr.toNat := by
  rw [deltaApic, toNat_widen, startCount, BitVec.toNat_sub_of_le (BitVec.le_def.2 hcurr)]
  rfl

/-- The first product of the scaling is below `2 ^ 31 * 1000`, so it never wraps. -/
theorem toNat_countsPerSec (sampleMs : BitVec 32) (hcurr : curr.toNat ≤ 0x7FFFFFFF) :
    (countsPerSec curr sampleMs).toNat =
      (0x7FFFFFFF - curr.toNat) * 1000 / sampleMs.toNat := by
  rw [countsPerSec, BitVec.toNat_udiv, BitVec.toNat_mul, toNat_deltaApic hcurr, toNat_widen,
    show (1000#64).toNat = 1000 from rfl, Nat.mod_eq_of_lt (by omega)]

/-- The products that can wrap are the one of the wait and the last one. -/
theorem productsFit_iff (tscHz : BitVec 64) (targetPeriodUs sampleMs : BitVec 32)
    (hcurr : curr.toNat ≤ 0x7FFFFFFF) :
    ProductsFit curr tscHz targetPeriodUs sampleMs ↔
      tscHz.toNat * sampleMs.toNat < 2 ^ 64 ∧
        (0x7FFFFFFF - curr.toNat) * 1000 / sampleMs.toNat * targetPeriodUs.toNat < 2 ^ 64 := by
  have hfits : ∀ x y : BitVec 64, x.umulOverflow y = false ↔ x.toNat * y.toNat < 2 ^ 64 := by
    intro x y
    rw [BitVec.umulOverflow, decide_eq_false_iff_not, ge_iff_le, Nat.not_le]
  have hfirst : (deltaApic curr).umulOverflow 1000#64 = false := by
    rw [hfits, toNat_deltaApic hcurr, show (1000#64).toNat = 1000 from rfl]
    omega
  rw [← toNat_countsPerSec sampleMs hcurr, ← toNat_widen sampleMs, ← toNat_widen targetPeriodUs,
    ← hfits, ← hfits]
  exact ⟨fun h => ⟨h.wait, h.perPeriod⟩, fun h => ⟨h.1, hfirst, h.2⟩⟩

/-- The result is that of the wrapped product. -/
theorem toNat_scaledCount (targetPeriodUs sampleMs : BitVec 32) (hcurr : curr.toNat < 0x7FFFFFFF) :
    (scaledCount curr targetPeriodUs sampleMs).toNat =
      min (2 ^ 32 - 1) (max 1 ((0x7FFFFFFF - curr.toNat) * 1000 / sampleMs.toNat *
        targetPeriodUs.toNat % 2 ^ 64 / 1000000)) := by
  have hdelta := toNat_deltaApic (Nat.le_of_lt hcurr)
  have hne : deltaApic curr ≠ 0#64 := by
    intro h
    rw [h, BitVec.toNat_zero] at hdelta
    omega
  rw [scaledCount, if_neg hne, toNat_clampedCount, BitVec.toNat_udiv, BitVec.toNat_mul,
    toNat_countsPerSec sampleMs (Nat.le_of_lt hcurr), toNat_widen]
  rfl

theorem scaledCount_start (targetPeriodUs sampleMs : BitVec 32) (hcurr : curr.toNat = 0x7FFFFFFF) :
    (scaledCount curr targetPeriodUs sampleMs).toNat = 62500 := by
  have heq : curr = startCount := BitVec.eq_of_toNat_eq hcurr
  rw [heq, scaledCount, deltaApic, BitVec.sub_self]
  rfl

/-- The result is exact if the last product does not wrap. -/
theorem scaledCount_exact (hcurr : curr.toNat ≤ 0x7FFFFFFF)
    (hfits : (0x7FFFFFFF - curr.toNat) * 1000 / sampleMs.toNat * targetPeriodUs.toNat < 2 ^ 64) :
    (scaledCount curr targetPeriodUs sampleMs).toNat =
      exactCount curr.toNat targetPeriodUs.toNat sampleMs.toNat := by
  rw [exactCount]
  by_cases hstart : curr.toNat = 0x7FFFFFFF
  · rw [if_pos hstart, scaledCount_start _ _ hstart]
  · rw [if_neg hstart, toNat_scaledCount _ _ (by omega), Nat.mod_eq_of_lt hfits]
    omega

/-- The calibration with usable parameters waits for the wrapped number of cycles and returns the
scaled count. -/
theorem calibrate_eq (hmmio : p.lapicMMIOBase ≠ 0) (htsc : 0 < tscHz.toNat)
    (htarget : 0 < targetPeriodUs.toNat) (hsample : 0 < sampleMs.toNat) (divideShift : BitVec 8)
    (clock : Clock) {fuel : Nat} (hround : clock.count fuel < clock.count 0 + 2 ^ 64) :
    (calibrateTimerInitialCountTSC p clock fuel curr tscHz divideShift targetPeriodUs
        sampleMs).map (fun r => (r.1.1.toNat, r.1.2)) =
      (clock.waited fuel (tscHz.toNat * sampleMs.toNat % 2 ^ 64 / 1000)).map
        ((scaledCount curr targetPeriodUs sampleMs).toNat, ·) := by
  have hne : ∀ {w : Nat} {x : BitVec w}, 0 < x.toNat → x ≠ 0 := by
    intro w x hpos hzero
    simp [hzero] at hpos
  have husable : ¬(p.lapicMMIOBase = 0 ∨ tscHz = 0 ∨ targetPeriodUs = 0 ∨ sampleMs = 0) := by
    rintro (h | h | h | h)
    · exact hmmio h
    · exact hne htsc h
    · exact hne htarget h
    · exact hne hsample h
  rw [calibrateTimerInitialCountTSC, if_neg husable]
  dsimp only
  rw [spin_targetDelta clock hround, toNat_targetDelta, Option.map_map, Function.comp_def]

/-- Without the registers nothing is waited for, not even a first reading. -/
theorem not_calibrationExact_of_null (hmmio : p.lapicMMIOBase = 0) (divideShift : BitVec 8) :
    ¬ CalibrationExact p curr tscHz divideShift targetPeriodUs sampleMs := by
  intro hexact
  have hspec := hexact.result (Clock.jumping 0 0) 0 (Nat.lt_add_of_pos_right (Nat.two_pow_pos 64))
  rw [calibrateTimerInitialCountTSC, if_pos (Or.inl hmmio)] at hspec
  cases hspec

/-- No product wraps and the calibration is exact if and only if the registers are there and 64 bits
hold the product of the wait and the last product of the scaling. -/
theorem calibration_exact_iff (p : Platform) (curr : BitVec 32) (tscHz : BitVec 64)
    (divideShift : BitVec 8) (targetPeriodUs sampleMs : BitVec 32) (htsc : 0 < tscHz.toNat)
    (htarget : 0 < targetPeriodUs.toNat) (hsample : 0 < sampleMs.toNat)
    (hcurr : curr.toNat ≤ 0x7FFFFFFF) :
    CalibrationExact p curr tscHz divideShift targetPeriodUs sampleMs ↔
      p.lapicMMIOBase ≠ 0 ∧ tscHz.toNat * sampleMs.toNat < 2 ^ 64 ∧
        (0x7FFFFFFF - curr.toNat) * 1000 / sampleMs.toNat * targetPeriodUs.toNat < 2 ^ 64 := by
  rw [← productsFit_iff tscHz targetPeriodUs sampleMs hcurr]
  constructor
  · intro hexact
    exact ⟨fun hmmio => not_calibrationExact_of_null hmmio divideShift hexact, hexact.products⟩
  · rintro ⟨hmmio, hproducts⟩
    obtain ⟨hwait, hlast⟩ := (productsFit_iff tscHz targetPeriodUs sampleMs hcurr).1 hproducts
    refine ⟨hproducts, fun clock fuel hround => ?_⟩
    rw [calibrate_eq hmmio htsc htarget hsample divideShift clock hround, Nat.mod_eq_of_lt hwait,
      scaledCount_exact hcurr hlast]

/-- The parameters of `InitPerCPUAndTime` with a counter of three gigahertz. -/
theorem calibration_exact_three_gigahertz :
    CalibrationExact enabledPlatform 0x70000000#32 3000000000#64 3#8 1000#32 200#32 :=
  (calibration_exact_iff _ _ _ _ _ _ (by decide) (by decide) (by decide) (by decide)).2
    ⟨by decide, by decide, by decide⟩

/-- A timer that runs through its whole count in one millisecond, with a target period of over eight
seconds: the product wraps, and what is left of it gives a count far below the upper bound. -/
theorem long_period_wraps :
    (calibrateTimerInitialCountTSC enabledPlatform (Clock.jumping 0 3000000) 1 0#32 3000000000#64
        3#8 8589935#32 1#32).map (fun r => (r.1.1.toNat, r.1.2)) = some (867583, 1) ∧
      exactCount 0 8589935 1 = 2 ^ 32 - 1 ∧
      ¬ CalibrationExact enabledPlatform 0#32 3000000000#64 3#8 8589935#32 1#32 := by
  have hround : (Clock.jumping 0 3000000).count 1 < (Clock.jumping 0 3000000).count 0 + 2 ^ 64 := by
    decide
  have hcode : (calibrateTimerInitialCountTSC enabledPlatform (Clock.jumping 0 3000000) 1 0#32
      3000000000#64 3#8 8589935#32 1#32).map (fun r => (r.1.1.toNat, r.1.2)) =
        some (867583, 1) := by
    rw [calibrate_eq (by decide) (by decide) (by decide) (by decide) _ _ hround,
      toNat_scaledCount _ _ (by decide), Clock.waited_jumping]
    decide
  refine ⟨hcode, rfl, ?_⟩
  intro hexact
  have hspec := hexact.result (Clock.jumping 0 3000000) 1 hround
  rw [hcode, Clock.waited_jumping] at hspec
  exact absurd hspec (by decide)

end HailOS.APIC
