import Mathlib.Data.BitVec
import Mathlib.Order.Monotone.Basic

/-!
# Waiting on a counter

A free-running counter is read again and again until a test on the reading holds. The counter is a
count of cycles that never decreases, and a reading is the low 64 bits of the count. `spin` is the
waiting loop with a bound on the number of readings, and gives the index of the reading that ended
it. `spin_eq_some` says that this is the first reading to pass the test.

`Clock.waited` is the loop that waits until the count has advanced by a number of cycles, over
unbounded integers.
-/

namespace HailOS.Lib

/-! ## The waiting loop -/

/-- Read until the test holds, from reading `i` on and with at most `fuel` readings. -/
def spin (done : Nat → Bool) : (fuel i : Nat) → Option Nat
  | 0, _ => none
  | fuel + 1, i => if done i then some i else spin done fuel (i + 1)

variable {done done' : Nat → Bool} {fuel i k : Nat}

/-- Tests that agree on the readings that are made end the loop at the same one. -/
theorem spin_congr (h : ∀ j, i ≤ j → j < i + fuel → done j = done' j) :
    spin done fuel i = spin done' fuel i := by
  induction fuel generalizing i with
  | zero => rfl
  | succ fuel ih =>
      rw [spin, spin, h i (Nat.le_refl i) (by omega)]
      split
      · rfl
      · exact ih fun j hlow hhigh => h j (by omega) (by omega)

/-- The loop ends at the first reading that passes the test. -/
theorem spin_eq_some :
    spin done fuel i = some k ↔
      i ≤ k ∧ k < i + fuel ∧ done k = true ∧ ∀ j, i ≤ j → j < k → done j = false := by
  induction fuel generalizing i with
  | zero =>
      refine iff_of_false (fun h => nomatch h) ?_
      intro h
      omega
  | succ fuel ih =>
      rw [spin]
      by_cases hdone : done i = true
      · rw [if_pos hdone, Option.some.injEq]
        constructor
        · intro h
          subst h
          exact ⟨Nat.le_refl i, by omega, hdone, fun j hlow hhigh => by omega⟩
        · intro h
          obtain ⟨hlow, -, -, hbefore⟩ := h
          by_contra hne
          have hfalse := hbefore i (Nat.le_refl i) (by omega)
          rw [hdone] at hfalse
          cases hfalse
      · rw [if_neg hdone, ih]
        constructor
        · intro h
          obtain ⟨hlow, hhigh, hk, hbefore⟩ := h
          refine ⟨by omega, by omega, hk, fun j hj hjk => ?_⟩
          by_cases hji : j = i
          · rw [hji]
            exact Bool.eq_false_iff.2 hdone
          · exact hbefore j (by omega) hjk
        · intro h
          obtain ⟨hlow, hhigh, hk, hbefore⟩ := h
          have hne : k ≠ i := fun heq => hdone (heq ▸ hk)
          exact ⟨by omega, by omega, hk, fun j hj hjk => hbefore j (by omega) hjk⟩

/-- The loop ends if a reading within the bound passes the test. -/
theorem exists_spin_eq_some (hlow : i ≤ k) (hhigh : k < i + fuel) (hk : done k = true) :
    ∃ j, spin done fuel i = some j := by
  induction fuel generalizing i with
  | zero => omega
  | succ fuel ih =>
      rw [spin]
      by_cases hdone : done i = true
      · exact ⟨i, if_pos hdone⟩
      · have hne : i ≠ k := fun heq => hdone (heq ▸ hk)
        rw [if_neg hdone]
        exact ih (by omega) (by omega)

/-! ## Counters -/

/-- The count of cycles at each reading. -/
structure Clock where
  count : Nat → Nat
  mono : Monotone count

namespace Clock

variable (clock : Clock)

/-- The low 64 bits of the count. -/
def reading (i : Nat) : BitVec 64 := BitVec.ofNat 64 (clock.count i)

/-- The cycles since the first reading. -/
def elapsed (i : Nat) : Nat := clock.count i - clock.count 0

/-- The difference of two readings is the elapsed number of cycles, up to a round of the counter. -/
theorem toNat_reading_sub (i : Nat) :
    (clock.reading i - clock.reading 0).toNat = clock.elapsed i % 2 ^ 64 := by
  have hle : clock.count 0 ≤ clock.count i := clock.mono (Nat.zero_le i)
  rw [reading, reading, elapsed, BitVec.toNat_sub, BitVec.toNat_ofNat, BitVec.toNat_ofNat]
  omega

theorem toNat_reading {i : Nat} (h : clock.count i < 2 ^ 64) :
    (clock.reading i).toNat = clock.count i := by
  rw [reading, BitVec.toNat_ofNat, Nat.mod_eq_of_lt h]

/-- The first reading after the start that is at least `cycles` later, if it is among the first
`fuel`. -/
def waited (fuel cycles : Nat) : Option Nat :=
  spin (fun i => decide (cycles ≤ clock.elapsed i)) fuel 1

/-- A counter that jumps by `cycles` after the first reading and then stands still. -/
def jumping (start cycles : Nat) : Clock :=
  ⟨fun i => if i = 0 then start else start + cycles, by
    intro i j hij
    dsimp only
    split
    · split
      · exact Nat.le_refl _
      · exact Nat.le_add_right _ _
    · rw [if_neg (by omega)]⟩

theorem elapsed_jumping (start cycles : Nat) {i : Nat} (hi : i ≠ 0) :
    (jumping start cycles).elapsed i = cycles := by
  simp [elapsed, jumping, hi]

/-- A jump that is long enough ends the wait at once, a shorter one does not. -/
theorem waited_jumping (start cycles cycles' : Nat) :
    (jumping start cycles).waited 1 cycles' = if cycles' ≤ cycles then some 1 else none := by
  simp only [waited, spin, elapsed_jumping start cycles (Nat.succ_ne_zero 0), decide_eq_true_iff]

/-- The loop that waits for a reading of at least `start + cycles`, where the sum wraps. On every
counter that starts there and does not go round it waits for `cycles'` cycles only if the sum does
not wrap and the two are equal, provided that it does not aim too far. -/
theorem deadline_eq_waited_iff {start cycles cycles' : Nat} (hstart : start < 2 ^ 64)
    (hcycles : cycles < 2 ^ 64) (hle : cycles ≤ cycles') :
    (∀ (clock : Clock) (fuel : Nat), clock.count 0 = start → clock.count fuel < 2 ^ 64 →
        spin (fun i => decide ((start + cycles) % 2 ^ 64 ≤ clock.count i)) fuel 1 =
          clock.waited fuel cycles') ↔
      cycles = cycles' ∧ start + cycles' < 2 ^ 64 := by
  constructor
  · intro h
    have hcode : ∀ n, (start + cycles) % 2 ^ 64 ≤ start + n → start + n < 2 ^ 64 → cycles' ≤ n := by
      intro n htest hround
      have hwait := h (jumping start n) 1 rfl hround
      rw [waited_jumping, spin, show (jumping start n).count 1 = start + n from rfl,
        if_pos (decide_eq_true htest)] at hwait
      by_contra hshort
      rw [if_neg hshort] at hwait
      cases hwait
    by_cases hwrap : start + cycles < 2 ^ 64
    · have hge := hcode cycles (Nat.mod_le _ _) hwrap
      omega
    · -- the deadline lies before the start, so that the loop ends at once
      have hzero := hcode 0 (by omega) hstart
      omega
  · intro h clock fuel hcount hround
    apply spin_congr
    intro i hlow hhigh
    have hfirst : clock.count 0 ≤ clock.count i := clock.mono (Nat.zero_le i)
    apply decide_eq_decide.2
    rw [elapsed, ← h.1, Nat.mod_eq_of_lt (by omega)]
    omega

end Clock

/-! ## Conversion of units -/

/-- Dividing before multiplying gives the same quotient if and only if the remainder, multiplied,
stays below the divisor. -/
theorem mul_div_eq_iff (a b : Nat) {k : Nat} (hk : 0 < k) :
    a * (b / k) = b * a / k ↔ a * (b % k) < k := by
  have hsplit : b * a = k * (a * (b / k)) + a * (b % k) :=
    calc b * a = (k * (b / k) + b % k) * a := by rw [Nat.div_add_mod]
      _ = k * (a * (b / k)) + a * (b % k) := by
        rw [Nat.add_mul, Nat.mul_assoc, Nat.mul_comm (b / k) a, Nat.mul_comm (b % k) a]
  rw [hsplit, Nat.mul_add_div hk, Nat.left_eq_add, Nat.div_eq_zero_iff_lt hk]

end HailOS.Lib
