import Mathlib.Data.Nat.Find
import Mathlib.Tactic.Common

/-!
# First-fit search

A first-fit allocator looks for the lowest run of `n` consecutive free slots. `scanRun` is the
usual one-pass search that counts the free slots seen since the last used one, and
`scanRun_some` and `scanRun_none` say that it finds the first run below its limit, and that
there is none if it finds nothing.
-/

namespace HailOS.Lib

variable {free : Nat → Bool} {n : Nat}

/-- The `n` slots from `s` on are free. -/
def FreeRun (free : Nat → Bool) (n s : Nat) : Prop :=
  ∀ k, s ≤ k → k < s + n → free k = true

/-- `s` starts the lowest free run of length `n`, and the run ends at or below `limit`. -/
structure FirstRun (free : Nat → Bool) (n limit s : Nat) : Prop where
  fits : s + n ≤ limit
  run : FreeRun free n s
  first : ∀ s' < s, ¬ FreeRun free n s'

/-- There is at most one first run. -/
theorem FirstRun.unique {limit s t : Nat} (hs : FirstRun free n limit s)
    (ht : FirstRun free n limit t) : s = t := by
  rcases Nat.lt_trichotomy s t with hlt | heq | hgt
  · exact absurd hs.run (ht.first s hlt)
  · exact heq
  · exact absurd ht.run (hs.first t hgt)

/-- Where there is a free run, there is a first one. -/
theorem exists_firstRun {limit s : Nat} (hfits : s + n ≤ limit) (hrun : FreeRun free n s) :
    ∃ t, FirstRun free n limit t := by
  classical
  have hexists : ∃ t, FreeRun free n t := ⟨s, hrun⟩
  have hle := Nat.find_min' hexists hrun
  exact ⟨Nat.find hexists, by omega, Nat.find_spec hexists, fun _ => Nat.find_min hexists⟩

/-- The slot before the first run is used. -/
theorem FirstRun.used_before {limit s : Nat} (h : FirstRun free n limit s) (hs : 0 < s) :
    free (s - 1) = false := by
  cases hbit : free (s - 1) with
  | false => rfl
  | true =>
      refine absurd (fun k hlow hhigh => ?_) (h.first (s - 1) (by omega))
      by_cases hk : k = s - 1
      · rw [hk]
        exact hbit
      · exact h.run k (by omega) (by omega)

/-- Scan `count` slots from `i` on, with `run` free slots directly before `i`. -/
def scanRun (free : Nat → Bool) (n : Nat) : (count i run : Nat) → Option Nat
  | 0, _, _ => none
  | count + 1, i, run =>
      if free i then
        if run + 1 = n then some (i - (n - 1)) else scanRun free n count (i + 1) (run + 1)
      else scanRun free n count (i + 1) 0

/-- What the scan knows at slot `i`: the last `run` slots are free and preceded by a used one,
and no run of length `n` ends at or before `i`. -/
structure ScanState (free : Nat → Bool) (n i run : Nat) : Prop where
  short : run < n
  bounded : run ≤ i
  recent : ∀ k, i - run ≤ k → k < i → free k = true
  maximal : i = run ∨ free (i - run - 1) = false
  none_before : ∀ s, s + n ≤ i → ¬ FreeRun free n s

variable {count i run : Nat}

/-- At slot 0 nothing has been seen. -/
theorem ScanState.initial (hn : 0 < n) : ScanState free n 0 0 where
  short := hn
  bounded := Nat.le_refl 0
  recent := fun k _ hk => by omega
  maximal := .inl rfl
  none_before := fun s hs => by omega

/-- A used slot starts the count again. -/
theorem ScanState.used (h : ScanState free n i run) (hi : free i = false) :
    ScanState free n (i + 1) 0 where
  short := by
    have := h.short
    omega
  bounded := Nat.zero_le _
  recent := fun k hlow hhigh => by omega
  maximal := .inr (by simpa using hi)
  none_before := by
    intro s hs hrun
    by_cases hlast : s + n = i + 1
    · have hshort := h.short
      have hfree := hrun i (by omega) (by omega)
      rw [hi] at hfree
      cases hfree
    · exact h.none_before s (by omega) hrun

/-- A free slot that does not complete a run lengthens the count. -/
theorem ScanState.unused (h : ScanState free n i run) (hi : free i = true) (hne : run + 1 ≠ n) :
    ScanState free n (i + 1) (run + 1) where
  short := by
    have := h.short
    omega
  bounded := by
    have := h.bounded
    omega
  recent := by
    intro k hlow hhigh
    by_cases hk : k = i
    · rw [hk]
      exact hi
    · exact h.recent k (by omega) (by omega)
  maximal := by
    rcases h.maximal with heq | hused
    · exact .inl (by omega)
    · refine .inr ?_
      rwa [show i + 1 - (run + 1) - 1 = i - run - 1 by omega]
  none_before := by
    intro s hs hrun
    have hshort := h.short
    by_cases hlast : s + n = i + 1
    · -- a run ending here would reach over the used slot before the counted ones
      rcases h.maximal with heq | hused
      · omega
      · have hfree := hrun (i - run - 1) (by omega) (by omega)
        rw [hused] at hfree
        cases hfree
    · exact h.none_before s (by omega) hrun

/-- A slot that completes the count ends the first run. -/
theorem ScanState.found (h : ScanState free n i run) (hi : free i = true) (heq : run + 1 = n) :
    FirstRun free n (i + 1) (i - (n - 1)) where
  fits := by
    have := h.bounded
    omega
  run := by
    intro k hlow hhigh
    have hbounded := h.bounded
    by_cases hk : k = i
    · rw [hk]
      exact hi
    · exact h.recent k (by omega) (by omega)
  first := by
    intro s hs
    have hbounded := h.bounded
    exact h.none_before s (by omega)

/-- A successful scan returns the first run. -/
theorem scanRun_some {s : Nat} (h : ScanState free n i run)
    (hscan : scanRun free n count i run = some s) : FirstRun free n (i + count) s := by
  induction count generalizing i run with
  | zero => simp [scanRun] at hscan
  | succ count ih =>
      have hlimit : i + 1 + count = i + (count + 1) := by omega
      rw [scanRun] at hscan
      split at hscan
      · next hi =>
          split at hscan
          · next heq =>
              cases hscan
              have hfound := h.found hi heq
              exact ⟨by have := hfound.fits; omega, hfound.run, hfound.first⟩
          · next hne => exact hlimit ▸ ih (h.unused hi hne) hscan
      · next hi => exact hlimit ▸ ih (h.used (by simpa using hi)) hscan

/-- A failed scan means that there is no run below the limit. -/
theorem scanRun_none (h : ScanState free n i run)
    (hscan : scanRun free n count i run = none) {s : Nat} (hs : s + n ≤ i + count) :
    ¬ FreeRun free n s := by
  induction count generalizing i run with
  | zero => exact h.none_before s hs
  | succ count ih =>
      rw [scanRun] at hscan
      split at hscan
      · next hi =>
          split at hscan
          · cases hscan
          · next hne => exact ih (h.unused hi hne) hscan (by omega)
      · next hi => exact ih (h.used (by simpa using hi)) hscan (by omega)

end HailOS.Lib
