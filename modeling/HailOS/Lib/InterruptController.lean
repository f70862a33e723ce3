import HailOS.Lib.Steps
import Mathlib.Data.Finset.Max

/-!
# Interrupt controllers

A controller keeps the sources that request service and those that are in service. A source that
requests again before it is served is served once. The highest requested source is served next, if
its class is above those of all sources in service. The end of an interrupt takes the highest
source out of service, and does nothing if there is none.

`mem_requested_handle` and `handle_served` say what happens while a source is served, where
requests and end-of-interrupt signals come in any order. `ahead` is the number of sources that are
to be served before a given one, and `ahead_accept` and `ahead_handle_le` say how it changes.
`pending` is whether a source waits, and it changes likewise.
-/

namespace HailOS.Lib

/-- The sources that request service and those that are in service. -/
structure Controller (V : Type) where
  requested : Finset V := ∅
  inService : Finset V := ∅

/-- What a controller is told. -/
inductive Signal (V : Type) where
  | raise (v : V)
  | endOfInterrupt
  deriving DecidableEq, Repr

/-- The signal ends an interrupt. -/
def Signal.isEnd {V : Type} : Signal V → Bool
  | .endOfInterrupt => true
  | .raise _ => false

/-- The signal is a request of a source above the given one. -/
def Signal.above {V : Type} [LinearOrder V] (v : V) : Signal V → Bool
  | .raise w => decide (v < w)
  | .endOfInterrupt => false

namespace Controller

variable {V : Type} [LinearOrder V]

/-- A source requests service. -/
def raise (c : Controller V) (v : V) : Controller V :=
  { c with requested := insert v c.requested }

/-- The end of an interrupt. -/
def endOfInterrupt (c : Controller V) : Controller V :=
  if h : c.inService.Nonempty then
    { c with inService := c.inService.erase (c.inService.max' h) }
  else c

/-- The source to be served next, for the classes `cls`. -/
def next (cls : V → ℕ) (c : Controller V) : Option V :=
  if h : c.requested.Nonempty then
    if ∀ w ∈ c.inService, cls w < cls (c.requested.max' h) then some (c.requested.max' h) else none
  else none

/-- A source goes into service. -/
def accept (c : Controller V) (v : V) : Controller V where
  requested := c.requested.erase v
  inService := insert v c.inService

/-- The effect of a signal. -/
def signal (c : Controller V) : Signal V → Controller V
  | .raise v => c.raise v
  | .endOfInterrupt => c.endOfInterrupt

/-- The effect of the signals that come while an interrupt is handled. -/
def handle (c : Controller V) (during : List (Signal V)) : Controller V := during.foldl signal c

theorem handle_cons (c : Controller V) (first : Signal V) (rest : List (Signal V)) :
    c.handle (first :: rest) = (c.signal first).handle rest := rfl

variable {c : Controller V} {v w : V} {during : List (Signal V)} {cls : V → ℕ}

@[simp] theorem requested_endOfInterrupt : c.endOfInterrupt.requested = c.requested := by
  unfold endOfInterrupt
  split <;> rfl

/-- With nothing in service, the end of an interrupt is ignored. -/
theorem endOfInterrupt_idle (h : c.inService = ∅) : c.endOfInterrupt = c :=
  dif_neg (Finset.not_nonempty_iff_eq_empty.mpr h)

/-- The only source in service goes out of it. -/
theorem inService_endOfInterrupt_singleton (h : c.inService = {v}) :
    c.endOfInterrupt.inService = ∅ := by
  have hne : c.inService.Nonempty := by simp [h]
  have hmax : c.inService.max' hne = v := by simp [h]
  rw [endOfInterrupt, dif_pos hne]
  show c.inService.erase (c.inService.max' hne) = ∅
  rw [hmax, h, Finset.erase_singleton]

/-- A source that is served next was requested, and no requested one is higher. -/
theorem next_eq_some (h : c.next cls = some v) : v ∈ c.requested ∧ ∀ w ∈ c.requested, w ≤ v := by
  unfold next at h
  split at h
  · next hne =>
      split at h
      · cases h
        exact ⟨Finset.max'_mem _ _, fun w hw => Finset.le_max' _ w hw⟩
      · cases h
  · cases h

/-- With nothing in service, a requested source or a higher one is served next. -/
theorem next_of_idle (h : c.inService = ∅) (hv : v ∈ c.requested) :
    ∃ w, c.next cls = some w ∧ v ≤ w := by
  have hne : c.requested.Nonempty := ⟨v, hv⟩
  refine ⟨c.requested.max' hne, ?_, Finset.le_max' _ v hv⟩
  rw [next, dif_pos hne, if_pos]
  simp [h]

/-! ## While an interrupt is handled -/

/-- The requests before and during. -/
theorem mem_requested_handle :
    w ∈ (c.handle during).requested ↔ w ∈ c.requested ∨ .raise w ∈ during := by
  induction during generalizing c with
  | nil => simp [handle]
  | cons first rest ih =>
      rw [handle_cons, ih]
      cases first with
      | raise v => simp [signal, raise, or_assoc, or_left_comm]
      | endOfInterrupt => simp [signal]

/-- Nothing goes into service. -/
theorem handle_idle (h : c.inService = ∅) : (c.handle during).inService = ∅ := by
  induction during generalizing c with
  | nil => exact h
  | cons first rest ih =>
      rw [handle_cons]
      refine ih ?_
      cases first with
      | raise v => exact h
      | endOfInterrupt =>
          show c.endOfInterrupt.inService = ∅
          rw [endOfInterrupt_idle h, h]

/-- The only source in service goes out of it with the first signal that ends an interrupt, and the
others are ignored. -/
theorem handle_served (h : c.inService = {v}) :
    (c.handle during).inService = if during.any Signal.isEnd then ∅ else {v} := by
  induction during generalizing c with
  | nil => exact h
  | cons first rest ih =>
      rw [handle_cons]
      cases first with
      | raise w => exact ih h
      | endOfInterrupt => exact handle_idle (inService_endOfInterrupt_singleton h)

/-! ## Waiting -/

/-- The number of requested sources above a given one. -/
def ahead (c : Controller V) (v : V) : ℕ := (c.requested.filter fun w => v < w).card

/-- A request adds at most one source. -/
theorem ahead_signal_le (s : Signal V) :
    (c.signal s).ahead v ≤ c.ahead v + if s.above v then 1 else 0 := by
  cases s with
  | raise w =>
      show ((insert w c.requested).filter fun x => v < x).card ≤ _
      rw [Finset.filter_insert]
      by_cases hw : v < w
      · simp only [hw, if_true, Signal.above, decide_true]
        exact Finset.card_insert_le _ _
      · simp [hw, Signal.above, ahead]
  | endOfInterrupt => simp [signal, ahead, Signal.above]

theorem ahead_handle_le :
    (c.handle during).ahead v ≤ c.ahead v + during.countP (Signal.above v) := by
  induction during generalizing c with
  | nil => exact Nat.le_refl _
  | cons first rest ih =>
      rw [handle_cons, List.countP_cons]
      have hfirst := ahead_signal_le (c := c) (v := v) first
      have hrest := ih (c := c.signal first)
      omega

/-- A higher source that goes into service is not ahead any more. -/
theorem ahead_accept (hw : w ∈ c.requested) (hv : v < w) :
    (c.accept w).ahead v + 1 = c.ahead v := by
  show ((c.requested.erase w).filter fun x => v < x).card + 1 = _
  rw [Finset.filter_erase]
  exact Finset.card_erase_add_one (Finset.mem_filter.mpr ⟨hw, hv⟩)

/-! ## Coalescing -/

/-- The source waits for service. However often it requests it meanwhile, it is served once. -/
def pending (c : Controller V) (v : V) : ℕ := if v ∈ c.requested then 1 else 0

theorem pending_signal_le (s : Signal V) :
    (c.signal s).pending v ≤ c.pending v + if s = .raise v then 1 else 0 := by
  cases s with
  | raise w =>
      by_cases hw : w = v
      · simp [signal, raise, pending, hw]
      · simp [signal, raise, pending, hw, Ne.symm hw]
  | endOfInterrupt => simp [signal, pending]

theorem pending_handle_le :
    (c.handle during).pending v ≤ c.pending v + during.count (.raise v) := by
  induction during generalizing c with
  | nil => exact Nat.le_refl _
  | cons first rest ih =>
      rw [handle_cons, List.count_cons]
      have hfirst := pending_signal_le (c := c) (v := v) first
      have hrest := ih (c := c.signal first)
      simp only [beq_iff_eq]
      omega

/-- A source that goes into service does not wait any more. -/
theorem pending_accept (hw : w ∈ c.requested) :
    (c.accept w).pending v + (if w = v then 1 else 0) = c.pending v := by
  by_cases h : w = v
  · simp [accept, pending, ← h, hw]
  · simp [accept, pending, h, Ne.symm h]

end Controller

end HailOS.Lib
