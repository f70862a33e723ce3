import HailOS.Lib.ByteMemory

/-!
# Access logs

A computation over memory can be run together with a log of the places it accesses. `Logged` is
such a computation: it has a value, and the accessed places in order. `Within` says that every
access satisfies a condition, such as a bound, and the rules `within_pure`, `within_access` and
`within_bind` follow the code. The accesses of a byte memory are spans of bytes.
-/

namespace HailOS.Lib

/-- A value and the places that were accessed to compute it. -/
structure Logged (ι α : Type) where
  value : α
  log : List ι

namespace Logged

variable {ι α β : Type}

instance : Monad (Logged ι) where
  pure a := ⟨a, []⟩
  bind m f := ⟨(f m.value).value, m.log ++ (f m.value).log⟩

/-- Access one place, with the value that results. -/
def access (place : ι) (a : α) : Logged ι α := ⟨a, [place]⟩

@[simp] theorem value_pure (a : α) : (pure a : Logged ι α).value = a := rfl

@[simp] theorem log_pure (a : α) : (pure a : Logged ι α).log = [] := rfl

@[simp] theorem value_access (place : ι) (a : α) : (access place a).value = a := rfl

@[simp] theorem log_access (place : ι) (a : α) : (access place a).log = [place] := rfl

@[simp] theorem value_bind (m : Logged ι α) (f : α → Logged ι β) :
    (m >>= f).value = (f m.value).value := rfl

@[simp] theorem log_bind (m : Logged ι α) (f : α → Logged ι β) :
    (m >>= f).log = m.log ++ (f m.value).log := rfl

/-- Every accessed place satisfies the condition. -/
def Within (P : ι → Prop) (m : Logged ι α) : Prop := ∀ place ∈ m.log, P place

variable {P : ι → Prop}

theorem within_pure (a : α) : Within P (pure a) := by
  intro place hplace
  cases hplace

theorem within_access {place : ι} {a : α} : Within P (access place a) ↔ P place := by
  simp [Within]

theorem within_bind {m : Logged ι α} {f : α → Logged ι β} :
    Within P (m >>= f) ↔ Within P m ∧ Within P (f m.value) := by
  simp only [Within, log_bind, List.mem_append, or_imp, forall_and]

/-- A guarded computation has the value of the guarded function. -/
theorem value_dite {c : Prop} [Decidable c] (m : c → Logged ι α) (a : α) :
    (if h : c then m h else pure a).value = if h : c then (m h).value else a := by
  by_cases h : c
  · rw [dif_pos h, dif_pos h]
  · rw [dif_neg h, dif_neg h, value_pure]

/-- A guarded computation accesses nothing if the guard fails. -/
theorem within_dite {c : Prop} [Decidable c] {m : c → Logged ι α} {a : α} :
    Within P (if h : c then m h else pure a) ↔ ∀ h : c, Within P (m h) := by
  by_cases h : c
  · rw [dif_pos h]
    exact ⟨fun hwithin _ => hwithin, fun hwithin => hwithin h⟩
  · rw [dif_neg h]
    exact iff_of_true (within_pure a) fun hc => absurd hc h

end Logged

/-! ## Reading a byte memory -/

/-- The `width` bytes from `start` on. -/
structure Span where
  start : Nat
  width : Nat
  deriving DecidableEq, Repr

/-- Every byte of the span lies between `low` and `high`. -/
def Span.Inside (low high : Nat) (span : Span) : Prop :=
  low ≤ span.start ∧ span.start + span.width ≤ high

theorem Span.inside_iff {low high start width : Nat} :
    Span.Inside low high ⟨start, width⟩ ↔ low ≤ start ∧ start + width ≤ high := Iff.rfl

/-- Read one byte. -/
def Memory.readByte (memory : Memory) (address : Nat) : Logged Span (BitVec 8) :=
  Logged.access ⟨address, 1⟩ (memory address)

/-- Read the little-endian value of `width` bytes. -/
def Memory.read (memory : Memory) (width address : Nat) : Logged Span Nat :=
  Logged.access ⟨address, width⟩ (memory.load width address)

end HailOS.Lib
