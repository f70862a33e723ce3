import Mathlib.Data.List.Basic
import Mathlib.Logic.Function.Basic

/-!
# Device registers

Registers that are reached through a select register and a data window, and the rule for a run of
register operations: if every operation either sets an observed value or leaves it alone, the run
leaves what the last operation to set it did (`foldl_lastSet`).
-/

namespace HailOS.Lib

/-! ## Registers behind a window -/

/-- A device with one register for each index. Software sees the register that the select register
names, through the window. -/
structure WindowedRegisters (ι α : Type) where
  select : ι
  registers : ι → α

namespace WindowedRegisters

variable {ι α : Type} [DecidableEq ι] (device : WindowedRegisters ι α)

/-- Write the select register. -/
def writeSelect (index : ι) : WindowedRegisters ι α := { device with select := index }

/-- Read the window. -/
def readWindow : α := device.registers device.select

/-- Write the window. -/
def writeWindow (value : α) : WindowedRegisters ι α :=
  { device with registers := Function.update device.registers device.select value }

omit [DecidableEq ι] in
@[simp] theorem registers_writeSelect (index : ι) :
    (device.writeSelect index).registers = device.registers := rfl

omit [DecidableEq ι] in
@[simp] theorem readWindow_writeSelect (index : ι) :
    (device.writeSelect index).readWindow = device.registers index := rfl

@[simp] theorem registers_writeWindow_writeSelect (index : ι) (value : α) :
    ((device.writeSelect index).writeWindow value).registers =
      Function.update device.registers index value := rfl

end WindowedRegisters

/-! ## The last operation to set a value -/

section LastSet

variable {State Op α : Type}

/-- The value that the last operation to set one sets, or the initial value. -/
def lastSet (sets : Op → Option α) (ops : List Op) (initial : α) : α :=
  (ops.filterMap sets).getLast?.getD initial

@[simp] theorem lastSet_nil (sets : Op → Option α) (initial : α) :
    lastSet sets [] initial = initial := rfl

theorem lastSet_cons (sets : Op → Option α) (op : Op) (ops : List Op) (initial : α) :
    lastSet sets (op :: ops) initial = lastSet sets ops ((sets op).getD initial) := by
  cases hop : sets op with
  | none => simp [lastSet, hop]
  | some value =>
      cases hrest : ops.filterMap sets with
      | nil => simp [lastSet, hop, hrest]
      | cons first rest =>
          have hlast := List.getLast?_eq_some_getLast (List.cons_ne_nil first rest)
          simp [lastSet, hop, hrest, hlast]

theorem lastSet_concat (sets : Op → Option α) (ops : List Op) (op : Op) (initial : α) :
    lastSet sets (ops ++ [op]) initial = (sets op).getD (lastSet sets ops initial) := by
  cases hop : sets op with
  | none => simp [lastSet, hop]
  | some value => simp [lastSet, hop]

/-- A predicate that every operation preserves holds after a run. -/
theorem foldl_invariant {step : State → Op → State} {Inv : State → Prop}
    (hinv : ∀ s op, Inv s → Inv (step s op)) (ops : List Op) {start : State}
    (hstart : Inv start) : Inv (ops.foldl step start) := by
  induction ops generalizing start with
  | nil => exact hstart
  | cons op ops ih => exact ih (hinv start op hstart)

/-- If under an invariant every operation sets the observed value as `sets` says, then a run does
as its last operation that sets it. -/
theorem foldl_lastSet {step : State → Op → State} {Inv : State → Prop} (observe : State → α)
    {sets : Op → Option α} (hinv : ∀ s op, Inv s → Inv (step s op))
    (hobserve : ∀ s op, Inv s → observe (step s op) = (sets op).getD (observe s))
    (ops : List Op) {start : State} (hstart : Inv start) :
    observe (ops.foldl step start) = lastSet sets ops (observe start) := by
  induction ops generalizing start with
  | nil => rfl
  | cons op ops ih =>
      rw [List.foldl_cons, ih (hinv start op hstart), lastSet_cons, hobserve start op hstart]

end LastSet

end HailOS.Lib
