import Mathlib.Data.Finset.Card
import Mathlib.Logic.Function.Basic

/-!
# Counting the pointers to an object

A finite set of variables points to objects, or to nothing. `pointing` counts the variables that
point to one object, and the lemmas say how the count changes when a variable is added, removed
or set.
-/

namespace HailOS.Lib

variable {Var Obj : Type} [DecidableEq Obj]

/-- How much one pointer adds to the count of `o`. -/
def weight (p : Option Obj) (o : Obj) : Nat := if p = some o then 1 else 0

@[simp] theorem weight_none (o : Obj) : weight none o = 0 := rfl

theorem weight_le_one (p : Option Obj) (o : Obj) : weight p o ≤ 1 := by
  rw [weight]
  split <;> decide

theorem weight_eq_one {p : Option Obj} {o : Obj} : weight p o = 1 ↔ p = some o := by
  simp [weight]

/-- The number of variables that point to `o`. -/
def pointing (live : Finset Var) (ptr : Var → Option Obj) (o : Obj) : Nat :=
  (live.filter fun v => ptr v = some o).card

variable (live : Finset Var) (ptr : Var → Option Obj) (o : Obj) {v : Var}

/-- Only the variables of the set matter. -/
theorem pointing_congr {ptr' : Var → Option Obj} (h : ∀ w ∈ live, ptr' w = ptr w) :
    pointing live ptr' o = pointing live ptr o := by
  refine congrArg Finset.card (Finset.filter_congr ?_)
  intro w hw
  rw [h w hw]

/-- At most all variables point to an object. -/
theorem pointing_le : pointing live ptr o ≤ live.card := Finset.card_filter_le _ _

/-- A variable that points to an object counts. -/
theorem pointing_pos (hv : v ∈ live) (h : ptr v = some o) : 0 < pointing live ptr o :=
  Finset.card_pos.2 ⟨v, Finset.mem_filter.2 ⟨hv, h⟩⟩

/-- Two variables that point to an object count twice. -/
theorem one_lt_pointing {w : Var} (hv : v ∈ live) (hw : w ∈ live) (hne : v ≠ w)
    (h : ptr v = some o) (h' : ptr w = some o) : 1 < pointing live ptr o :=
  Finset.one_lt_card.2
    ⟨v, Finset.mem_filter.2 ⟨hv, h⟩, w, Finset.mem_filter.2 ⟨hw, h'⟩, hne⟩

variable [DecidableEq Var]

/-- A variable is removed. -/
theorem pointing_erase (hv : v ∈ live) :
    pointing (live.erase v) ptr o + weight (ptr v) o = pointing live ptr o := by
  rw [pointing, pointing, Finset.filter_erase, weight]
  by_cases hpoints : ptr v = some o
  · rw [if_pos hpoints, Finset.card_erase_add_one (Finset.mem_filter.2 ⟨hv, hpoints⟩)]
  · have hout : v ∉ live.filter fun v => ptr v = some o := by
      intro hmem
      exact hpoints (Finset.mem_filter.1 hmem).2
    rw [if_neg hpoints, Finset.erase_eq_of_notMem hout, Nat.add_zero]

/-- A variable counts at most as much as all variables. -/
theorem weight_le_pointing (hv : v ∈ live) : weight (ptr v) o ≤ pointing live ptr o :=
  Nat.le_of_add_left_le (Nat.le_of_eq (pointing_erase live ptr o hv))

/-- A variable is added. -/
theorem pointing_insert (hv : v ∉ live) (p : Option Obj) :
    pointing (insert v live) (Function.update ptr v p) o =
      pointing live ptr o + weight p o := by
  have hadded := pointing_erase (insert v live) (Function.update ptr v p) o
    (Finset.mem_insert_self v live)
  rw [Finset.erase_insert hv, Function.update_self] at hadded
  rw [← hadded, pointing_congr live ptr]
  intro w hw
  have hne : w ≠ v := fun hsame => hv (hsame ▸ hw)
  exact Function.update_of_ne hne p ptr

/-- A variable is set. -/
theorem pointing_update (hv : v ∈ live) (p : Option Obj) :
    pointing live (Function.update ptr v p) o + weight (ptr v) o =
      pointing live ptr o + weight p o := by
  have hbefore := pointing_erase live ptr o hv
  have hafter := pointing_erase live (Function.update ptr v p) o hv
  rw [Function.update_self, pointing_congr _ ptr] at hafter
  · omega
  · intro w hw
    exact Function.update_of_ne (Finset.ne_of_mem_erase hw) p ptr

/-- The pointer of a variable is moved to a new one. -/
theorem pointing_move_insert {w : Var} (hv : v ∉ live) (hw : w ∈ live) :
    pointing (insert v live) (Function.update (Function.update ptr v (ptr w)) w none) o =
      pointing live ptr o := by
  have hne : w ≠ v := fun hsame => hv (hsame ▸ hw)
  have hadded := pointing_insert live ptr o hv (ptr w)
  have hcleared := pointing_update (insert v live) (Function.update ptr v (ptr w)) o
    (Finset.mem_insert_of_mem hw) none
  rw [Function.update_of_ne hne, weight_none] at hcleared
  omega

/-- The pointer of a variable is moved to another one. -/
theorem pointing_move {w : Var} (hv : v ∈ live) (hw : w ∈ live) (hne : v ≠ w) :
    pointing live (Function.update (Function.update ptr v (ptr w)) w none) o +
      weight (ptr v) o = pointing live ptr o := by
  have hset := pointing_update live ptr o hv (ptr w)
  have hcleared := pointing_update live (Function.update ptr v (ptr w)) o hw none
  rw [Function.update_of_ne hne.symm, weight_none] at hcleared
  omega

end HailOS.Lib
