import Mathlib.Data.List.Rotate

/-!
# Taking turns

Participants sit in a ring, given as a list, and the first one has the turn. It passes the turn on
and goes to the end, or leaves, or another participant joins at the end. `turns_getElem?` says that
a participant moves up by one place with every handover and by nothing else, so the turn comes to it
after exactly as many handovers as there are participants before it.
-/

namespace HailOS.Lib

variable {α : Type}

/-- What can happen to a ring. -/
inductive TurnOp (α : Type) where
  | pass
  | leave
  | join (x : α)
  | stay
  deriving DecidableEq, Repr

namespace TurnOp

/-- The ring afterwards. -/
def apply (ring : List α) : TurnOp α → List α
  | .pass => ring.rotate 1
  | .leave => ring.tail
  | .join x => ring ++ [x]
  | .stay => ring

/-- The turn goes to the next participant. -/
def handsOver : TurnOp α → Bool
  | .pass | .leave => true
  | .join _ | .stay => false

/-- The participant that joins. -/
def joined : TurnOp α → Option α
  | .join x => some x
  | .pass | .leave | .stay => none

end TurnOp

/-- The ring after some operations. -/
def turns (ring : List α) (ops : List (TurnOp α)) : List α := ops.foldl TurnOp.apply ring

theorem turns_cons (ring : List α) (op : TurnOp α) (ops : List (TurnOp α)) :
    turns ring (op :: ops) = turns (op.apply ring) ops := rfl

variable {ring : List α} {x : α} {k : Nat}

theorem apply_pass_cons (first : α) (rest : List α) :
    TurnOp.pass.apply (first :: rest) = rest ++ [first] := by
  rw [TurnOp.apply, List.rotate_cons_succ, List.rotate_zero]

/-- With a handover everybody but the first moves up. -/
theorem getElem?_handsOver {op : TurnOp α} (hop : op.handsOver = true)
    (hx : ring[k + 1]? = some x) : (op.apply ring)[k]? = some x := by
  cases ring with
  | nil => cases hx
  | cons first rest =>
      rw [List.getElem?_cons_succ] at hx
      cases op with
      | pass =>
          have hk : k < rest.length := (List.getElem?_eq_some_iff.mp hx).1
          rw [apply_pass_cons, List.getElem?_append_left hk, hx]
      | leave => exact hx
      | join y => cases hop
      | stay => cases hop

/-- Without one everybody stays in place. -/
theorem getElem?_keeps {op : TurnOp α} (hop : op.handsOver = false)
    (hx : ring[k]? = some x) : (op.apply ring)[k]? = some x := by
  cases op with
  | pass => cases hop
  | leave => cases hop
  | join y =>
      have hk : k < ring.length := (List.getElem?_eq_some_iff.mp hx).1
      rw [TurnOp.apply, List.getElem?_append_left hk, hx]
  | stay => exact hx

/-- A participant moves up by the number of handovers. -/
theorem turns_getElem? (ops : List (TurnOp α)) (hx : ring[k]? = some x)
    (hcount : ops.countP TurnOp.handsOver ≤ k) :
    (turns ring ops)[k - ops.countP TurnOp.handsOver]? = some x := by
  induction ops generalizing ring k with
  | nil => exact hx
  | cons op ops ih =>
      rw [turns_cons]
      cases hop : op.handsOver with
      | true =>
          rw [List.countP_cons_of_pos hop] at hcount ⊢
          obtain ⟨k, rfl⟩ := Nat.exists_eq_succ_of_ne_zero (show k ≠ 0 by omega)
          rw [Nat.succ_sub_succ]
          exact ih (getElem?_handsOver hop hx) (by omega)
      | false =>
          have hnot : ¬ op.handsOver = true := by rw [hop]; exact Bool.false_ne_true
          rw [List.countP_cons_of_neg hnot] at hcount ⊢
          exact ih (getElem?_keeps hop hx) hcount

end HailOS.Lib
