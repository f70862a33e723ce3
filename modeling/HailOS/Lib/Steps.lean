import Mathlib.Logic.Function.Basic

/-!
# Runs of a labelled transition relation

`Steps R start ops finish` says that the operations `ops` lead from `start` to `finish`, one
`R` transition each. Invariants are proved once per transition and carried to whole runs by
`Steps.invariant`. Where the transitions are executions of a function, `Steps.of_foldlM` turns a
computed run into one, and `Steps.simulated` computes a run that follows a given one.
-/

namespace HailOS.Lib

variable {State Op : Type}

/-- Finitely many transitions, labelled by the operations performed. -/
inductive Steps (R : State → Op → State → Prop) : State → List Op → State → Prop where
  | refl (state) : Steps R state [] state
  | cons {start middle finish : State} {op : Op} {ops : List Op} :
      R start op middle → Steps R middle ops finish → Steps R start (op :: ops) finish

variable {R : State → Op → State → Prop} {start middle finish : State}

/-- A predicate preserved by every transition holds at the end of a run if it holds at the
start. -/
theorem Steps.invariant {Inv : State → Prop} {ops : List Op}
    (hstep : ∀ s op t, Inv s → R s op t → Inv t)
    (hrun : Steps R start ops finish) (hstart : Inv start) : Inv finish := by
  induction hrun with
  | refl => exact hstart
  | cons h _ ih => exact ih (hstep _ _ _ hstart h)

/-- Two runs compose. -/
theorem Steps.append {first second : List Op} (hfirst : Steps R start first middle)
    (hsecond : Steps R middle second finish) : Steps R start (first ++ second) finish := by
  induction hfirst with
  | refl => exact hsecond
  | cons h _ ih => exact .cons h (ih hsecond)

/-- A run can be extended by one transition. -/
theorem Steps.snoc {ops : List Op} {op : Op} (hrun : Steps R start ops middle)
    (h : R middle op finish) : Steps R start (ops ++ [op]) finish :=
  hrun.append (.cons h (.refl _))

/-- Executing operations one after the other is a run of the executions. -/
theorem Steps.of_foldlM {exec : State → Op → Option State} {ops : List Op}
    (h : ops.foldlM exec start = some finish) :
    Steps (fun s op t => exec s op = some t) start ops finish := by
  induction ops generalizing start with
  | nil =>
      cases h
      exact .refl _
  | cons op ops ih =>
      obtain ⟨middle, hfirst, hrest⟩ := Option.bind_eq_some_iff.mp h
      exact .cons hfirst (ih hrest)

/-- If an execution can follow every transition, it can follow every run. -/
theorem Steps.simulated {Impl : Type} {exec : Impl → Op → Option Impl} {Rel : Impl → State → Prop}
    (hstep : ∀ i s op t, Rel i s → R s op t → ∃ j, exec i op = some j ∧ Rel j t) {ops : List Op}
    (hrun : Steps R start ops finish) {i : Impl} (hstart : Rel i start) :
    ∃ j, ops.foldlM exec i = some j ∧ Rel j finish := by
  induction hrun generalizing i with
  | refl => exact ⟨i, rfl, hstart⟩
  | cons h _ ih =>
      obtain ⟨k, hexec, hmiddle⟩ := hstep _ _ _ _ hstart h
      obtain ⟨j, hrest, hfinish⟩ := ih hmiddle
      exact ⟨j, by rw [List.foldlM_cons, hexec]; exact hrest, hfinish⟩

/-- A run can be cut anywhere. -/
theorem Steps.of_append {first second : List Op} (h : Steps R start (first ++ second) finish) :
    ∃ middle, Steps R start first middle ∧ Steps R middle second finish := by
  induction first generalizing start with
  | nil => exact ⟨start, .refl _, h⟩
  | cons op first ih =>
      cases h with
      | cons hfirst hrest =>
          obtain ⟨middle, hbefore, hafter⟩ := ih hrest
          exact ⟨middle, .cons hfirst hbefore, hafter⟩

/-- Runs of a deterministic relation end in the same state. -/
theorem Steps.unique {ops : List Op} {finish' : State}
    (hdet : ∀ s op t t', R s op t → R s op t' → t = t')
    (h : Steps R start ops finish) (h' : Steps R start ops finish') : finish = finish' := by
  induction h with
  | refl =>
      cases h'
      rfl
  | cons hop _ ih =>
      cases h' with
      | cons hop' hrest' =>
          cases hdet _ _ _ _ hop hop'
          exact ih hrest'

/-- The last transition of a run. -/
theorem Steps.of_snoc {ops : List Op} {op : Op} (h : Steps R start (ops ++ [op]) finish) :
    ∃ middle, Steps R start ops middle ∧ R middle op finish := by
  obtain ⟨middle, hbefore, hlast⟩ := h.of_append
  cases hlast with
  | cons hop hnil =>
      cases hnil
      exact ⟨middle, hbefore, hop⟩

/-! ## Silent operations -/

section Silent

variable {exec : State → Op → Option State} {silent : Op → Bool} {mark : State → State}

/-- A mark that no operation looks at is the same before an execution as after it. -/
theorem foldlM_mark (hsilent : ∀ s op, silent op = true → exec s op = some (mark s))
    (hother : ∀ s op, silent op = false → exec (mark s) op = (exec s op).map mark)
    (ops : List Op) (start : State) :
    ops.foldlM exec (mark start) = (ops.foldlM exec start).map mark := by
  induction ops generalizing start with
  | nil => rfl
  | cons op ops ih =>
      rw [List.foldlM_cons, List.foldlM_cons]
      cases hop : silent op with
      | true =>
          rw [hsilent _ _ hop, hsilent _ _ hop]
          exact ih (mark start)
      | false =>
          rw [hother _ _ hop]
          cases exec start op with
          | none => rfl
          | some middle => exact ih middle

/-- If some operations only leave a mark, then an execution is the one without them, with the mark
at the end. -/
theorem foldlM_silent (hidem : ∀ s, mark (mark s) = mark s)
    (hsilent : ∀ s op, silent op = true → exec s op = some (mark s))
    (hother : ∀ s op, silent op = false → exec (mark s) op = (exec s op).map mark)
    (ops : List Op) (start : State) :
    ops.foldlM exec start = ((ops.filter fun op => !silent op).foldlM exec start).map
      (if ops.any silent then mark else id) := by
  induction ops generalizing start with
  | nil => rfl
  | cons op ops ih =>
      cases hop : silent op with
      | true =>
          rw [List.filter_cons_of_neg (by simp [hop]), List.any_cons, hop, Bool.true_or, if_pos rfl,
            List.foldlM_cons, hsilent _ _ hop]
          show ops.foldlM exec (mark start) = _
          rw [ih, foldlM_mark hsilent hother, Option.map_map]
          congr 1
          funext s
          cases ops.any silent with
          | true => exact hidem s
          | false => rfl
      | false =>
          rw [List.filter_cons_of_pos (by simp [hop]), List.any_cons, hop, Bool.false_or,
            List.foldlM_cons, List.foldlM_cons]
          cases exec start op with
          | none => rfl
          | some middle => exact ih middle

end Silent

end HailOS.Lib
