import HailOS.Lib.Owners
import HailOS.Lib.Steps
import Mathlib.Data.BitVec
import Mathlib.Data.List.Count

/-!
# Reference counts

`RefCountedBase` counts the references to an object, starting with the one of its creator, and
deletes the object with the last one. `RefPtr` takes and drops references as it is constructed,
copied, moved, assigned and destroyed.

`Ownership` says what the operations mean: which variables are alive, and what they point to. There
are no counts in it. `refcount_exact` says that the code follows it in every program over any
variables: the count of an object is the number of `RefPtr`s that point to it, plus one for its
creator, the object is destroyed once, by the operation that makes this sum zero, and no dead object
is touched.
-/

namespace HailOS.Object

open Lib

/-- The ref-counted objects: the `m_RefCount` of every living one, and which were created and
destroyed so far. -/
structure Objects (Obj : Type) where
  count : Obj → Option (BitVec 64)
  created : List Obj
  destroyed : List Obj

section Model

variable {Obj : Type} [DecidableEq Obj]

namespace Objects

/-- An object is created, with one reference. -/
def create (s : Objects Obj) (o : Obj) : Objects Obj :=
  { s with
    count := Function.update s.count o (some 1)
    created := s.created ++ [o] }

/-- `AddRef`. A dead object cannot be accessed. -/
def addRef (s : Objects Obj) (o : Obj) : Option (Objects Obj) :=
  match s.count o with
  | some n => some { s with count := Function.update s.count o (some (n + 1)) }
  | none => none

/-- `Release`, which deletes the object if the count was 1. -/
def release (s : Objects Obj) (o : Obj) : Option (Objects Obj) :=
  match s.count o with
  | some n =>
      if n = 1 then
        some { s with
          count := Function.update s.count o none
          destroyed := s.destroyed ++ [o] }
      else some { s with count := Function.update s.count o (some (n - 1)) }
  | none => none

/-- `if (m_Ptr) m_Ptr->AddRef()`. -/
def addRefPtr (s : Objects Obj) : Option Obj → Option (Objects Obj)
  | some o => s.addRef o
  | none => some s

/-- `if (m_Ptr) m_Ptr->Release()`. -/
def releasePtr (s : Objects Obj) : Option Obj → Option (Objects Obj)
  | some o => s.release o
  | none => some s

variable {s t : Objects Obj} {p : Option Obj}

/-- Taking a reference neither creates nor destroys an object. -/
theorem addRefPtr_frame (h : s.addRefPtr p = some t) :
    t.created = s.created ∧ t.destroyed = s.destroyed := by
  cases p with
  | none =>
      cases h
      exact ⟨rfl, rfl⟩
  | some o =>
      simp only [addRefPtr, addRef] at h
      split at h <;> cases h
      exact ⟨rfl, rfl⟩

/-- Dropping a reference creates no object, and what was destroyed stays destroyed. -/
theorem releasePtr_frame (h : s.releasePtr p = some t) :
    t.created = s.created ∧ List.Sublist s.destroyed t.destroyed := by
  cases p with
  | none =>
      cases h
      exact ⟨rfl, .refl _⟩
  | some o =>
      simp only [releasePtr, release] at h
      split at h
      · split at h <;> cases h
        · exact ⟨rfl, List.sublist_append_left _ _⟩
        · exact ⟨rfl, .refl _⟩
      · cases h

end Objects

/-- The objects, the `RefPtr` variables that are alive with their `m_Ptr`, and the objects whose
creator has not released them. -/
structure RefState (Var Obj : Type) where
  objects : Objects Obj
  live : Finset Var
  ptr : Var → Option Obj
  creator : Obj → Bool

/-- The operations of a program. -/
inductive RefOp (Var Obj : Type) where
  /-- An object is created. -/
  | create (o : Obj)
  /-- The creator calls `Release`. -/
  | creatorRelease (o : Obj)
  /-- `RefPtr()`, `RefPtr(nullptr)` or `RefPtr(T*)`. -/
  | construct (v : Var) (p : Option Obj)
  /-- `RefPtr(const RefPtr&)`. -/
  | copyConstruct (v w : Var)
  /-- `RefPtr(RefPtr&&)`. -/
  | moveConstruct (v w : Var)
  /-- `~RefPtr()`. -/
  | destruct (v : Var)
  /-- `operator=(const RefPtr&)`. -/
  | copyAssign (v w : Var)
  /-- `operator=(RefPtr&&)`. -/
  | moveAssign (v w : Var)
deriving DecidableEq, Repr

variable {Var : Type} [DecidableEq Var]

namespace RefState

/-- Nothing is created yet. -/
def initial : RefState Var Obj where
  objects := ⟨fun _ => none, [], []⟩
  live := ∅
  ptr := fun _ => none
  creator := fun _ => false

/-- The effect of an operation, or none if it accesses a dead object. -/
def exec (s : RefState Var Obj) : RefOp Var Obj → Option (RefState Var Obj)
  | .create o =>
      some { s with
        objects := s.objects.create o
        creator := Function.update s.creator o true }
  | .creatorRelease o => do
      let objects ← s.objects.release o
      return { s with objects := objects, creator := Function.update s.creator o false }
  | .construct v p => do
      let objects ← s.objects.addRefPtr p
      return { s with
        objects := objects, live := insert v s.live, ptr := Function.update s.ptr v p }
  | .copyConstruct v w => do
      let objects ← s.objects.addRefPtr (s.ptr w)
      return { s with
        objects := objects, live := insert v s.live, ptr := Function.update s.ptr v (s.ptr w) }
  | .moveConstruct v w =>
      some { s with
        live := insert v s.live
        ptr := Function.update (Function.update s.ptr v (s.ptr w)) w none }
  | .destruct v => do
      let objects ← s.objects.releasePtr (s.ptr v)
      return { s with objects := objects, live := s.live.erase v }
  | .copyAssign v w =>
      if v ≠ w then do
        let objects ← s.objects.releasePtr (s.ptr v)
        let objects ← objects.addRefPtr (s.ptr w)
        return { s with objects := objects, ptr := Function.update s.ptr v (s.ptr w) }
      else some s
  | .moveAssign v w =>
      if v ≠ w then do
        let objects ← s.objects.releasePtr (s.ptr v)
        return { s with
          objects := objects
          ptr := Function.update (Function.update s.ptr v (s.ptr w)) w none }
      else some s

/-- How many variables fit in memory: a `RefPtr` takes 8 bytes of a 64-bit address space. -/
def slotTotal : Nat := 2 ^ 61

/-- What a program may do: create an object once, release it once as its creator, construct a
variable that is not alive and for which there is memory, from a pointer to a living object, and
use variables that are alive. -/
def Allowed (s : RefState Var Obj) : RefOp Var Obj → Prop
  | .create o => o ∉ s.objects.created
  | .creatorRelease o => s.creator o = true
  | .construct v p =>
      v ∉ s.live ∧ s.live.card < slotTotal ∧ ∀ o, p = some o → s.objects.count o ≠ none
  | .copyConstruct v w | .moveConstruct v w =>
      v ∉ s.live ∧ s.live.card < slotTotal ∧ w ∈ s.live
  | .destruct v => v ∈ s.live
  | .copyAssign v w | .moveAssign v w => v ∈ s.live ∧ w ∈ s.live

/-- The number of references to an object: the variables that point to it, and its creator. -/
def owners (s : RefState Var Obj) (o : Obj) : Nat :=
  pointing s.live s.ptr o + (s.creator o).toNat

end RefState

/-! ## Ownership -/

/-- What the operations of a program mean, without any counts: the objects created so far, the
variables that are alive, what they point to, and the objects whose creator has not released
them. -/
structure Ownership (Var Obj : Type) where
  created : List Obj
  live : Finset Var
  ptr : Var → Option Obj
  creator : Obj → Bool

namespace Ownership

/-- Nothing is created yet. -/
def initial : Ownership Var Obj where
  created := []
  live := ∅
  ptr := fun _ => none
  creator := fun _ => false

/-- A copy makes two variables point to one object, and a move takes the object from the other
variable, unless that is the same one. -/
def after (a : Ownership Var Obj) : RefOp Var Obj → Ownership Var Obj
  | .create o =>
      { a with created := a.created ++ [o], creator := Function.update a.creator o true }
  | .creatorRelease o => { a with creator := Function.update a.creator o false }
  | .construct v p => { a with live := insert v a.live, ptr := Function.update a.ptr v p }
  | .copyConstruct v w =>
      { a with live := insert v a.live, ptr := Function.update a.ptr v (a.ptr w) }
  | .moveConstruct v w =>
      { a with
        live := insert v a.live
        ptr := Function.update (Function.update a.ptr v (a.ptr w)) w none }
  | .destruct v => { a with live := a.live.erase v }
  | .copyAssign v w => { a with ptr := Function.update a.ptr v (a.ptr w) }
  | .moveAssign v w =>
      if v = w then a
      else { a with ptr := Function.update (Function.update a.ptr v (a.ptr w)) w none }

/-- The number of owners of an object: the variables that are alive and point to it, and its
creator until it has released it. -/
def owners (a : Ownership Var Obj) (o : Obj) : Nat :=
  pointing a.live a.ptr o + (a.creator o).toNat

/-- What a program may do: create an object once, release it once as its creator, construct a
variable that is not alive and for which there is memory, from null or a pointer to an object with
an owner, and use variables that are alive. -/
def Allowed (a : Ownership Var Obj) : RefOp Var Obj → Prop
  | .create o => o ∉ a.created
  | .creatorRelease o => a.creator o = true
  | .construct v p =>
      v ∉ a.live ∧ a.live.card < RefState.slotTotal ∧ ∀ o, p = some o → 0 < a.owners o
  | .copyConstruct v w | .moveConstruct v w =>
      v ∉ a.live ∧ a.live.card < RefState.slotTotal ∧ w ∈ a.live
  | .destruct v => v ∈ a.live
  | .copyAssign v w | .moveAssign v w => v ∈ a.live ∧ w ∈ a.live

/-- An operation of a program. -/
def Step (a : Ownership Var Obj) (op : RefOp Var Obj) (b : Ownership Var Obj) : Prop :=
  a.Allowed op ∧ b = a.after op

/-- An operation creates at most the object it names, which then has an owner. -/
theorem created_after (a : Ownership Var Obj) (op : RefOp Var Obj) (o : Obj) :
    (o ∈ a.created → o ∈ (a.after op).created) ∧
      (o ∈ (a.after op).created → o ∈ a.created ∨ 0 < (a.after op).owners o) := by
  cases op with
  | create x =>
      refine ⟨fun ho => List.mem_append_left _ ho, fun ho => ?_⟩
      rcases List.mem_append.mp ho with ho | ho
      · exact .inl ho
      · obtain rfl := List.mem_singleton.mp ho
        simp [after, owners]
  | moveAssign v w =>
      by_cases hsame : v = w
      · rw [after, if_pos hsame]
        exact ⟨id, .inl⟩
      · rw [after, if_neg hsame]
        exact ⟨id, .inl⟩
  | _ => exact ⟨id, .inl⟩

end Ownership

namespace RefState

/-- The variables and the creators, without the counts. -/
def ownership (s : RefState Var Obj) : Ownership Var Obj :=
  ⟨s.objects.created, s.live, s.ptr, s.creator⟩

variable {s t : RefState Var Obj} {op : RefOp Var Obj}

/-- The code does to the variables what the operation means, and an object that was destroyed stays
destroyed. -/
theorem exec_ownership (h : s.exec op = some t) :
    t.ownership = s.ownership.after op ∧
      List.Sublist s.objects.destroyed t.objects.destroyed := by
  cases op with
  | create o =>
      cases h
      exact ⟨rfl, .refl _⟩
  | creatorRelease o =>
      obtain ⟨objects, hrelease, hresult⟩ := Option.bind_eq_some_iff.mp h
      cases hresult
      obtain ⟨hcreated, hkept⟩ := Objects.releasePtr_frame (p := some o) hrelease
      exact ⟨by simp only [ownership, Ownership.after, hcreated], hkept⟩
  | construct v p =>
      obtain ⟨objects, hadd, hresult⟩ := Option.bind_eq_some_iff.mp h
      cases hresult
      obtain ⟨hcreated, hkept⟩ := Objects.addRefPtr_frame hadd
      exact ⟨by simp only [ownership, Ownership.after, hcreated], by rw [hkept]⟩
  | copyConstruct v w =>
      obtain ⟨objects, hadd, hresult⟩ := Option.bind_eq_some_iff.mp h
      cases hresult
      obtain ⟨hcreated, hkept⟩ := Objects.addRefPtr_frame hadd
      exact ⟨by simp only [ownership, Ownership.after, hcreated], by rw [hkept]⟩
  | moveConstruct v w =>
      cases h
      exact ⟨rfl, .refl _⟩
  | destruct v =>
      obtain ⟨objects, hrelease, hresult⟩ := Option.bind_eq_some_iff.mp h
      cases hresult
      obtain ⟨hcreated, hkept⟩ := Objects.releasePtr_frame hrelease
      exact ⟨by simp only [ownership, Ownership.after, hcreated], hkept⟩
  | copyAssign v w =>
      by_cases hsame : v = w
      · rw [exec, if_neg (not_not.2 hsame)] at h
        cases h
        refine ⟨?_, .refl _⟩
        -- a variable assigned to itself keeps its pointer
        simp only [ownership, Ownership.after, ← hsame, Function.update_eq_self]
      · rw [exec, if_pos hsame] at h
        obtain ⟨released, hrelease, h⟩ := Option.bind_eq_some_iff.mp h
        obtain ⟨objects, hadd, hresult⟩ := Option.bind_eq_some_iff.mp h
        cases hresult
        obtain ⟨hcreated, hkept⟩ := Objects.releasePtr_frame hrelease
        obtain ⟨hcreated', hkept'⟩ := Objects.addRefPtr_frame hadd
        exact ⟨by simp only [ownership, Ownership.after, hcreated', hcreated], hkept' ▸ hkept⟩
  | moveAssign v w =>
      by_cases hsame : v = w
      · rw [exec, if_neg (not_not.2 hsame)] at h
        cases h
        exact ⟨(if_pos hsame).symm, .refl _⟩
      · rw [exec, if_pos hsame] at h
        obtain ⟨objects, hrelease, hresult⟩ := Option.bind_eq_some_iff.mp h
        cases hresult
        obtain ⟨hcreated, hkept⟩ := Objects.releasePtr_frame hrelease
        exact ⟨by simp only [ownership, Ownership.after, if_neg hsame, hcreated], hkept⟩

end RefState

/-! ## Counts -/

/-- The counts are the numbers `owners`: every living object has a reference, every dead one has
none, and the created objects without one were destroyed once. -/
structure Counted (s : Objects Obj) (owners : Obj → Nat) : Prop where
  alive : ∀ o n, s.count o = some n →
    n = BitVec.ofNat 64 (owners o) ∧ 0 < owners o ∧ o ∈ s.created
  dead : ∀ o, s.count o = none → owners o = 0
  destroyed : ∀ o, s.destroyed.count o = if o ∈ s.created ∧ owners o = 0 then 1 else 0

namespace Counted

variable {s : Objects Obj} {owners : Obj → Nat}

theorem congr {owners' : Obj → Nat} (h : Counted s owners) (hsame : ∀ o, owners' o = owners o) :
    Counted s owners' := by
  have heq : owners' = owners := funext hsame
  rw [heq]
  exact h

/-- An object with a reference is alive. -/
theorem exists_count (h : Counted s owners) {o : Obj} (ho : 0 < owners o) :
    s.count o = some (BitVec.ofNat 64 (owners o)) := by
  cases hcount : s.count o with
  | none =>
      rw [h.dead o hcount] at ho
      cases ho
  | some n => rw [(h.alive o n hcount).1]

/-- A new object has one reference. -/
theorem create (h : Counted s owners) {o : Obj} (ho : o ∉ s.created) :
    Counted (s.create o) (fun x => owners x + weight (some o) x) := by
  have hdead : owners o = 0 := by
    apply h.dead
    cases hcount : s.count o with
    | none => rfl
    | some n => exact absurd (h.alive o n hcount).2.2 ho
  refine { alive := ?_, dead := ?_, destroyed := ?_ }
  · intro x n hcount
    by_cases hx : x = o
    · subst hx
      simp only [Objects.create, Function.update_self, Option.some.injEq] at hcount
      simp [weight, hdead, ← hcount, Objects.create]
    · simp only [Objects.create, Function.update_of_ne hx] at hcount
      simpa [weight, Ne.symm hx, Objects.create, hx] using h.alive x n hcount
  · intro x hcount
    have hx : x ≠ o := by
      intro hsame
      simp [Objects.create, hsame] at hcount
    simp only [Objects.create, Function.update_of_ne hx] at hcount
    simp [weight, Ne.symm hx, h.dead x hcount]
  · intro x
    show s.destroyed.count x = _
    rw [h.destroyed x]
    by_cases hx : x = o
    · subst hx
      simp [weight, ho]
    · simp [weight, Ne.symm hx, Objects.create, hx]

/-- The count of an object that still has a reference is set to another one. -/
theorem set_pos (h : Counted s owners) {o : Obj} (ho : 0 < owners o) {k : Nat} (hk : 0 < k) :
    Counted { s with count := Function.update s.count o (some (BitVec.ofNat 64 k)) }
      (Function.update owners o k) := by
  have hcreated := (h.alive o _ (h.exists_count ho)).2.2
  refine { alive := ?_, dead := ?_, destroyed := ?_ }
  · intro x n hx
    by_cases hsame : x = o
    · subst hsame
      simp only [Function.update_self, Option.some.injEq] at hx ⊢
      exact ⟨hx.symm, hk, hcreated⟩
    · simp only [Function.update_of_ne hsame] at hx ⊢
      exact h.alive x n hx
  · intro x hx
    by_cases hsame : x = o
    · subst hsame
      simp at hx
    · simp only [Function.update_of_ne hsame] at hx ⊢
      exact h.dead x hx
  · intro x
    rw [h.destroyed x]
    by_cases hsame : x = o
    · subst hsame
      simp [Nat.ne_of_gt ho, Nat.ne_of_gt hk]
    · simp only [Function.update_of_ne hsame]

/-- An object loses its last reference and is destroyed. -/
theorem set_zero (h : Counted s owners) {o : Obj} (ho : 0 < owners o) :
    Counted ⟨Function.update s.count o none, s.created, s.destroyed ++ [o]⟩
      (Function.update owners o 0) := by
  have hcreated := (h.alive o _ (h.exists_count ho)).2.2
  refine { alive := ?_, dead := ?_, destroyed := ?_ }
  · intro x n hx
    by_cases hsame : x = o
    · subst hsame
      simp at hx
    · simp only [Function.update_of_ne hsame] at hx ⊢
      exact h.alive x n hx
  · intro x hx
    by_cases hsame : x = o
    · rw [hsame, Function.update_self]
    · simp only [Function.update_of_ne hsame] at hx ⊢
      exact h.dead x hx
  · intro x
    rw [List.count_append, h.destroyed x]
    by_cases hsame : x = o
    · subst hsame
      simp [Nat.ne_of_gt ho, hcreated]
    · simp [Function.update_of_ne hsame, Ne.symm hsame]

/-- `if (m_Ptr) m_Ptr->AddRef()` on a pointer to an object with a reference adds one. -/
theorem addRefPtr (h : Counted s owners) {p : Option Obj} (hp : ∀ o, p = some o → 0 < owners o) :
    ∃ t, s.addRefPtr p = some t ∧ Counted t (fun o => owners o + weight p o) := by
  cases p with
  | none => exact ⟨s, rfl, h⟩
  | some o =>
      have ho := hp o rfl
      have hadd : s.addRefPtr (some o) = some { s with
          count := Function.update s.count o (some (BitVec.ofNat 64 (owners o + 1))) } := by
        simp only [Objects.addRefPtr, Objects.addRef, h.exists_count ho, BitVec.ofNat_add]
        rfl
      refine ⟨_, hadd, (h.set_pos ho (Nat.succ_pos (owners o))).congr ?_⟩
      intro x
      by_cases hsame : x = o
      · subst hsame
        simp [weight]
      · simp [weight, Function.update_of_ne hsame, Ne.symm hsame]

/-- `if (m_Ptr) m_Ptr->Release()` on a pointer to an object with a reference drops one. -/
theorem releasePtr (h : Counted s owners) {p : Option Obj}
    (hp : ∀ o, p = some o → 0 < owners o ∧ owners o < 2 ^ 64) :
    ∃ t, s.releasePtr p = some t ∧ Counted t (fun o => owners o - weight p o) := by
  cases p with
  | none => exact ⟨s, rfl, h⟩
  | some o =>
      obtain ⟨ho, hfits⟩ := hp o rfl
      have howners : ∀ x, owners x - weight (some o) x =
          Function.update owners o (owners o - 1) x := by
        intro x
        by_cases hsame : x = o
        · subst hsame
          simp [weight]
        · simp [weight, Function.update_of_ne hsame, Ne.symm hsame]
      by_cases hlast : owners o = 1
      · have hrelease : s.releasePtr (some o) =
            some ⟨Function.update s.count o none, s.created, s.destroyed ++ [o]⟩ := by
          simp [Objects.releasePtr, Objects.release, h.exists_count ho, hlast]
        refine ⟨_, hrelease, (h.set_zero ho).congr ?_⟩
        intro x
        rw [howners, hlast]
      · have hmany : BitVec.ofNat 64 (owners o) ≠ 1 := by
          intro hone
          have hvalue := congrArg BitVec.toNat hone
          rw [BitVec.toNat_ofNat, Nat.mod_eq_of_lt hfits] at hvalue
          exact hlast hvalue
        have hless : BitVec.ofNat 64 (owners o) - 1 = BitVec.ofNat 64 (owners o - 1) := by
          apply BitVec.eq_of_toNat_eq
          rw [BitVec.toNat_sub, BitVec.toNat_ofNat, BitVec.toNat_ofNat,
            show (1 : BitVec 64).toNat = 1 from rfl]
          omega
        have hrelease : s.releasePtr (some o) = some { s with
            count := Function.update s.count o (some (BitVec.ofNat 64 (owners o - 1))) } := by
          simp only [Objects.releasePtr, Objects.release, h.exists_count ho, if_neg hmany, hless]
        exact ⟨_, hrelease, (h.set_pos ho (by omega)).congr howners⟩

end Counted

end Model

/-! ## Programs -/

section Programs

variable {Var Obj : Type} [DecidableEq Obj]

/-- The counts are exact, and the variables fit in memory. -/
structure RefInv (s : RefState Var Obj) : Prop where
  counted : Counted s.objects s.owners
  fits : s.live.card ≤ RefState.slotTotal

namespace RefInv

variable {s : RefState Var Obj}

theorem initial : RefInv (RefState.initial : RefState Var Obj) where
  counted :=
    { alive := fun _ _ h => by cases h
      dead := fun _ _ => rfl
      destroyed := fun _ => (if_neg fun h => absurd h.1 List.not_mem_nil).symm }
  fits := Nat.zero_le _

/-- The references to an object do not overflow its count. -/
theorem owners_lt (h : RefInv s) (o : Obj) : s.owners o < 2 ^ 64 := by
  have hpointing := pointing_le s.live s.ptr o
  have hfits := h.fits
  have hcreator := Bool.toNat_le (s.creator o)
  rw [RefState.slotTotal] at hfits
  rw [RefState.owners]
  omega

/-- An object that a variable points to has a reference. -/
theorem owners_pos {v : Var} (hv : v ∈ s.live) (o : Obj) (ho : s.ptr v = some o) :
    0 < s.owners o := by
  have hpointing := pointing_pos s.live s.ptr o hv ho
  rw [RefState.owners]
  omega

/-- The reference of a variable can be dropped. -/
theorem releasable (h : RefInv s) {v : Var} (hv : v ∈ s.live) (o : Obj) (ho : s.ptr v = some o) :
    0 < s.owners o ∧ s.owners o < 2 ^ 64 :=
  ⟨owners_pos hv o ho, h.owners_lt o⟩

/-- The count of an object, if it is alive. -/
theorem count_eq (h : RefInv s) (o : Obj) :
    (s.objects.count o).map BitVec.toNat =
      if s.owners o = 0 then none else some (s.owners o) := by
  split
  · next hzero =>
      cases hcount : s.objects.count o with
      | none => rfl
      | some n => exact absurd hzero (Nat.ne_of_gt (h.counted.alive o n hcount).2.1)
  · next hpos =>
      rw [h.counted.exists_count (Nat.pos_of_ne_zero hpos), Option.map_some, BitVec.toNat_ofNat,
        Nat.mod_eq_of_lt (h.owners_lt o)]

/-- An object with a reference was created. -/
theorem mem_created (h : RefInv s) {o : Obj} (ho : 0 < s.owners o) : o ∈ s.objects.created :=
  (h.counted.alive o _ (h.counted.exists_count ho)).2.2

/-- What a program may do is what the code can do. -/
theorem allowed (h : RefInv s) {op : RefOp Var Obj} (hop : s.ownership.Allowed op) :
    s.Allowed op := by
  cases op with
  | construct v p =>
      obtain ⟨hv, hroom, hp⟩ := hop
      refine ⟨hv, hroom, fun o ho => ?_⟩
      rw [h.counted.exists_count (hp o ho)]
      exact Option.some_ne_none _
  | _ => exact hop

variable [DecidableEq Var]

theorem create (h : RefInv s) {o : Obj} (ho : o ∉ s.objects.created) :
    ∃ t, s.exec (.create o) = some t ∧ RefInv t := by
  have hnone : s.objects.count o = none := by
    cases hcount : s.objects.count o with
    | none => rfl
    | some n => exact absurd (h.counted.alive o n hcount).2.2 ho
  have hzero := h.counted.dead o hnone
  rw [RefState.owners, Nat.add_eq_zero_iff] at hzero
  refine ⟨_, rfl, { counted := (h.counted.create ho).congr ?_, fits := h.fits }⟩
  intro x
  simp only [RefState.owners]
  by_cases hsame : x = o
  · subst hsame
    rw [Function.update_self, hzero.1, hzero.2, weight, if_pos rfl]
    rfl
  · rw [Function.update_of_ne hsame, weight, if_neg fun hx => hsame (Option.some.inj hx).symm,
      Nat.add_zero]

theorem creatorRelease (h : RefInv s) {o : Obj} (ho : s.creator o = true) :
    ∃ t, s.exec (.creatorRelease o) = some t ∧ RefInv t := by
  have hpos : 0 < s.owners o := by
    rw [RefState.owners, ho, Bool.toNat_true]
    omega
  obtain ⟨objects, hrelease, hcounted⟩ := h.counted.releasePtr (p := some o) (by
    intro x hx
    cases hx
    exact ⟨hpos, h.owners_lt o⟩)
  have hexec : s.exec (.creatorRelease o) = some
      { s with objects := objects, creator := Function.update s.creator o false } := by
    simp only [RefState.exec, show s.objects.release o = some objects from hrelease]
    rfl
  refine ⟨_, hexec, { counted := hcounted.congr ?_, fits := h.fits }⟩
  intro x
  simp only [RefState.owners]
  by_cases hsame : x = o
  · subst hsame
    rw [Function.update_self, ho, weight, if_pos rfl]
    rfl
  · rw [Function.update_of_ne hsame, weight, if_neg fun hx => hsame (Option.some.inj hx).symm,
      Nat.sub_zero]

theorem construct (h : RefInv s) {v : Var} {p : Option Obj} (hv : v ∉ s.live)
    (hroom : s.live.card < RefState.slotTotal) (hp : ∀ o, p = some o → 0 < s.owners o) :
    ∃ objects, s.objects.addRefPtr p = some objects ∧
      RefInv { s with
        objects := objects, live := insert v s.live, ptr := Function.update s.ptr v p } := by
  obtain ⟨objects, hadd, hcounted⟩ := h.counted.addRefPtr hp
  refine ⟨objects, hadd, { counted := hcounted.congr ?_, fits := ?_ }⟩
  · intro o
    simp only [RefState.owners, pointing_insert s.live s.ptr o hv p]
    omega
  · exact Nat.le_trans (Finset.card_insert_le v s.live) hroom

theorem moveConstruct (h : RefInv s) {v w : Var} (hv : v ∉ s.live)
    (hroom : s.live.card < RefState.slotTotal) (hw : w ∈ s.live) :
    RefInv { s with
      live := insert v s.live
      ptr := Function.update (Function.update s.ptr v (s.ptr w)) w none } where
  counted := by
    refine h.counted.congr ?_
    intro o
    simp only [RefState.owners, pointing_move_insert s.live s.ptr o hv hw]
  fits := Nat.le_trans (Finset.card_insert_le v s.live) hroom

theorem destruct (h : RefInv s) {v : Var} (hv : v ∈ s.live) :
    ∃ objects, s.objects.releasePtr (s.ptr v) = some objects ∧
      RefInv { s with objects := objects, live := s.live.erase v } := by
  obtain ⟨objects, hrelease, hcounted⟩ := h.counted.releasePtr (h.releasable hv)
  refine ⟨objects, hrelease, { counted := hcounted.congr ?_, fits := ?_ }⟩
  · intro o
    have herased := pointing_erase s.live s.ptr o hv
    simp only [RefState.owners]
    omega
  · exact Nat.le_trans (Finset.card_erase_le) h.fits

theorem copyAssign (h : RefInv s) {v w : Var} (hv : v ∈ s.live) (hw : w ∈ s.live) (hne : v ≠ w) :
    ∃ released objects, s.objects.releasePtr (s.ptr v) = some released ∧
      released.addRefPtr (s.ptr w) = some objects ∧
      RefInv { s with objects := objects, ptr := Function.update s.ptr v (s.ptr w) } := by
  obtain ⟨released, hrelease, hcounted⟩ := h.counted.releasePtr (h.releasable hv)
  obtain ⟨objects, hadd, hcounted'⟩ := hcounted.addRefPtr (p := s.ptr w) (by
    -- the object of `w` keeps the reference of `w`, also if `v` points to it
    intro o ho
    by_cases hsame : s.ptr v = some o
    · have hmany := one_lt_pointing s.live s.ptr o hv hw hne hsame ho
      simp only [weight, if_pos hsame, RefState.owners]
      omega
    · have hpos := owners_pos hw o ho
      simp only [weight, if_neg hsame]
      omega)
  refine ⟨released, objects, hrelease, hadd, { counted := hcounted'.congr ?_, fits := h.fits }⟩
  intro o
  have hset := pointing_update s.live s.ptr o hv (s.ptr w)
  have hold := pointing_erase s.live s.ptr o hv
  simp only [RefState.owners]
  omega

theorem moveAssign (h : RefInv s) {v w : Var} (hv : v ∈ s.live) (hw : w ∈ s.live) (hne : v ≠ w) :
    ∃ objects, s.objects.releasePtr (s.ptr v) = some objects ∧
      RefInv { s with
        objects := objects
        ptr := Function.update (Function.update s.ptr v (s.ptr w)) w none } := by
  obtain ⟨objects, hrelease, hcounted⟩ := h.counted.releasePtr (h.releasable hv)
  refine ⟨objects, hrelease, { counted := hcounted.congr ?_, fits := h.fits }⟩
  intro o
  have hmoved := pointing_move s.live s.ptr o hv hw hne
  simp only [RefState.owners]
  omega

/-- An operation that a program may do accesses no dead object and keeps the counts exact. -/
theorem exec (h : RefInv s) {op : RefOp Var Obj} (hop : s.Allowed op) :
    ∃ t, s.exec op = some t ∧ RefInv t := by
  cases op with
  | create o => exact h.create hop
  | creatorRelease o => exact h.creatorRelease hop
  | construct v p =>
      obtain ⟨hv, hroom, hp⟩ := hop
      have hpos : ∀ o, p = some o → 0 < s.owners o := by
        intro o ho
        obtain ⟨n, hn⟩ := Option.ne_none_iff_exists'.1 (hp o ho)
        exact (h.counted.alive o n hn).2.1
      obtain ⟨objects, hadd, hinv⟩ := h.construct hv hroom hpos
      exact ⟨_, by simp only [RefState.exec, hadd]; rfl, hinv⟩
  | copyConstruct v w =>
      obtain ⟨hv, hroom, hw⟩ := hop
      obtain ⟨objects, hadd, hinv⟩ := h.construct hv hroom (owners_pos hw)
      exact ⟨_, by simp only [RefState.exec, hadd]; rfl, hinv⟩
  | moveConstruct v w =>
      obtain ⟨hv, hroom, hw⟩ := hop
      exact ⟨_, rfl, h.moveConstruct hv hroom hw⟩
  | destruct v =>
      obtain ⟨objects, hrelease, hinv⟩ := h.destruct hop
      exact ⟨_, by simp only [RefState.exec, hrelease]; rfl, hinv⟩
  | copyAssign v w =>
      by_cases hsame : v = w
      · exact ⟨s, by rw [RefState.exec, if_neg (not_not.2 hsame)], h⟩
      · obtain ⟨released, objects, hrelease, hadd, hinv⟩ := h.copyAssign hop.1 hop.2 hsame
        refine ⟨_, ?_, hinv⟩
        rw [RefState.exec, if_pos hsame, hrelease, Option.bind_eq_bind, Option.bind_some, hadd]
        rfl
  | moveAssign v w =>
      by_cases hsame : v = w
      · exact ⟨s, by rw [RefState.exec, if_neg (not_not.2 hsame)], h⟩
      · obtain ⟨objects, hrelease, hinv⟩ := h.moveAssign hop.1 hop.2 hsame
        refine ⟨_, ?_, hinv⟩
        rw [RefState.exec, if_pos hsame, hrelease]
        rfl

/-- The code follows an operation of a program. -/
theorem follows (h : RefInv s) {op : RefOp Var Obj} (hop : s.ownership.Allowed op) :
    ∃ t, s.exec op = some t ∧ RefInv t ∧ t.ownership = s.ownership.after op := by
  obtain ⟨t, hexec, hinv⟩ := h.exec (h.allowed hop)
  exact ⟨t, hexec, hinv, (RefState.exec_ownership hexec).1⟩

/-- An operation destroys the objects that it takes the last reference from. -/
theorem destroyed_step {t : RefState Var Obj} (h : RefInv s) (h' : RefInv t)
    {op : RefOp Var Obj} (hexec : s.exec op = some t) (o : Obj) :
    t.objects.destroyed.count o =
      s.objects.destroyed.count o + if 0 < s.owners o ∧ t.owners o = 0 then 1 else 0 := by
  obtain ⟨howners, hkept⟩ := RefState.exec_ownership hexec
  have hcreated := s.ownership.created_after op o
  rw [← howners] at hcreated
  have hdestroyed := h.counted.destroyed o
  have hdestroyed' := h'.counted.destroyed o
  have hkept := hkept.count_le o
  rcases Nat.eq_zero_or_pos (s.owners o) with hzero | hpos
  · -- No object is destroyed twice, and a new object has its creator.
    rw [if_neg fun hlast => absurd hlast.1 (by omega), Nat.add_zero]
    by_cases ho : o ∈ s.objects.created
    · rw [if_pos ⟨ho, hzero⟩] at hdestroyed
      split at hdestroyed' <;> omega
    · rw [if_neg fun hlast => ho hlast.1] at hdestroyed
      rw [hdestroyed, hdestroyed', if_neg]
      rintro ⟨ho', hzero'⟩
      have hpos : 0 < t.owners o := (hcreated.2 ho').resolve_left ho
      omega
  · have ho := h.mem_created hpos
    rw [if_neg fun hlast => absurd hlast.2 (by omega)] at hdestroyed
    rw [hdestroyed, hdestroyed', Nat.zero_add]
    exact if_congr ⟨fun hlast => ⟨hpos, hlast.2⟩, fun hlast => ⟨hcreated.1 ho, hlast.2⟩⟩ rfl rfl

end RefInv

variable [DecidableEq Var]

/-- The code follows every program: it leaves the variables as the operations mean, and accesses no
dead object. The count of an object is the number of its owners, and an object without one is not
alive. It is destroyed once, by the operation that takes its last owner. -/
theorem refcount_exact {ops : List (RefOp Var Obj)} {a : Ownership Var Obj}
    (hrun : Steps Ownership.Step Ownership.initial ops a) :
    ∃ s, ops.foldlM RefState.exec RefState.initial = some s ∧ s.ownership = a ∧
      (∀ o, (s.objects.count o).map BitVec.toNat =
        if a.owners o = 0 then none else some (a.owners o)) ∧
      (∀ o, s.objects.destroyed.count o = if o ∈ a.created ∧ a.owners o = 0 then 1 else 0) ∧
      ∀ op, a.Allowed op → ∃ t, s.exec op = some t ∧ t.ownership = a.after op ∧
        ∀ o, t.objects.destroyed.count o = s.objects.destroyed.count o +
          if 0 < a.owners o ∧ (a.after op).owners o = 0 then 1 else 0 := by
  have hstep : ∀ (s : RefState Var Obj) (a : Ownership Var Obj) (op : RefOp Var Obj)
      (b : Ownership Var Obj), RefInv s ∧ s.ownership = a → a.Step op b →
        ∃ t, s.exec op = some t ∧ RefInv t ∧ t.ownership = b := by
    rintro s _ op _ ⟨hinv, rfl⟩ ⟨hop, rfl⟩
    exact hinv.follows hop
  obtain ⟨s, hexec, hinv, rfl⟩ := hrun.simulated hstep ⟨RefInv.initial, rfl⟩
  refine ⟨s, hexec, rfl, hinv.count_eq, hinv.counted.destroyed, fun op hop => ?_⟩
  obtain ⟨t, hexec', hinv', howners⟩ := hinv.follows hop
  refine ⟨t, hexec', howners, fun o => ?_⟩
  rw [← howners]
  exact hinv.destroyed_step hinv' hexec' o

end Programs

/-- Two variables share an object, which then has three owners. It is destroyed with the last
one. -/
theorem refcount_exact_last_variable :
    (∃ s : RefState Bool Unit,
      [.create (), .construct false (some ()), .copyConstruct true false].foldlM RefState.exec
        RefState.initial = some s ∧ (s.objects.count ()).map BitVec.toNat = some 3) ∧
    ∃ s : RefState Bool Unit,
      [.create (), .construct false (some ()), .copyConstruct true false, .creatorRelease (),
        .destruct false, .destruct true].foldlM RefState.exec RefState.initial = some s ∧
      s.objects.created = [()] ∧ (s.objects.count ()).map BitVec.toNat = none ∧
      s.objects.destroyed.count () = 1 := by
  have hshared : Steps Ownership.Step (Ownership.initial : Ownership Bool Unit)
      [.create (), .construct false (some ()), .copyConstruct true false] _ :=
    .cons ⟨List.not_mem_nil, rfl⟩
      (.cons ⟨⟨by decide, by decide, fun o _ => by cases o; decide⟩, rfl⟩
        (.cons ⟨⟨by decide, by decide, by decide⟩, rfl⟩ (.refl _)))
  have hdropped : Steps Ownership.Step (Ownership.initial : Ownership Bool Unit)
      ([.create (), .construct false (some ()), .copyConstruct true false] ++
        [.creatorRelease (), .destruct false, .destruct true]) _ :=
    hshared.append (.cons ⟨rfl, rfl⟩ (.cons ⟨show false ∈ _ by decide, rfl⟩
      (.cons ⟨show true ∈ _ by decide, rfl⟩ (.refl _))))
  obtain ⟨s, hexec, -, hcount, -, -⟩ := refcount_exact hshared
  obtain ⟨t, hexec', howners, hcount', hdestroyed, -⟩ := refcount_exact hdropped
  exact ⟨⟨s, hexec, hcount ()⟩, t, hexec', congrArg Ownership.created howners, hcount' (),
    hdestroyed ()⟩

end HailOS.Object
