import HailOS.Memory.NewDelete
import HailOS.Object.RefPtr

/-!
# The last reference

The kernel creates ref-counted objects as `RefPtr<T>(new T(...))`. The object starts with the
reference of its creator and gets a second one from the `RefPtr`, and nobody ever drops the
first. `last_ref_frees_iff` says that the objects are freed with their last `RefPtr` only as long
as no object loses its last `RefPtr`, and that every call of `GetBootstrapConsole` costs a page.
-/

namespace HailOS.Object

open Lib Kernel Early

/-- A class derived from `RefCountedBase`: the size of its objects, which fit in a page together
with a header, as those of all classes of the kernel do. -/
structure RefClass where
  size : Nat
  onePage : size + allocatedMemoryInfoSize ≤ pageSize

/-- `RedundantOutput`: a table pointer, the count, two devices and the table pointer of the
virtual base. -/
def redundantOutput : RefClass := ⟨40, by decide⟩

/-- The heap, and the objects in it by their addresses. -/
structure ObjectState (Var : Type) where
  heap : Heap
  refs : RefState Var Nat

/-- The operations of a program. -/
inductive ObjectOp (Var : Type) where
  /-- A variable is constructed as `RefPtr<T>(new T(...))`. -/
  | make (v : Var) (cls : RefClass)
  /-- A variable is copied, moved, assigned or destroyed. -/
  | ref (op : RefOp Var Nat)

section Model

variable {Var : Type}

/-- No object is created yet. -/
def ObjectState.initial (heap : Heap) : ObjectState Var := ⟨heap, RefState.initial⟩

/-- The operation takes or drops no reference but those of variables. -/
def KeepsVariables : RefOp Var Nat → Prop
  | .create _ | .creatorRelease _ | .construct _ _ => False
  | _ => True

variable [DecidableEq Var]

/-- The effect of an operation. A destroyed object is passed to `operator delete`. The result is
none if `operator new` panics or a dead object is accessed. -/
def ObjectState.exec (s : ObjectState Var) : ObjectOp Var → Option (ObjectState Var)
  | .make v cls => do
      let (p, heap) ← operatorNew s.heap cls.size
      let refs ← s.refs.exec (.create p)
      let refs ← refs.exec (.construct v (some p))
      return ⟨heap, refs⟩
  | .ref op => do
      let refs ← s.refs.exec op
      let deleted := refs.objects.destroyed.drop s.refs.objects.destroyed.length
      return ⟨deleted.foldl operatorDelete s.heap, refs⟩

/-- What a program may do. -/
def ObjectState.Allowed (s : ObjectState Var) : ObjectOp Var → Prop
  | .make v _ => v ∉ s.refs.live ∧ s.refs.live.card < RefState.slotTotal
  | .ref op => KeepsVariables op ∧ s.refs.Allowed op

/-- A step of a program. -/
def ObjectStep (s : ObjectState Var) (op : ObjectOp Var) (t : ObjectState Var) : Prop :=
  s.Allowed op ∧ s.exec op = some t

/-- Every object that was created in the heap `heap` or later and has no `RefPtr` any more is
destroyed, and the bit of its page is as it was. -/
def FreedWithLastRef (heap : Heap) (s : ObjectState Var) : Prop :=
  ∀ o ∈ s.refs.objects.created, pointing s.refs.live s.refs.ptr o = 0 →
    o ∈ s.refs.objects.destroyed ∧
      bitAt s.heap.bitmap (o / 4096) = bitAt heap.bitmap (o / 4096)

/-- The operation takes the last `RefPtr` from the object. -/
def DropsLast (s : RefState Var Nat) (op : RefOp Var Nat) (o : Nat) : Prop :=
  match op with
  | .destruct v => s.ptr v = some o ∧ pointing s.live s.ptr o = 1
  | .copyAssign v w | .moveAssign v w =>
      s.ptr v = some o ∧ s.ptr w ≠ some o ∧ pointing s.live s.ptr o = 1
  | _ => False

/-- The operation takes the last `RefPtr` from no object. -/
def ObjectState.DropsNone (s : ObjectState Var) : ObjectOp Var → Prop
  | .make _ _ => True
  | .ref op => ∀ o ∈ s.refs.objects.created, ¬ DropsLast s.refs op o

/-- Every object has a `RefPtr`. -/
def Held (s : ObjectState Var) : Prop :=
  ∀ o ∈ s.refs.objects.created, 0 < pointing s.refs.live s.refs.ptr o

/-- `k` calls of `GetBootstrapConsole`, each result dropped. -/
def consoleCalls (v : Var) : Nat → List (ObjectOp Var)
  | 0 => []
  | k + 1 => .make v redundantOutput :: .ref (.destruct v) :: consoleCalls v k

end Model

/-! ## One object -/

/-- An object of a class takes one page. -/
theorem RefClass.pageCount (cls : RefClass) : pageCountOf (sizeAlloc cls.size) = 1 := by
  have hfits := cls.onePage
  rw [allocatedMemoryInfoSize, pageSize] at hfits
  rw [pageCountOf_eq, sizeAlloc, wrap64, allocatedMemoryInfoSize]
  omega

/-- A new object takes an unused page of the bitmap and changes no other. -/
theorem operatorNew_one_bit {heap heap' : Heap} {cls : RefClass} {p : Nat}
    (h : operatorNew heap cls.size = some (p, heap')) :
    ∃ k, k < pageTotal ∧ p = 4096 * k ∧ bitAt heap.bitmap k = unusedBit ∧
      ∀ j, bitAt heap'.bitmap j = if j = k then usedBit else bitAt heap.bitmap j := by
  obtain ⟨k, -, hk, hp, hunused, -⟩ := operatorNew_one_page cls.pageCount h
  obtain ⟨s, hp', hgrant, -⟩ := operatorNew_grant h
  have hsame : s = k := by omega
  rw [hsame, cls.pageCount] at hgrant
  refine ⟨k, hk, hp, hunused, fun j => ?_⟩
  have hiff : k ≤ j ∧ j < k + 1 ↔ j = k := by omega
  rw [hgrant.marked (by omega) j]
  simp only [hiff]

/-- Marking an unused page takes 4096 bytes from the available size. -/
theorem getAvailableSize_mark {bitmap bitmap' : PageBitmap} {k : Nat} (hk : k < pageTotal)
    (hunused : bitAt bitmap k = unusedBit)
    (hbits : ∀ j, bitAt bitmap' j = if j = k then usedBit else bitAt bitmap j) :
    getAvailableSize bitmap' + 4096 = getAvailableSize bitmap := by
  have hfilter : ((Finset.range pageTotal).filter fun j => bitAt bitmap' j = unusedBit) =
      ((Finset.range pageTotal).filter fun j => bitAt bitmap j = unusedBit).erase k := by
    ext j
    simp only [Finset.mem_filter, Finset.mem_erase, hbits j]
    by_cases hj : j = k
    · simp [hj, usedBit, unusedBit]
    · simp [hj]
  have hmem : k ∈ (Finset.range pageTotal).filter fun j => bitAt bitmap j = unusedBit :=
    Finset.mem_filter.2 ⟨Finset.mem_range.2 hk, hunused⟩
  rw [getAvailableSize_eq, getAvailableSize_eq, hfilter, ← Finset.card_erase_add_one hmem]
  omega

/-! ## Programs -/

section Programs

variable {Var : Type} [DecidableEq Var]

/-- An operation on variables creates no object and leaves the references of the creators. An
object has no `RefPtr` afterwards if it had none or lost the last one. -/
theorem RefState.exec_keeps {s t : RefState Var Nat} {op : RefOp Var Nat} (hop : KeepsVariables op)
    (hallowed : s.Allowed op) (h : s.exec op = some t) :
    t.creator = s.creator ∧ t.objects.created = s.objects.created ∧
      ∀ o, pointing t.live t.ptr o = 0 ↔ pointing s.live s.ptr o = 0 ∨ DropsLast s op o := by
  cases op with
  | create | creatorRelease | construct => exact absurd hop id
  | copyConstruct v w =>
      obtain ⟨objects, hadd, hresult⟩ := Option.bind_eq_some_iff.1 h
      cases hresult
      refine ⟨rfl, (Objects.addRefPtr_frame hadd).1, fun o => ?_⟩
      have hshared := weight_le_pointing s.live s.ptr o hallowed.2.2
      have hadded := pointing_insert s.live s.ptr o hallowed.1 (s.ptr w)
      simp only [DropsLast, or_false]
      omega
  | moveConstruct v w =>
      cases h
      refine ⟨rfl, rfl, fun o => ?_⟩
      simp only [DropsLast, or_false,
        pointing_move_insert s.live s.ptr o hallowed.1 hallowed.2.2]
  | destruct v =>
      obtain ⟨objects, hrelease, hresult⟩ := Option.bind_eq_some_iff.1 h
      cases hresult
      refine ⟨rfl, (Objects.releasePtr_frame hrelease).1, fun o => ?_⟩
      have herased := pointing_erase s.live s.ptr o hallowed
      have hone := weight_le_one (s.ptr v) o
      simp only [DropsLast, ← weight_eq_one]
      omega
  | copyAssign v w =>
      by_cases hsame : v = w
      · rw [RefState.exec, if_neg (not_not.2 hsame)] at h
        cases h
        refine ⟨rfl, rfl, fun o => ?_⟩
        exact (or_iff_left fun hdrops => hdrops.2.1 (hsame ▸ hdrops.1)).symm
      · rw [RefState.exec, if_pos hsame] at h
        obtain ⟨released, hrelease, hrest⟩ := Option.bind_eq_some_iff.1 h
        obtain ⟨objects, hadd, hresult⟩ := Option.bind_eq_some_iff.1 hrest
        cases hresult
        refine ⟨rfl,
          (Objects.addRefPtr_frame hadd).1.trans (Objects.releasePtr_frame hrelease).1, fun o => ?_⟩
        have hset := pointing_update s.live s.ptr o hallowed.1 (s.ptr w)
        have hold := weight_le_pointing s.live s.ptr o hallowed.1
        have hshared := weight_le_pointing s.live s.ptr o hallowed.2
        have hone := weight_le_one (s.ptr v) o
        simp only [DropsLast, ← weight_eq_one, ne_eq]
        omega
  | moveAssign v w =>
      by_cases hsame : v = w
      · rw [RefState.exec, if_neg (not_not.2 hsame)] at h
        cases h
        refine ⟨rfl, rfl, fun o => ?_⟩
        exact (or_iff_left fun hdrops => hdrops.2.1 (hsame ▸ hdrops.1)).symm
      · rw [RefState.exec, if_pos hsame] at h
        obtain ⟨objects, hrelease, hresult⟩ := Option.bind_eq_some_iff.1 h
        cases hresult
        refine ⟨rfl, (Objects.releasePtr_frame hrelease).1, fun o => ?_⟩
        have hmoved := pointing_move s.live s.ptr o hallowed.1 hallowed.2 hsame
        have hboth := one_lt_pointing s.live s.ptr o hallowed.1 hallowed.2 hsame
        have hone := weight_le_one (s.ptr v) o
        have hone' := weight_le_one (s.ptr w) o
        simp only [← weight_eq_one] at hboth
        simp only [DropsLast, ← weight_eq_one, ne_eq]
        omega

/-- How many objects the operations make. -/
def makeCount : List (ObjectOp Var) → Nat
  | [] => 0
  | .make _ _ :: ops => makeCount ops + 1
  | .ref _ :: ops => makeCount ops

omit [DecidableEq Var] in
theorem makeCount_append (ops rest : List (ObjectOp Var)) :
    makeCount (ops ++ rest) = makeCount ops + makeCount rest := by
  induction ops with
  | nil => exact (Nat.zero_add _).symm
  | cons op ops ih =>
      cases op with
      | make v cls =>
          rw [List.cons_append, makeCount, makeCount, ih]
          omega
      | ref op => exact ih

omit [DecidableEq Var] in
theorem makeCount_consoleCalls (v : Var) (k : Nat) : makeCount (consoleCalls v k) = k := by
  induction k with
  | zero => rfl
  | succ k ih => rw [consoleCalls, makeCount, makeCount, ih]

/-- Every object still has the reference of its creator, and a page that was unused. -/
structure LeakInv (heap : Heap) (s : ObjectState Var) : Prop where
  refs : RefInv s.refs
  creator : ∀ o ∈ s.refs.objects.created, s.refs.creator o = true
  page : ∀ o ∈ s.refs.objects.created,
    bitAt heap.bitmap (o / 4096) = unusedBit ∧ bitAt s.heap.bitmap (o / 4096) = usedBit
  used : ∀ j, bitAt heap.bitmap j = usedBit → bitAt s.heap.bitmap j = usedBit
  available : getAvailableSize s.heap.bitmap + 4096 * s.refs.objects.created.length =
    getAvailableSize heap.bitmap

namespace LeakInv

variable {heap : Heap} {s t : ObjectState Var}

omit [DecidableEq Var] in
theorem initial (heap : Heap) : LeakInv heap (ObjectState.initial heap : ObjectState Var) where
  refs := RefInv.initial
  creator := fun _ h => absurd h List.not_mem_nil
  page := fun _ h => absurd h List.not_mem_nil
  used := fun _ h => h
  available := by
    show getAvailableSize heap.bitmap + 4096 * 0 = getAvailableSize heap.bitmap
    rw [Nat.mul_zero, Nat.add_zero]

omit [DecidableEq Var] in
/-- No object is destroyed as long as the creators keep their references. -/
theorem destroyed_eq_nil {refs : RefState Var Nat} (h : RefInv refs)
    (hcreator : ∀ o ∈ refs.objects.created, refs.creator o = true) :
    refs.objects.destroyed = [] := by
  apply List.eq_nil_iff_forall_not_mem.2
  intro o ho
  have hcount := h.counted.destroyed o
  have hpos := List.count_pos_iff.2 ho
  by_cases hdead : o ∈ refs.objects.created ∧ refs.owners o = 0
  · have howners := hdead.2
    rw [RefState.owners, hcreator o hdead.1] at howners
    simp at howners
  · rw [if_neg hdead] at hcount
    omega

omit [DecidableEq Var] in
/-- The page of a new object is not the page of another one. -/
theorem fresh (h : LeakInv heap s) {k : Nat} (hunused : bitAt s.heap.bitmap k = unusedBit) :
    4096 * k ∉ s.refs.objects.created := by
  intro hcreated
  have hused := (h.page _ hcreated).2
  rw [Nat.mul_div_cancel_left k (by norm_num), hunused] at hused
  cases hused

/-- An operation on variables destroys nothing. -/
theorem ref (h : LeakInv heap s) {op : RefOp Var Nat} (hkeeps : KeepsVariables op)
    (hop : s.refs.Allowed op) (hexec : s.exec (.ref op) = some t) :
    LeakInv heap t ∧ t.refs.objects.created.length = s.refs.objects.created.length := by
  obtain ⟨refs, hrefs, hresult⟩ := Option.bind_eq_some_iff.1 hexec
  obtain ⟨refs', hrefs', hinv⟩ := h.refs.exec hop
  rw [hrefs] at hrefs'
  cases hrefs'
  obtain ⟨hcreator, hcreated, -⟩ := RefState.exec_keeps hkeeps hop hrefs
  -- the creators still have their references, so `operator delete` is not called
  have hnone : refs.objects.destroyed = [] := by
    apply destroyed_eq_nil hinv
    rw [hcreator, hcreated]
    exact h.creator
  have hheap : t = ⟨s.heap, refs⟩ := by
    rw [hnone, List.drop_nil] at hresult
    exact (Option.some.inj hresult).symm
  subst hheap
  refine ⟨{ refs := hinv, creator := ?_, page := ?_, used := h.used, available := ?_ }, ?_⟩
  · show ∀ o ∈ refs.objects.created, refs.creator o = true
    rw [hcreator, hcreated]
    exact h.creator
  · show ∀ o ∈ refs.objects.created, _
    rw [hcreated]
    exact h.page
  · show getAvailableSize s.heap.bitmap + 4096 * refs.objects.created.length = _
    rw [hcreated]
    exact h.available
  · exact congrArg List.length hcreated

/-- Where `operator new` returns, the object takes an unused page and the variable points to
it. -/
theorem exists_make (h : LeakInv heap s) {v : Var} {cls : RefClass} (hv : v ∉ s.refs.live)
    (hroom : s.refs.live.card < RefState.slotTotal) {p : Nat} {heap' : Heap}
    (hnew : operatorNew s.heap cls.size = some (p, heap')) :
    ∃ t k, s.exec (.make v cls) = some t ∧ k < pageTotal ∧
      bitAt s.heap.bitmap k = unusedBit ∧
      (∀ j, bitAt t.heap.bitmap j = if j = k then usedBit else bitAt s.heap.bitmap j) ∧
      RefInv t.refs ∧ t.refs.objects.created = s.refs.objects.created ++ [4096 * k] ∧
      t.refs.creator = Function.update s.refs.creator (4096 * k) true ∧
      t.refs.live = insert v s.refs.live ∧
      t.refs.ptr = Function.update s.refs.ptr v (some (4096 * k)) := by
  obtain ⟨k, hk, hp, hunused, hbits⟩ := operatorNew_one_bit hnew
  subst hp
  have hfresh : s.refs.Allowed (.create (4096 * k)) := h.fresh hunused
  obtain ⟨made, hcreate, hinv⟩ := h.refs.exec hfresh
  have hmade := hcreate
  cases hmade
  have halive : RefState.Allowed { s.refs with
      objects := s.refs.objects.create (4096 * k)
      creator := Function.update s.refs.creator (4096 * k) true }
      (.construct v (some (4096 * k))) := by
    refine ⟨hv, hroom, ?_⟩
    intro o ho
    cases ho
    simp [Objects.create]
  obtain ⟨held, hconstruct, hinv'⟩ := hinv.exec halive
  have hexec : s.exec (.make v cls) = some ⟨heap', held⟩ := by
    rw [ObjectState.exec, hnew]
    show ((s.refs.exec (.create (4096 * k))).bind fun refs =>
      (refs.exec (.construct v (some (4096 * k)))).bind fun refs =>
        some (ObjectState.mk heap' refs)) = some (ObjectState.mk heap' held)
    rw [hcreate, Option.bind_some, hconstruct, Option.bind_some]
  obtain ⟨objects, hadd, hheld⟩ := Option.bind_eq_some_iff.1 hconstruct
  cases hheld
  exact ⟨_, k, hexec, hk, hunused, hbits, hinv', (Objects.addRefPtr_frame hadd).1, rfl, rfl, rfl⟩

/-- A new object takes an unused page, and the variable points to it. -/
theorem exec_make (h : LeakInv heap s) {v : Var} {cls : RefClass} (hv : v ∉ s.refs.live)
    (hroom : s.refs.live.card < RefState.slotTotal) (hexec : s.exec (.make v cls) = some t) :
    ∃ k, k < pageTotal ∧ bitAt s.heap.bitmap k = unusedBit ∧
      (∀ j, bitAt t.heap.bitmap j = if j = k then usedBit else bitAt s.heap.bitmap j) ∧
      RefInv t.refs ∧ t.refs.objects.created = s.refs.objects.created ++ [4096 * k] ∧
      t.refs.creator = Function.update s.refs.creator (4096 * k) true ∧
      t.refs.live = insert v s.refs.live ∧
      t.refs.ptr = Function.update s.refs.ptr v (some (4096 * k)) := by
  obtain ⟨⟨p, heap'⟩, hnew, -⟩ := Option.bind_eq_some_iff.1 hexec
  obtain ⟨t', k, hexec', hrest⟩ := h.exists_make hv hroom hnew
  rw [hexec] at hexec'
  cases hexec'
  exact ⟨k, hrest⟩

/-- A new object takes a page of its own. -/
theorem make (h : LeakInv heap s) {v : Var} {cls : RefClass} (hv : v ∉ s.refs.live)
    (hroom : s.refs.live.card < RefState.slotTotal) (hexec : s.exec (.make v cls) = some t) :
    LeakInv heap t ∧ t.refs.objects.created.length = s.refs.objects.created.length + 1 := by
  obtain ⟨k, hk, hunused, hbits, hinv, hcreated, hcreator, -⟩ := h.exec_make hv hroom hexec
  have hpage : 4096 * k / 4096 = k := Nat.mul_div_cancel_left k (by norm_num)
  have hlength : t.refs.objects.created.length = s.refs.objects.created.length + 1 := by
    rw [hcreated, List.length_append, List.length_singleton]
  refine ⟨{ refs := hinv, creator := ?_, page := ?_, used := ?_, available := ?_ }, hlength⟩
  · intro o ho
    rw [hcreator]
    by_cases hsame : o = 4096 * k
    · rw [hsame, Function.update_self]
    · rw [Function.update_of_ne hsame]
      exact h.creator o (by simpa [hcreated, hsame] using ho)
  · intro o ho
    by_cases hsame : o = 4096 * k
    · rw [hsame, hpage, hbits, if_pos rfl]
      refine ⟨?_, rfl⟩
      by_contra hother
      have hused := h.used k (by simpa [usedBit, unusedBit] using hother)
      rw [hunused] at hused
      cases hused
    · obtain ⟨hbefore, hnow⟩ := h.page o (by simpa [hcreated, hsame] using ho)
      refine ⟨hbefore, ?_⟩
      rw [hbits, hnow, ite_self]
  · intro j hj
    rw [hbits, h.used j hj, ite_self]
  · rw [hlength, ← h.available, ← getAvailableSize_mark hk hunused hbits, Nat.mul_add,
      Nat.mul_one, Nat.add_right_comm, Nat.add_assoc]

/-- A step creates as many objects as it makes. -/
theorem step {op : ObjectOp Var} (h : LeakInv heap s) (hstep : ObjectStep s op t) :
    LeakInv heap t ∧
      t.refs.objects.created.length = s.refs.objects.created.length + makeCount [op] := by
  obtain ⟨hallowed, hexec⟩ := hstep
  cases op with
  | make v cls => exact h.make hallowed.1 hallowed.2 hexec
  | ref op => exact h.ref hallowed.1 hallowed.2 hexec

/-- Every object has a `RefPtr` after a step iff it had one before and did not lose the last. -/
theorem held_step {op : ObjectOp Var} (h : LeakInv heap s) (hstep : ObjectStep s op t) :
    Held t ↔ Held s ∧ s.DropsNone op := by
  obtain ⟨hallowed, hexec⟩ := hstep
  cases op with
  | make v cls =>
      obtain ⟨k, -, hunused, -, -, hcreated, -, hlive, hptr⟩ :=
        h.exec_make hallowed.1 hallowed.2 hexec
      have hfresh := h.fresh hunused
      have hpointing : ∀ o, pointing t.refs.live t.refs.ptr o =
          pointing s.refs.live s.refs.ptr o + weight (some (4096 * k)) o := by
        intro o
        rw [hlive, hptr]
        exact pointing_insert s.refs.live s.refs.ptr o hallowed.1 (some (4096 * k))
      simp only [Held, hcreated, hpointing, List.mem_append, List.mem_singleton,
        ObjectState.DropsNone, and_true]
      constructor
      · intro hheld o ho
        have hne : some (4096 * k) ≠ some o := fun hsame => hfresh (Option.some.inj hsame ▸ ho)
        simpa only [weight, if_neg hne, Nat.add_zero] using hheld o (.inl ho)
      · rintro hheld o (ho | rfl)
        · exact Nat.add_pos_left (hheld o ho) _
        · exact Nat.add_pos_right _ (by rw [weight, if_pos rfl]; exact Nat.one_pos)
  | ref op =>
      obtain ⟨refs, hrefs, hresult⟩ := Option.bind_eq_some_iff.1 hexec
      cases hresult
      obtain ⟨-, hcreated, hpointing⟩ := RefState.exec_keeps hallowed.1 hallowed.2 hrefs
      simp only [Held, hcreated, Nat.pos_iff_ne_zero, ne_eq, hpointing, ObjectState.DropsNone,
        not_or, ← forall_and]

/-- A run creates as many objects as it makes. -/
theorem run {ops : List (ObjectOp Var)} (hrun : Steps ObjectStep s ops t) (h : LeakInv heap s) :
    LeakInv heap t ∧
      t.refs.objects.created.length = s.refs.objects.created.length + makeCount ops := by
  induction hrun with
  | refl s => exact ⟨h, rfl⟩
  | @cons s op u ops t hstep _ ih =>
      obtain ⟨hmid, hlength⟩ := h.step hstep
      obtain ⟨hlast, hrest⟩ := ih hmid
      refine ⟨hlast, ?_⟩
      rw [hrest, hlength, Nat.add_assoc, ← makeCount_append]
      rfl

/-- Every object has a `RefPtr` after a run iff it had one before and no step took the last. -/
theorem held_run {ops : List (ObjectOp Var)} (hrun : Steps ObjectStep s ops t)
    (h : LeakInv heap s) :
    Held t ↔ Held s ∧ Steps (fun s op t => ObjectStep s op t ∧ s.DropsNone op) s ops t := by
  induction hrun with
  | refl s => exact (and_iff_left (.refl s)).symm
  | @cons s u t op ops hstep _ ih =>
      rw [ih (h.step hstep).1, h.held_step hstep]
      constructor
      · rintro ⟨⟨hheld, hnone⟩, hrest⟩
        exact ⟨hheld, .cons ⟨hstep, hnone⟩ hrest⟩
      · rintro ⟨hheld, hrun⟩
        obtain _ | ⟨hfirst, hrest⟩ := hrun
        have hsame := hstep.2.symm.trans hfirst.1.2
        cases hsame
        exact ⟨⟨hheld, hfirst.2⟩, hrest⟩

omit [DecidableEq Var] in
/-- As nothing is ever destroyed, an object without a `RefPtr` is not freed. -/
theorem freed_iff_held (h : LeakInv heap s) : FreedWithLastRef heap s ↔ Held s := by
  constructor
  · intro hfreed o ho
    by_contra hlost
    have hdestroyed := (hfreed o ho (Nat.eq_zero_of_not_pos hlost)).1
    rw [destroyed_eq_nil h.refs h.creator] at hdestroyed
    cases hdestroyed
  · intro hheld o ho hlost
    exact absurd hlost (Nat.ne_of_gt (hheld o ho))

end LeakInv

/-- In every run of a program, the objects are destroyed with their last `RefPtr` and their pages
given back iff no operation takes the last `RefPtr` from an object. Calls of
`GetBootstrapConsole` whose results are dropped leave the available size iff there are none. -/
theorem last_ref_frees_iff {heap : Heap} {ops : List (ObjectOp Var)} {s : ObjectState Var}
    (hrun : Steps ObjectStep (ObjectState.initial heap) ops s) :
    (FreedWithLastRef heap s ↔
      Steps (fun s op t => ObjectStep s op t ∧ s.DropsNone op)
        (ObjectState.initial heap) ops s) ∧
      ∀ v k, ops = consoleCalls v k →
        (getAvailableSize s.heap.bitmap = getAvailableSize heap.bitmap ↔ k = 0) := by
  obtain ⟨hinv, hlength⟩ := (LeakInv.initial heap).run hrun
  constructor
  · rw [hinv.freed_iff_held, (LeakInv.initial heap).held_run hrun]
    exact and_iff_right fun o ho => absurd ho List.not_mem_nil
  · rintro v k rfl
    have hcreated : s.refs.objects.created.length = k := by
      rw [hlength, makeCount_consoleCalls]
      exact Nat.zero_add k
    rw [← hinv.available, hcreated]
    constructor
    · intro hsame
      have hnone := Nat.left_eq_add.1 hsame
      omega
    · intro hnone
      rw [hnone, Nat.mul_zero, Nat.add_zero]

end Programs

/-- A first call of `GetBootstrapConsole`. -/
theorem first_console (heap : Heap)
    (hfree : (allocatePageSize heap.bitmap (sizeAlloc redundantOutput.size)).1 ≠ 0) :
    ∃ (s : ObjectState Unit) (o : Nat),
      ObjectStep (ObjectState.initial heap) (.make () redundantOutput) s ∧
        s.refs.objects.created = [o] ∧ s.refs.live = {()} ∧ s.refs.ptr () = some o := by
  obtain ⟨s, k, hexec, -, -, -, -, hcreated, -, hlive, hptr⟩ :=
    (LeakInv.initial heap).exists_make (Finset.notMem_empty ()) (Nat.two_pow_pos 61)
      (operatorNew_eq hfree)
  refine ⟨s, 4096 * k, ⟨⟨Finset.notMem_empty _, Nat.two_pow_pos 61⟩, hexec⟩, hcreated, hlive, ?_⟩
  rw [hptr, Function.update_self]

theorem sevenPages_console :
    (allocatePageSize sevenPages (sizeAlloc redundantOutput.size)).1 ≠ 0 := by
  decide +kernel

/-- A console that is kept need not be freed. -/
theorem last_ref_frees_iff_kept :
    ∃ s : ObjectState Unit,
      Steps ObjectStep (ObjectState.initial ⟨sevenPages, fun _ => 0⟩) [.make () redundantOutput] s ∧
      s.refs.live = {()} ∧ FreedWithLastRef ⟨sevenPages, fun _ => 0⟩ s := by
  obtain ⟨s, o, hstep, -, hlive, -⟩ :=
    first_console ⟨sevenPages, fun _ => 0⟩ sevenPages_console
  have hrun := Steps.cons hstep (.refl s)
  exact ⟨s, hrun, hlive, (last_ref_frees_iff hrun).1.2 (.cons ⟨hstep, trivial⟩ (.refl s))⟩

/-- A console that is dropped is not freed, and its page is lost. -/
theorem dropped_console_leaks :
    ∃ s : ObjectState Unit,
      Steps ObjectStep (ObjectState.initial ⟨sevenPages, fun _ => 0⟩) (consoleCalls () 1) s ∧
        ¬ FreedWithLastRef ⟨sevenPages, fun _ => 0⟩ s ∧
        getAvailableSize s.heap.bitmap + 4096 = getAvailableSize sevenPages := by
  obtain ⟨s, o, hstep, hcreated, hlive, hptr⟩ :=
    first_console ⟨sevenPages, fun _ => 0⟩ sevenPages_console
  have hinv := ((LeakInv.initial _).step hstep).1
  have hv : () ∈ s.refs.live := by
    rw [hlive]
    exact Finset.mem_singleton_self ()
  have hallowed : s.refs.Allowed (.destruct ()) := hv
  obtain ⟨refs, hrefs, -⟩ := hinv.refs.exec hallowed
  have hdrop : ObjectStep s (.ref (.destruct ())) _ :=
    ⟨⟨trivial, hv⟩, by rw [ObjectState.exec, hrefs]; rfl⟩
  have hrun := Steps.cons hstep (.cons hdrop (.refl _))
  obtain ⟨hinv', hlength⟩ := (LeakInv.initial _).run hrun
  refine ⟨_, hrun, ?_, ?_⟩
  · rw [hinv'.freed_iff_held, hinv.held_step hdrop]
    rintro ⟨-, hnone⟩
    refine hnone o (by rw [hcreated]; exact List.mem_singleton_self o) ⟨hptr, ?_⟩
    rw [pointing, hlive, Finset.filter_singleton, if_pos hptr, Finset.card_singleton]
  · rw [← hinv'.available, hlength]
    rfl

end HailOS.Object
