import HailOS.Lib.AccessLog

/-!
# Tagged records in memory

A table of records is a run of bytes in which every record starts with its tag and its length,
the two header bytes counted in the length. `walkRecords` goes over such a table record by record.
With enough fuel it is a loop over `recordStarts` (`walkRecords_value`), whatever the bytes are. On
the bytes of a list of records these are the places where the records stand
(`recordStarts_serialise`). A loop that collects values into an array of fixed capacity makes a
`GuardedSet` for each record.
-/

namespace HailOS.Lib

namespace Memory

/-- The bytes stand in memory from `address` on. -/
def Holds (memory : Memory) : Nat → List (BitVec 8) → Prop
  | _, [] => True
  | address, byte :: bytes => memory address = byte ∧ Holds memory (address + 1) bytes

instance decidableHolds (memory : Memory) :
    (address : Nat) → (bytes : List (BitVec 8)) → Decidable (Holds memory address bytes)
  | _, [] => inferInstanceAs (Decidable True)
  | address, byte :: bytes =>
      have := decidableHolds memory (address + 1) bytes
      inferInstanceAs (Decidable (memory address = byte ∧ Holds memory (address + 1) bytes))

/-- The number that a list of bytes spells, least significant byte first. -/
def littleEndian : List (BitVec 8) → Nat
  | [] => 0
  | byte :: bytes => byte.toNat + 256 * littleEndian bytes

variable {memory : Memory}

theorem holds_append (address : Nat) (bytes bytes' : List (BitVec 8)) :
    memory.Holds address (bytes ++ bytes') ↔
      memory.Holds address bytes ∧ memory.Holds (address + bytes.length) bytes' := by
  induction bytes generalizing address with
  | nil => simp [Holds]
  | cons byte bytes ih =>
      have hnext : address + (bytes.length + 1) = address + 1 + bytes.length := by omega
      simp only [List.cons_append, Holds, ih, List.length_cons, hnext, and_assoc]

theorem Holds.take {address : Nat} {bytes : List (BitVec 8)} (h : memory.Holds address bytes)
    (n : Nat) : memory.Holds address (bytes.take n) := by
  rw [← List.take_append_drop n bytes] at h
  exact ((holds_append _ _ _).1 h).1

theorem Holds.drop {address : Nat} {bytes : List (BitVec 8)} (h : memory.Holds address bytes)
    {n : Nat} (hn : n ≤ bytes.length) : memory.Holds (address + n) (bytes.drop n) := by
  rw [← List.take_append_drop n bytes] at h
  have hdrop := ((holds_append _ _ _).1 h).2
  rwa [List.length_take, Nat.min_eq_left hn] at hdrop

theorem load_eq_littleEndian {address : Nat} {bytes : List (BitVec 8)}
    (h : memory.Holds address bytes) : load bytes.length memory address = littleEndian bytes := by
  induction bytes generalizing address with
  | nil => rfl
  | cons byte bytes ih => rw [List.length_cons, load, littleEndian, h.1, ih h.2]

/-- A field inside a run of known bytes reads as the bytes at its offset. -/
theorem Holds.load {address : Nat} {bytes : List (BitVec 8)} (h : memory.Holds address bytes)
    (offset width : Nat) (hfield : offset + width ≤ bytes.length) :
    Memory.load width memory (address + offset) =
      littleEndian ((bytes.drop offset).take width) := by
  have hbytes : memory.Holds (address + offset) ((bytes.drop offset).take width) :=
    (h.drop (by omega)).take width
  have hlength : ((bytes.drop offset).take width).length = width := by
    rw [List.length_take, List.length_drop]
    omega
  rw [← load_eq_littleEndian hbytes, hlength]

end Memory

/-! ## Records -/

/-- A record: its tag and its payload, short enough for the length byte. -/
structure Record where
  tag : BitVec 8
  payload : List (BitVec 8)
  fits : payload.length + 2 < 256

namespace Record

/-- The length of the record, its two header bytes included. -/
def size (record : Record) : Nat := record.payload.length + 2

/-- The bytes of the record. -/
def bytes (record : Record) : List (BitVec 8) :=
  record.tag :: BitVec.ofNat 8 record.size :: record.payload

@[simp] theorem length_bytes (record : Record) : record.bytes.length = record.size := rfl

theorem toNat_size (record : Record) : (BitVec.ofNat 8 record.size).toNat = record.size := by
  rw [BitVec.toNat_ofNat]
  exact Nat.mod_eq_of_lt record.fits

theorem size_byte_ne_zero (record : Record) : BitVec.ofNat 8 record.size ≠ 0 := by
  intro hzero
  have hsize := record.toNat_size
  rw [hzero] at hsize
  simp [size] at hsize

/-- The bytes of a list of records, one after the other. -/
def serialise (records : List Record) : List (BitVec 8) := records.flatMap bytes

@[simp] theorem serialise_nil : serialise [] = [] := rfl

@[simp] theorem serialise_cons (record : Record) (records : List Record) :
    serialise (record :: records) = record.bytes ++ serialise records := rfl

/-- The records with the addresses at which they stand, the first one at `address`. -/
def placed : Nat → List Record → List (Nat × Record)
  | _, [] => []
  | address, record :: records => (address, record) :: placed (address + record.size) records

/-- Forgetting the places leaves the records. -/
theorem map_snd_placed (address : Nat) (records : List Record) :
    (placed address records).map Prod.snd = records := by
  induction records generalizing address with
  | nil => rfl
  | cons record records ih => rw [placed, List.map_cons, ih]

end Record

open Memory Record Logged

variable {memory : Memory} {σ : Type}

/-- Every record of a serialised list stands where `placed` says. -/
theorem holds_of_mem_placed {address : Nat} {records : List Record}
    (h : memory.Holds address (serialise records)) {place : Nat × Record}
    (hplace : place ∈ placed address records) : memory.Holds place.1 place.2.bytes := by
  induction records generalizing address with
  | nil => exact absurd hplace List.not_mem_nil
  | cons record records ih =>
      rw [serialise_cons, holds_append] at h
      rw [placed, List.mem_cons] at hplace
      cases hplace with
      | inl hfirst =>
          subst hfirst
          exact h.1
      | inr hrest => exact ih h.2 hrest

/-- Visit the records from `p` to `stop`: while a record's header fits before `stop` and its length
is not zero, visit it and go on behind it. The result is none if there are more than `fuel`
rounds. -/
def walkRecords (visit : Nat → σ → Logged Span σ) (memory : Memory) (stop : Nat) :
    (fuel p : Nat) → σ → Logged Span (Option σ)
  | 0, _, _ => pure none
  | fuel + 1, p, s =>
      if p + 2 ≤ stop then do
        let length ← memory.readByte (p + 1)
        if length = 0 then pure (some s)
        else
          let s ← visit p s
          walkRecords visit memory stop fuel (p + length.toNat) s
      else pure (some s)

/-- The places at which the walk visits a record. -/
def recordStarts (memory : Memory) (p stop : Nat) : List Nat :=
  if p + 2 ≤ stop ∧ memory (p + 1) ≠ 0 then
    p :: recordStarts memory (p + (memory (p + 1)).toNat) stop
  else []
termination_by stop - p
decreasing_by
  rename_i h
  have hlength : (memory (p + 1)).toNat ≠ 0 := fun hzero => h.2 (BitVec.eq_of_toNat_eq hzero)
  omega

section Walk

variable (visit : Nat → σ → Logged Span σ) {p stop : Nat} (fuel : Nat) (s : σ)

/-- A round of the walk that visits a record. -/
theorem walkRecords_visit (h : p + 2 ≤ stop ∧ memory (p + 1) ≠ 0) :
    walkRecords visit memory stop (fuel + 1) p s = (do
      let _ ← memory.readByte (p + 1)
      let s ← visit p s
      walkRecords visit memory stop fuel (p + (memory (p + 1)).toNat) s) := by
  rw [walkRecords, if_pos h.1]
  show (memory.readByte (p + 1) >>= fun _ => if memory (p + 1) = 0 then _ else _) = _
  rw [if_neg h.2]
  rfl

/-- The last round of the walk reads at most the length of a record. -/
theorem walkRecords_end (h : ¬ (p + 2 ≤ stop ∧ memory (p + 1) ≠ 0)) :
    walkRecords visit memory stop (fuel + 1) p s =
      if p + 2 ≤ stop then memory.readByte (p + 1) >>= fun _ => pure (some s)
      else pure (some s) := by
  rw [walkRecords]
  by_cases hheader : p + 2 ≤ stop
  · have hzero : memory (p + 1) = 0 := by_contra fun hne => h ⟨hheader, hne⟩
    rw [if_pos hheader, if_pos hheader]
    show (memory.readByte (p + 1) >>= fun _ => if memory (p + 1) = 0 then _ else _) = _
    rw [if_pos hzero]
  · rw [if_neg hheader, if_neg hheader]

variable {fuel}

/-- Every round goes on by at least one byte, so with as many rounds as there are bytes the walk is
a loop over the places of the records. -/
theorem walkRecords_value (hfuel : stop - p < fuel) :
    (walkRecords visit memory stop fuel p s).value =
      some ((recordStarts memory p stop).foldl (fun s p => (visit p s).value) s) := by
  induction fuel generalizing p s with
  | zero => omega
  | succ fuel ih =>
      rw [recordStarts]
      by_cases hvisit : p + 2 ≤ stop ∧ memory (p + 1) ≠ 0
      · have hlength : (memory (p + 1)).toNat ≠ 0 :=
          fun hzero => hvisit.2 (BitVec.eq_of_toNat_eq hzero)
        rw [walkRecords_visit visit fuel s hvisit, value_bind, value_bind, ih _ (by omega),
          if_pos hvisit, List.foldl_cons]
      · rw [walkRecords_end visit fuel s hvisit, if_neg hvisit, List.foldl_nil, apply_ite value]
        exact ite_self _

end Walk

/-- On the bytes of a list of records the places are those where the records stand. -/
theorem recordStarts_serialise (address : Nat) (records : List Record)
    (h : memory.Holds address (serialise records)) :
    recordStarts memory address (address + (serialise records).length) =
      (placed address records).map Prod.fst := by
  induction records generalizing address with
  | nil =>
      rw [recordStarts, if_neg (by simp)]
      rfl
  | cons record records ih =>
      rw [serialise_cons, holds_append] at h
      obtain ⟨hrecord, hrest⟩ := h
      have hlength : memory (address + 1) = BitVec.ofNat 8 record.size := hrecord.2.1
      have hheader : address + 2 ≤ address + (record.bytes ++ serialise records).length := by
        rw [List.length_append, length_bytes, size]
        omega
      have hstop : address + (record.bytes ++ serialise records).length =
          address + record.size + (serialise records).length := by
        rw [List.length_append, length_bytes]
        omega
      rw [length_bytes] at hrest
      rw [serialise_cons, recordStarts, if_pos ⟨hheader, hlength ▸ record.size_byte_ne_zero⟩,
        hlength, record.toNat_size, hstop, ih _ hrest]
      rfl

/-! ## Collecting into an array of fixed capacity -/

/-- Writing the first unused cell of an array adds its value to the used cells. -/
theorem take_set_used {α : Type*} {n : Nat} (cells : Vector α n) (used : Nat) (h : used < n)
    (value : α) :
    (cells.set used value h).toList.take (used + 1) = cells.toList.take used ++ [value] := by
  have hbefore : (cells.set used value h).toList.take used = cells.toList.take used := by
    rw [Vector.toList_set, List.take_set, List.set_eq_of_length_le (by simp)]
  rw [List.take_add_one, hbefore]
  simp [h]

/-- A guarded write to the first unused cell: the value is added if it is wanted and if there is
room. -/
structure GuardedSet {α : Type*} {n : Nat} (cells : Vector α n) (used : Nat) (wanted : Prop)
    (value : α) (cells' : Vector α n) (used' : Nat) : Prop where
  add : ∀ h : wanted ∧ used < n, cells' = cells.set used value h.2 ∧ used' = used + 1
  skip : ¬ (wanted ∧ used < n) → cells' = cells ∧ used' = used

namespace GuardedSet

variable {α : Type*} {n : Nat} {cells cells' : Vector α n} {used used' : Nat} {wanted : Prop}
  [Decidable wanted] {value : α}

/-- The number of cells in use after a guarded write. -/
theorem used_eq (hset : GuardedSet cells used wanted value cells' used') :
    used' = if wanted ∧ used < n then used + 1 else used := by
  by_cases h : wanted ∧ used < n
  · rw [if_pos h]
    exact (hset.add h).2
  · rw [if_neg h]
    exact (hset.skip h).2

/-- The write stays within the array. -/
theorem used_le (hset : GuardedSet cells used wanted value cells' used') (hused : used ≤ n) :
    used' ≤ n := by
  rw [hset.used_eq]
  split_ifs with h
  · exact h.2
  · exact hused

/-- The values in use after a guarded write. -/
theorem take_eq (hset : GuardedSet cells used wanted value cells' used') :
    cells'.toList.take used' =
      (cells.toList.take used ++ if wanted then [value] else []).take n := by
  by_cases h : wanted ∧ used < n
  · obtain ⟨hcells, hused⟩ := hset.add h
    have hfits : (cells.toList.take used ++ [value]).length ≤ n := by
      simp only [List.length_append, List.length_take, List.length_singleton]
      omega
    rw [hcells, hused, take_set_used _ _ h.2, if_pos h.1, List.take_of_length_le hfits]
  · obtain ⟨hcells, hused⟩ := hset.skip h
    rw [hcells, hused]
    by_cases hwanted : wanted
    · have hfull : n ≤ used := Nat.not_lt.1 fun hroom => h ⟨hwanted, hroom⟩
      have hall : cells.toList.take used = cells.toList :=
        List.take_of_length_le (by simpa using hfull)
      rw [hall, List.take_append_of_le_length (by simp), List.take_of_length_le (by simp)]
    · have hfits : (cells.toList.take used).length ≤ n := by simp
      rw [if_neg hwanted, List.append_nil, List.take_of_length_le hfits]

end GuardedSet

/-- Cutting a list early does not change the first elements. -/
theorem take_take_append {α : Type*} (n : Nat) (xs ys : List α) :
    (xs.take n ++ ys).take n = (xs ++ ys).take n := by
  by_cases hlong : n ≤ xs.length
  · rw [List.take_append_of_le_length (by simpa using hlong), List.take_take, Nat.min_self,
      List.take_append_of_le_length hlong]
  · have hshort : xs.take n = xs := List.take_of_length_le (by omega)
    rw [hshort]

/-- A loop whose every step adds at most one value to a view of bounded length collects the
first values that fit. -/
theorem foldl_collect {α β : Type*} (view : σ → List β) (capacity : Nat) (step : σ → α → σ)
    (value : α → Option β) (items : List α) (s : σ)
    (hstep : ∀ s, ∀ a ∈ items, view (step s a) = (view s ++ (value a).toList).take capacity)
    (hs : (view s).length ≤ capacity) :
    view (items.foldl step s) = (view s ++ items.filterMap value).take capacity := by
  induction items generalizing s with
  | nil => rw [List.foldl_nil, List.filterMap_nil, List.append_nil, List.take_of_length_le hs]
  | cons item items ih =>
      have hfirst := hstep s item List.mem_cons_self
      have hshort : (view (step s item)).length ≤ capacity := by
        rw [hfirst, List.length_take]
        exact Nat.min_le_left _ _
      have hvalues : (item :: items).filterMap value =
          (value item).toList ++ items.filterMap value := by
        cases hvalue : value item with
        | none => rw [List.filterMap_cons_none hvalue, Option.toList_none, List.nil_append]
        | some b => rw [List.filterMap_cons_some hvalue, Option.toList_some, List.singleton_append]
      rw [List.foldl_cons, ih _ (fun s a ha => hstep s a (List.mem_cons_of_mem _ ha)) hshort,
        hfirst, take_take_append, hvalues, List.append_assoc]

/-- What holds of the wanted elements that a loop still has room for, one element at a time. The
counter goes up with every wanted element until the capacity is reached. -/
theorem forall_kept_cons {α : Type*} {capacity count count' : Nat} {wanted : α → Bool}
    {Q : α → Prop} {a : α} {as : List α}
    (hcount : count' = if wanted a = true ∧ count < capacity then count + 1 else count) :
    (∀ b ∈ ((a :: as).filter wanted).take (capacity - count), Q b) ↔
      (wanted a = true ∧ count < capacity → Q a) ∧
        ∀ b ∈ (as.filter wanted).take (capacity - count'), Q b := by
  by_cases hwanted : wanted a = true
  · rw [List.filter_cons_of_pos hwanted]
    by_cases hroom : count < capacity
    · have hleft : capacity - count = capacity - count' + 1 := by
        rw [hcount, if_pos ⟨hwanted, hroom⟩]
        omega
      rw [hleft, List.take_succ_cons, List.forall_mem_cons]
      exact and_congr_left fun _ => (imp_iff_right ⟨hwanted, hroom⟩).symm
    · have hfull : capacity - count = 0 := by omega
      rw [hcount, if_neg fun h => hroom h.2, hfull, List.take_zero, List.take_zero]
      exact (and_iff_right fun h => absurd h.2 hroom).symm
  · rw [List.filter_cons_of_neg hwanted, hcount, if_neg fun h => hwanted h.1]
    exact (and_iff_right fun h => absurd h.1 hwanted).symm

end HailOS.Lib
