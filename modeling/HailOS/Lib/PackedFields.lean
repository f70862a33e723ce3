import HailOS.Lib.ByteMemory

/-!
# Packed structures and scattered bit fields

`joinFields` puts numbers of given widths side by side in one word, the first in the lowest bits.
A slice of the word at the place of a field is the field (`slice_joinFields`), and a number that is
cut into adjacent pieces is the word of its pieces (`joinFields_cons_cuts`). `gather` takes slices
out of a word, which need not be adjacent, and puts them together (`gather_joinFields`).

A packed structure is stored field by field with `storePacked`. Read back as one little-endian
number it is the word of its fields (`load_storePacked`), and no byte outside it changes
(`storePacked_outside`).
-/

namespace HailOS.Lib

/-! ## Words of fields -/

/-- The fields, given as widths in bits and values, side by side from the lowest bit on. -/
def joinFields : List (Nat × Nat) → Nat
  | [] => 0
  | (width, value) :: fields => value % 2 ^ width + 2 ^ width * joinFields fields

/-- The sum of the widths of the fields. -/
def totalWidth : List (Nat × Nat) → Nat
  | [] => 0
  | (width, _) :: fields => width + totalWidth fields

/-- The pieces of `x` from bit `shift` on, of the given widths. -/
def cuts (x : Nat) : Nat → List Nat → List (Nat × Nat)
  | _, [] => []
  | shift, width :: widths => (width, x / 2 ^ shift) :: cuts x (shift + width) widths

/-- Slices of a word, given as positions and widths, put side by side. -/
def gather (word : Nat) (slices : List (Nat × Nat)) : Nat :=
  joinFields (slices.map fun slice => (slice.2, word / 2 ^ slice.1))

theorem joinFields_lt (fields : List (Nat × Nat)) : joinFields fields < 2 ^ totalWidth fields := by
  induction fields with
  | nil => exact Nat.one_pos
  | cons field fields ih =>
      have hfirst : field.2 % 2 ^ field.1 < 2 ^ field.1 := Nat.mod_lt _ (Nat.two_pow_pos _)
      calc field.2 % 2 ^ field.1 + 2 ^ field.1 * joinFields fields
          < 2 ^ field.1 * (joinFields fields + 1) := by
            rw [Nat.mul_add]
            omega
        _ ≤ 2 ^ field.1 * 2 ^ totalWidth fields := Nat.mul_le_mul_left _ ih
        _ = 2 ^ (field.1 + totalWidth fields) := (Nat.pow_add ..).symm

theorem joinFields_append (fields fields' : List (Nat × Nat)) :
    joinFields (fields ++ fields') =
      joinFields fields + 2 ^ totalWidth fields * joinFields fields' := by
  induction fields with
  | nil => simp [joinFields, totalWidth]
  | cons field fields ih =>
      rw [List.cons_append, joinFields, joinFields, totalWidth, ih, Nat.pow_add]
      ring

/-- A field that is itself a word of fields can be written out. -/
theorem joinFields_nested (before inner after : List (Nat × Nat)) :
    joinFields (before ++ (totalWidth inner, joinFields inner) :: after) =
      joinFields (before ++ (inner ++ after)) := by
  rw [joinFields_append, joinFields_append, joinFields, Nat.mod_eq_of_lt (joinFields_lt inner),
    joinFields_append inner]

/-- The place of field `n` in the word: its position and its width. -/
def place (fields : List (Nat × Nat)) (n : Nat) : Nat × Nat :=
  (totalWidth (fields.take n), (fields.getD n (0, 0)).1)

/-- A slice at the place of a field is the field. -/
theorem slice_joinFields (fields : List (Nat × Nat)) (n : Nat) :
    joinFields fields / 2 ^ (place fields n).1 % 2 ^ (place fields n).2 =
      (fields.getD n (0, 0)).2 % 2 ^ (place fields n).2 := by
  induction fields generalizing n with
  | nil => simp [place, Nat.mod_one]
  | cons field fields ih =>
      cases n with
      | zero =>
          show (field.2 % 2 ^ field.1 + 2 ^ field.1 * joinFields fields) / 2 ^ 0 % 2 ^ field.1 = _
          rw [Nat.pow_zero, Nat.div_one, Nat.add_mul_mod_self_left, Nat.mod_mod]
          rfl
      | succ n =>
          have hmod : field.2 % 2 ^ field.1 < 2 ^ field.1 := Nat.mod_lt _ (Nat.two_pow_pos _)
          show (field.2 % 2 ^ field.1 + 2 ^ field.1 * joinFields fields) /
            2 ^ (field.1 + (place fields n).1) % 2 ^ (place fields n).2 = _
          rw [Nat.pow_add, ← Nat.div_div_eq_div_mul,
            Nat.add_mul_div_left _ _ (Nat.two_pow_pos _), Nat.div_eq_of_lt hmod, Nat.zero_add]
          exact ih n

/-- Slices at the places of fields are put together to the word of these fields. -/
theorem gather_joinFields (fields : List (Nat × Nat)) (indices : List Nat) :
    gather (joinFields fields) (indices.map (place fields)) =
      joinFields (indices.map fun n => fields.getD n (0, 0)) := by
  induction indices with
  | nil => rfl
  | cons n indices ih =>
      rw [gather, List.map_cons, List.map_cons, joinFields, slice_joinFields, List.map_cons,
        joinFields]
      exact congrArg (_ + _ * ·) ih

/-- The pieces of a number make up the number. -/
theorem joinFields_cuts (x shift : Nat) (widths : List Nat) :
    joinFields (cuts x shift widths) = x / 2 ^ shift % 2 ^ widths.sum := by
  induction widths generalizing shift with
  | nil => simp [cuts, joinFields, Nat.mod_one]
  | cons width widths ih =>
      rw [cuts, joinFields, ih, List.sum_cons, Nat.pow_add 2 width, Nat.mod_mul,
        Nat.div_div_eq_div_mul, ← Nat.pow_add]

/-- The pieces of a number from its lowest bit on. -/
theorem joinFields_cons_cuts (x width : Nat) (widths : List Nat) :
    joinFields ((width, x) :: cuts x width widths) = x % 2 ^ (width + widths.sum) := by
  rw [joinFields, joinFields_cuts, Nat.pow_add, Nat.mod_mul]

/-- The low bits of a machine word, taken with a mask and a conversion. -/
theorem toNat_masked {w n : Nat} (x : BitVec w) (h : n ≤ w) :
    ((x &&& BitVec.ofNat w (2 ^ n - 1)).setWidth n).toNat = x.toNat % 2 ^ n := by
  have hmask : 2 ^ n - 1 < 2 ^ w :=
    Nat.lt_of_lt_of_le (Nat.sub_lt (Nat.two_pow_pos n) Nat.one_pos)
      (Nat.pow_le_pow_right (by omega) h)
  rw [BitVec.toNat_setWidth, BitVec.toNat_and, BitVec.toNat_ofNat, Nat.mod_eq_of_lt hmask,
    Nat.and_two_pow_sub_one_eq_mod, Nat.mod_mod]

/-- Bits from the middle of a machine word, taken with a shift, a mask and a conversion. -/
theorem toNat_shifted {w n : Nat} (x : BitVec w) (shift : Nat) (h : n ≤ w) :
    (((x >>> shift) &&& BitVec.ofNat w (2 ^ n - 1)).setWidth n).toNat =
      x.toNat / 2 ^ shift % 2 ^ n := by
  rw [toNat_masked _ h, BitVec.toNat_ushiftRight, Nat.shiftRight_eq_div_pow]

/-! ## Packed structures -/

namespace Memory

/-- Store the fields, given as widths in bytes and values, one after the other. -/
def storePacked (memory : Memory) : Nat → List (Nat × Nat) → Memory
  | _, [] => memory
  | address, (width, value) :: fields =>
      storePacked (memory.store width address value) (address + width) fields

variable {memory : Memory}

/-- A load in two parts. -/
theorem load_add (width width' address : Nat) :
    memory.load (width + width') address =
      memory.load width address + 2 ^ (8 * width) * memory.load width' (address + width) := by
  induction width generalizing address with
  | zero => simp [load]
  | succ width ih =>
      rw [Nat.succ_add, load, ih, load, Nat.mul_succ, Nat.pow_add, Nat.add_assoc address,
        Nat.add_comm 1 width]
      ring

/-- Storing a packed structure changes no byte outside it. -/
theorem storePacked_outside {address x : Nat} (fields : List (Nat × Nat))
    (h : x < address ∨ address + totalWidth fields ≤ x) :
    memory.storePacked address fields x = memory x := by
  induction fields generalizing memory address with
  | nil => rfl
  | cons field fields ih =>
      have hrest : x < address ∨ address + (field.1 + totalWidth fields) ≤ x := h
      show (memory.store field.1 address field.2).storePacked (address + field.1) fields x = _
      rw [ih (by omega), store_outside _ _ _ _ (by omega)]

/-- A packed structure reads as the word of its fields. -/
theorem load_storePacked (memory : Memory) (address : Nat) (fields : List (Nat × Nat)) :
    (memory.storePacked address fields).load (totalWidth fields) address =
      joinFields (fields.map fun field => (8 * field.1, field.2)) := by
  induction fields generalizing memory address with
  | nil => rfl
  | cons field fields ih =>
      -- the later fields stand behind the first
      have hkept : ((memory.store field.1 address field.2).storePacked (address + field.1)
          fields).load field.1 address =
            (memory.store field.1 address field.2).load field.1 address :=
        load_congr fun i hi => storePacked_outside fields (by omega)
      have hfirst : (memory.store field.1 address field.2).load field.1 address =
          field.2 % 2 ^ (8 * field.1) := by
        rw [load_store_same, Nat.pow_mul]
      show ((memory.store field.1 address field.2).storePacked (address + field.1) fields).load
        (field.1 + totalWidth fields) address = _
      rw [load_add, hkept, hfirst, ih, List.map_cons, joinFields]

end Memory

end HailOS.Lib
