import Mathlib.Algebra.Group.Nat.Defs
import Mathlib.Data.List.Basic

/-!
# Texts

Three ways to write something down, each with the function that reads it back.

On a terminal line a line feed is sent with a carriage return before it. `withReturns` puts the
carriage returns in, and `withoutReturns_withReturns` says that a text gets through, whatever
characters it has.

A record is written as lines that begin with a label each. `readField_joinLines` says that a field
is found by its label, if no other label begins with it or the other way round.

A number is written with a fixed number of digits, the highest first (`readDigits_topDigits`).
-/

namespace HailOS.Lib

/-! ## Line breaks -/

variable {α : Type} [DecidableEq α] {cr lf : α}

/-- The text with a carriage return before every line feed. -/
def withReturns (cr lf : α) : List α → List α
  | [] => []
  | a :: text =>
      if a = lf then cr :: a :: withReturns cr lf text else a :: withReturns cr lf text

/-- The text without the carriage return before every line feed. -/
def withoutReturns (cr lf : α) : List α → List α
  | [] => []
  | [a] => [a]
  | a :: b :: text =>
      if a = cr ∧ b = lf then b :: withoutReturns cr lf text
      else a :: withoutReturns cr lf (b :: text)

theorem withReturns_append (text text' : List α) :
    withReturns cr lf (text ++ text') = withReturns cr lf text ++ withReturns cr lf text' := by
  induction text with
  | nil => rfl
  | cons a text ih =>
      rw [List.cons_append, withReturns, withReturns, ih]
      split <;> rfl

/-- A line feed is never the first character. -/
theorem head?_withReturns_ne (h : cr ≠ lf) (text : List α) :
    (withReturns cr lf text).head? ≠ some lf := by
  cases text with
  | nil => simp [withReturns]
  | cons a text =>
      rw [withReturns]
      split
      · simpa using h
      · simpa

theorem withoutReturns_cons {a : α} {text : List α} (h : text.head? ≠ some lf) :
    withoutReturns cr lf (a :: text) = a :: withoutReturns cr lf text := by
  cases text with
  | nil => rfl
  | cons b text =>
      rw [withoutReturns, if_neg]
      rintro ⟨-, rfl⟩
      exact h rfl

/-- A text gets through. -/
theorem withoutReturns_withReturns (h : cr ≠ lf) (text : List α) :
    withoutReturns cr lf (withReturns cr lf text) = text := by
  induction text with
  | nil => rfl
  | cons a text ih =>
      rw [withReturns]
      by_cases ha : a = lf
      · rw [if_pos ha, withoutReturns, if_pos ⟨rfl, ha⟩, ih]
      · rw [if_neg ha, withoutReturns_cons (head?_withReturns_ne h text), ih]

/-! ## Labelled lines -/

/-- The text whose lines are the fields, each a value after its label. -/
def joinLines (lf : α) (fields : List (List α × List α)) : List α :=
  [lf].intercalate (fields.map fun field => field.1 ++ field.2)

/-- The rest of the first line that begins with the label. -/
def readField (lf : α) (label text : List α) : Option (List α) :=
  ((text.splitOn lf).find? label.isPrefixOf).map (List.drop label.length)

omit [DecidableEq α] in
/-- All lines but the first follow a line feed. -/
theorem joinLines_cons (field : List α × List α) (fields : List (List α × List α)) :
    joinLines lf (field :: fields) =
      field.1 ++ field.2 ++ fields.flatMap fun field => lf :: (field.1 ++ field.2) := by
  induction fields generalizing field with
  | nil => simp [joinLines, List.intercalate]
  | cons next fields ih =>
      rw [joinLines, List.map_cons, List.map_cons, List.intercalate_cons_cons, List.flatMap_cons,
        List.append_assoc]
      show _ ++ (lf :: joinLines lf (next :: fields)) = _
      rw [ih]
      rfl

/-- Neither label begins with the other. -/
def Incomparable (label label' : List α) : Prop := ¬ label <+: label' ∧ ¬ label' <+: label

instance (label label' : List α) : Decidable (Incomparable label label') :=
  inferInstanceAs (Decidable (_ ∧ _))

theorem splitOn_joinLines {fields : List (List α × List α)} (hne : fields ≠ [])
    (hlines : ∀ field ∈ fields, lf ∉ field.1 ++ field.2) :
    (joinLines lf fields).splitOn lf = fields.map fun field => field.1 ++ field.2 := by
  refine List.splitOn_intercalate lf ?_ (by simpa using hne)
  intro line hline
  obtain ⟨field, hfield, rfl⟩ := List.mem_map.mp hline
  exact hlines field hfield

/-- The first line that begins with a label is the first with that label. -/
theorem find?_label {label : List α} {fields : List (List α × List α)}
    (hlabels : ∀ field ∈ fields, field.1 = label ∨ Incomparable label field.1) :
    ((fields.map fun field => field.1 ++ field.2).find? label.isPrefixOf).map
      (List.drop label.length) = fields.lookup label := by
  induction fields with
  | nil => rfl
  | cons field fields ih =>
      obtain ⟨hfield, hrest⟩ := List.forall_mem_cons.mp hlabels
      rw [List.map_cons, List.find?_cons, List.lookup_cons]
      rcases hfield with rfl | hincomparable
      · have hfound : field.1.isPrefixOf (field.1 ++ field.2) = true :=
          List.isPrefixOf_iff_prefix.mpr (List.prefix_append _ _)
        rw [hfound, beq_self_eq_true]
        exact congrArg some List.drop_left
      · have hpassed : label.isPrefixOf (field.1 ++ field.2) = false := by
          rw [Bool.eq_false_iff]
          intro hprefix
          rcases List.prefix_or_prefix_of_prefix (List.isPrefixOf_iff_prefix.mp hprefix)
            (List.prefix_append field.1 field.2) with h | h
          · exact hincomparable.1 h
          · exact hincomparable.2 h
        have hne : (label == field.1) = false := by
          rw [beq_eq_false_iff_ne]
          rintro rfl
          exact hincomparable.1 (List.prefix_refl _)
        rw [hpassed, hne]
        exact ih hrest

/-- A field is found by its label. -/
theorem readField_joinLines {label : List α} {fields : List (List α × List α)} (hne : fields ≠ [])
    (hlines : ∀ field ∈ fields, lf ∉ field.1 ++ field.2)
    (hlabels : ∀ field ∈ fields, field.1 = label ∨ Incomparable label field.1) :
    readField lf label (joinLines lf fields) = fields.lookup label := by
  rw [readField, splitOn_joinLines hne hlines, find?_label hlabels]

/-! ## Numerals -/

/-- The highest `k` of `total` digits of a number, the highest first. -/
def topDigits (base total k n : ℕ) : List ℕ :=
  (List.range k).map fun i => n / base ^ (total - 1 - i) % base

/-- The number that digits stand for, the highest first. -/
def readDigits (base : ℕ) (digits : List ℕ) : ℕ :=
  digits.foldl (fun n digit => base * n + digit) 0

theorem lt_of_mem_topDigits {base total k n digit : ℕ} (hbase : 0 < base)
    (h : digit ∈ topDigits base total k n) : digit < base := by
  obtain ⟨i, -, rfl⟩ := List.mem_map.mp h
  exact Nat.mod_lt _ hbase

/-- A number is read back from its digits. -/
theorem readDigits_topDigits {base total k n : ℕ} (hk : k ≤ total) (hn : n < base ^ total) :
    readDigits base (topDigits base total k n) = n / base ^ (total - k) := by
  induction k with
  | zero => exact (Nat.div_eq_of_lt hn).symm
  | succ k ih =>
      have hpow : base ^ (total - k) = base ^ (total - (k + 1)) * base := by
        rw [← Nat.pow_succ]
        congr 1
        omega
      have hlast : total - 1 - k = total - (k + 1) := by omega
      rw [topDigits, List.range_succ, List.map_append, readDigits, List.foldl_append]
      show base * readDigits base (topDigits base total k n) + n / base ^ (total - 1 - k) % base = _
      rw [ih (by omega), hpow, hlast, ← Nat.div_div_eq_div_mul, Nat.div_add_mod]

end HailOS.Lib
