import HailOS.Lib.ByteMemory

/-!
# Four-level page walks

The address translation of a 64-bit x86 processor with four-level paging. An entry is present if
bit 0 is set, writable if bit 1 is, and in the two middle levels bit 7 makes it a leaf that maps
1 GiB or 2 MiB. A set bit 7 in the top level and stray low address bits in a large leaf are
reserved. `walk` reads the entries from a byte memory, starting at the table in `cr3`.

Each level has a lemma that says when the walk finds a non-present entry there, and
`virtualAddress` builds a canonical address with given table indices.
-/

namespace HailOS.Lib.PageWalk

/-- The present bit. -/
def present (entry : BitVec 64) : Bool := entry.getLsbD 0

/-- The write bit. -/
def writable (entry : BitVec 64) : Bool := entry.getLsbD 1

/-- The write-through bit. -/
def writeThrough (entry : BitVec 64) : Bool := entry.getLsbD 3

/-- The cache-disable bit. -/
def cacheDisable (entry : BitVec 64) : Bool := entry.getLsbD 4

/-- The page-size bit. -/
def large (entry : BitVec 64) : Bool := entry.getLsbD 7

/-- The physical address in bits `k` to 51 of an entry. -/
def frame (k : Nat) (entry : BitVec 64) : Nat := entry.toNat / 2 ^ k % 2 ^ (52 - k) * 2 ^ k

/-- The size of the page a leaf maps. -/
inductive LeafSize where
  | kib4
  | mib2
  | gib1
  deriving DecidableEq, Repr

/-- The outcome of a walk. -/
inductive Translation where
  | notPresent
  | reserved
  | mapped (physical : Nat) (writable : Bool) (size : LeafSize)
  deriving DecidableEq, Repr

/-- Entry `index` of the table at `table`. -/
def entryAt (memory : Memory) (table index : Nat) : BitVec 64 :=
  Memory.load64 memory (table + 8 * index)

/-- The table index of a virtual address that starts at bit `k`. -/
def tableIndex (k v : Nat) : Nat := v / 2 ^ k % 512

/-- A large leaf for pages of `2 ^ k` bytes. -/
def largeLeaf (k : Nat) (size : LeafSize) (entry : BitVec 64) (v : Nat) (mayWrite : Bool) :
    Translation :=
  if entry.toNat / 2 ^ 13 % 2 ^ (k - 13) ≠ 0 then .reserved
  else .mapped (frame k entry + v % 2 ^ k) (mayWrite && writable entry) size

/-- One level above the last: a present entry is a leaf or leads on to the next table. -/
def descend (entry : BitVec 64) (leaf next : Translation) : Translation :=
  if present entry = false then .notPresent else if large entry then leaf else next

/-- The last level: entries map 4 KiB. -/
def walkPt (memory : Memory) (table v : Nat) (mayWrite : Bool) : Translation :=
  let entry := entryAt memory table (tableIndex 12 v)
  if present entry = false then .notPresent
  else .mapped (frame 12 entry + v % 2 ^ 12) (mayWrite && writable entry) .kib4

/-- The third level: entries map 2 MiB or point to a page table. -/
def walkPd (memory : Memory) (table v : Nat) (mayWrite : Bool) : Translation :=
  let entry := entryAt memory table (tableIndex 21 v)
  descend entry (largeLeaf 21 .mib2 entry v mayWrite)
    (walkPt memory (frame 12 entry) v (mayWrite && writable entry))

/-- The second level: entries map 1 GiB or point to a page directory. -/
def walkPdpt (memory : Memory) (table v : Nat) (mayWrite : Bool) : Translation :=
  let entry := entryAt memory table (tableIndex 30 v)
  descend entry (largeLeaf 30 .gib1 entry v mayWrite)
    (walkPd memory (frame 12 entry) v (mayWrite && writable entry))

/-- The walk from `cr3`. There is no leaf in the first level. -/
def walk (memory : Memory) (cr3 : BitVec 64) (v : Nat) : Translation :=
  let entry := entryAt memory (frame 12 cr3) (tableIndex 39 v)
  descend entry .reserved (walkPdpt memory (frame 12 entry) v (writable entry))

/-- Bits 47 to 63 of a canonical address agree. -/
def Canonical (v : Nat) : Prop := v < 2 ^ 47 ∨ (2 ^ 64 - 2 ^ 47 ≤ v ∧ v < 2 ^ 64)

/-! ## Entries -/

/-- A bit of an entry as a digit of its value. -/
theorem getLsbD_eq_digit (entry : BitVec 64) (i : Nat) :
    entry.getLsbD i = decide (entry.toNat / 2 ^ i % 2 = 1) := by
  rw [BitVec.getLsbD, Nat.testBit_eq_decide_div_mod_eq]

theorem present_iff {entry : BitVec 64} : present entry = true ↔ entry.toNat % 2 = 1 := by
  rw [present, getLsbD_eq_digit, decide_eq_true_iff, Nat.pow_zero, Nat.div_one]

theorem writable_iff {entry : BitVec 64} :
    writable entry = true ↔ entry.toNat / 2 % 2 = 1 := by
  rw [writable, getLsbD_eq_digit, decide_eq_true_iff, Nat.pow_one]

theorem large_iff {entry : BitVec 64} : large entry = true ↔ entry.toNat / 128 % 2 = 1 := by
  rw [large, getLsbD_eq_digit, decide_eq_true_iff, show 2 ^ 7 = 128 from rfl]

theorem dvd_frame (entry : BitVec 64) : 4096 ∣ frame 12 entry := ⟨_, Nat.mul_comm _ _⟩

theorem tableIndex_lt (k v : Nat) : tableIndex k v < 512 := Nat.mod_lt _ (by omega)

/-! ## Where a walk ends -/

theorem largeLeaf_ne {k : Nat} {size : LeafSize} {entry : BitVec 64} {v : Nat}
    {mayWrite : Bool} : largeLeaf k size entry v mayWrite ≠ .notPresent := by
  unfold largeLeaf
  split <;> simp

theorem descend_notPresent_iff {entry : BitVec 64} {leaf next : Translation}
    (hleaf : leaf ≠ .notPresent) :
    descend entry leaf next = .notPresent ↔
      present entry = false ∨ (large entry = false ∧ next = .notPresent) := by
  unfold descend
  cases hpresent : present entry <;> cases hlarge : large entry <;> simp [hleaf]

theorem descend_next {entry : BitVec 64} {leaf next : Translation}
    (hpresent : present entry = true) (hlarge : large entry = false) :
    descend entry leaf next = next := by
  simp [descend, hpresent, hlarge]

theorem descend_leaf {entry : BitVec 64} {leaf next : Translation}
    (hpresent : present entry = true) (hlarge : large entry = true) :
    descend entry leaf next = leaf := by
  simp [descend, hpresent, hlarge]

variable {memory : Memory} {table v : Nat} {mayWrite : Bool}

theorem walkPt_notPresent_iff :
    walkPt memory table v mayWrite = .notPresent ↔
      present (entryAt memory table (tableIndex 12 v)) = false := by
  simp only [walkPt]
  split
  · next h => simp [h]
  · next h => simp [h]

theorem walkPd_notPresent_iff :
    walkPd memory table v mayWrite = .notPresent ↔
      present (entryAt memory table (tableIndex 21 v)) = false ∨
        (large (entryAt memory table (tableIndex 21 v)) = false ∧
          present (entryAt memory (frame 12 (entryAt memory table (tableIndex 21 v)))
            (tableIndex 12 v)) = false) := by
  rw [walkPd, descend_notPresent_iff largeLeaf_ne, walkPt_notPresent_iff]

theorem walkPdpt_notPresent_iff :
    walkPdpt memory table v mayWrite = .notPresent ↔
      present (entryAt memory table (tableIndex 30 v)) = false ∨
        (large (entryAt memory table (tableIndex 30 v)) = false ∧
          walkPd memory (frame 12 (entryAt memory table (tableIndex 30 v))) v
            (mayWrite && writable (entryAt memory table (tableIndex 30 v))) = .notPresent) :=
  descend_notPresent_iff largeLeaf_ne

theorem walk_notPresent_iff {cr3 : BitVec 64} :
    walk memory cr3 v = .notPresent ↔
      present (entryAt memory (frame 12 cr3) (tableIndex 39 v)) = false ∨
        (large (entryAt memory (frame 12 cr3) (tableIndex 39 v)) = false ∧
          walkPdpt memory (frame 12 (entryAt memory (frame 12 cr3) (tableIndex 39 v))) v
            (writable (entryAt memory (frame 12 cr3) (tableIndex 39 v))) = .notPresent) :=
  descend_notPresent_iff (by simp)

/-- The walk down to the page directory, with the entries on the way. -/
theorem walk_eq_walkPd {cr3 e₄ e₃ : BitVec 64}
    (h₄ : entryAt memory (frame 12 cr3) (tableIndex 39 v) = e₄)
    (h₃ : entryAt memory (frame 12 e₄) (tableIndex 30 v) = e₃)
    (hpresent₄ : present e₄ = true) (hlarge₄ : large e₄ = false)
    (hpresent₃ : present e₃ = true) (hlarge₃ : large e₃ = false) :
    walk memory cr3 v = walkPd memory (frame 12 e₃) v (writable e₄ && writable e₃) := by
  rw [walk, h₄, descend_next hpresent₄ hlarge₄, walkPdpt, h₃, descend_next hpresent₃ hlarge₃]

/-- The last byte of the 4 KiB page with the given table indices, in canonical form. -/
def virtualAddress (i₄ i₃ i₂ i₁ : Nat) : Nat :=
  (if i₄ < 256 then 0 else 2 ^ 64 - 2 ^ 48) + i₄ * 2 ^ 39 + i₃ * 2 ^ 30 + i₂ * 2 ^ 21 +
    i₁ * 2 ^ 12 + 4095

/-- The last address of all. -/
theorem virtualAddress_last : virtualAddress 511 511 511 511 = 2 ^ 64 - 1 := by
  rw [virtualAddress, if_neg (by omega)]
  omega

section VirtualAddress

variable {i₄ i₃ i₂ i₁ : Nat} (h₄ : i₄ < 512) (h₃ : i₃ < 512) (h₂ : i₂ < 512) (h₁ : i₁ < 512)

include h₄ h₃ h₂ h₁

theorem virtualAddress_canonical : Canonical (virtualAddress i₄ i₃ i₂ i₁) := by
  unfold Canonical virtualAddress
  split <;> omega

theorem tableIndex_virtualAddress :
    tableIndex 39 (virtualAddress i₄ i₃ i₂ i₁) = i₄ ∧
      tableIndex 30 (virtualAddress i₄ i₃ i₂ i₁) = i₃ ∧
      tableIndex 21 (virtualAddress i₄ i₃ i₂ i₁) = i₂ ∧
      tableIndex 12 (virtualAddress i₄ i₃ i₂ i₁) = i₁ := by
  unfold tableIndex virtualAddress
  split <;> omega

end VirtualAddress

end HailOS.Lib.PageWalk
