import HailOS.Lib.Records
import HailOS.Memory.Bit

/-!
# The system description tables

`FindTable` follows the RSDP to the XSDT, or to the RSDT on old firmware, and returns the first
listed table with a given signature. Every structure is read from physical memory, which ends
far below `2 ^ 64`, so pointer arithmetic does not wrap. The search is run with a log of the entries
it reads, and `findTable` is the address it returns.

The RSDT branch adds `sizeof(SDTHeader)` to an `SDTHeader` pointer and so starts to read 36
headers behind the table instead of one. `rsdt_agrees_xsdt_iff` says when the two branches agree
all the same.
-/

namespace HailOS.ACPI

open Lib Kernel Logged

/-- A C string, without the NUL that ends it. -/
abbrev CString := List (BitVec 8)

/-- `StringLength`: the number of characters before the first NUL. -/
def stringLength : CString → Nat
  | [] => 0
  | ch :: str => if ch = 0 then 0 else stringLength str + 1

/-- `CheckSigEq`: the first `length` characters at `sig1` and in `sig2` are the same. -/
def checkSigEq (memory : Memory) (sig1 : Nat) (sig2 : CString) (length : Nat) : Bool :=
  (List.range length).all fun i => memory (sig1 + i) == sig2.getD i 0

/-- `sizeof(SDTHeader)`. -/
def sdtHeaderSize : Nat := 36

/-- The field `Length` of the `SDTHeader` at `header`. -/
def SDTHeader.length (memory : Memory) (header : Nat) : Nat := memory.load 4 (header + 4)

/-- The field `Revision` of the `RSDPtr` at `rsdp`. -/
def RSDPtr.revision (memory : Memory) (rsdp : Nat) : Nat := memory.load 1 (rsdp + 15)

/-- The field `RSDTAddress`. -/
def RSDPtr.rsdtAddress (memory : Memory) (rsdp : Nat) : Nat := memory.load 4 (rsdp + 16)

/-- The field `XSDTAddress`. -/
def RSDPtr.xsdtAddress (memory : Memory) (rsdp : Nat) : Nat := memory.load 8 (rsdp + 24)

/-- A listed address is the table that is looked for: it is not null and the signature there is
the one given. -/
def isTable (memory : Memory) (sig : CString) (h : Nat) : Bool :=
  h != 0 && checkSigEq memory h sig (stringLength sig)

/-- Whether an address is the table depends only on the bytes of the signature there. -/
theorem isTable_congr {memory memory' : Memory} {sig : CString} {h : Nat}
    (hsame : ∀ i < stringLength sig, memory' (h + i) = memory (h + i)) :
    isTable memory' sig h = isTable memory sig h := by
  have hsig : checkSigEq memory' h sig (stringLength sig) =
      checkSigEq memory h sig (stringLength sig) := by
    rw [checkSigEq, checkSigEq, Bool.eq_iff_iff, List.all_eq_true, List.all_eq_true]
    refine forall₂_congr fun i hi => ?_
    rw [hsame i (List.mem_range.1 hi)]
  rw [isTable, isTable, hsig]

/-- The loop of `FindTable` over the `n` entries of `width` bytes from `entry` on. -/
def searchEntriesLogged (memory : Memory) (sig : CString) (width : Nat) :
    Nat → Nat → Logged Span Nat
  | _, 0 => pure 0
  | entry, n + 1 => do
      let h ← memory.read width entry
      if isTable memory sig h then pure h
      else searchEntriesLogged memory sig width (entry + width) n

/-- The number of entries of `width` bytes that a table of `length` bytes lists: the subtraction
is one of `std::size_t`, and the result is cut to `std::uint32_t`. -/
def entryCount (length width : Nat) : Nat :=
  wrap64 (length + 2 ^ 64 - sdtHeaderSize) / width % 2 ^ 32

/-- `FindTable`, with a log of the entries it reads. -/
def findTableLogged (memory : Memory) (rsdp : Nat) (sig : Option CString) : Logged Span Nat :=
  match sig with
  | none => pure 0
  | some sig =>
      if rsdp = 0 then pure 0
      else if 2 ≤ RSDPtr.revision memory rsdp then
        let xsdt := RSDPtr.xsdtAddress memory rsdp
        if xsdt = 0 then pure 0
        else
          searchEntriesLogged memory sig 8 (xsdt + sdtHeaderSize)
            (entryCount (SDTHeader.length memory xsdt) 8)
      else
        let rsdt := RSDPtr.rsdtAddress memory rsdp
        if rsdt = 0 then pure 0
        else
          -- `rsdt + sizeof(SDTHeader)` counts in headers, not in bytes
          searchEntriesLogged memory sig 4 (rsdt + sdtHeaderSize * sdtHeaderSize)
            (entryCount (SDTHeader.length memory rsdt) 4)

/-- `FindTable`: the first listed table with signature `sig`, or null. -/
def findTable (memory : Memory) (rsdp : Nat) (sig : Option CString) : Nat :=
  (findTableLogged memory rsdp sig).value

/-! ## Lists of tables -/

/-- The `n` addresses of `width` bytes each that stand from `address` on. -/
def tableWords (memory : Memory) (width address n : Nat) : List Nat :=
  (List.range n).map fun i => memory.load width (address + width * i)

/-- The table at `table` lists the addresses `tables` in entries of `width` bytes. -/
structure ListsTables (memory : Memory) (table width : Nat) (tables : List Nat) : Prop where
  nonnull : table ≠ 0
  length : SDTHeader.length memory table = sdtHeaderSize + width * tables.length
  entries : tableWords memory width (table + sdtHeaderSize) tables.length = tables

/-- The `RSDPtr` at `rsdp` is one of the old firmware that points to the RSDT at `rsdt`. -/
structure PointsToRSDT (memory : Memory) (rsdp rsdt : Nat) : Prop where
  nonnull : rsdp ≠ 0
  revision : RSDPtr.revision memory rsdp < 2
  address : RSDPtr.rsdtAddress memory rsdp = rsdt

/-- The `RSDPtr` at `rsdp` points to the XSDT at `xsdt`. -/
structure PointsToXSDT (memory : Memory) (rsdp xsdt : Nat) : Prop where
  nonnull : rsdp ≠ 0
  revision : 2 ≤ RSDPtr.revision memory rsdp
  address : RSDPtr.xsdtAddress memory rsdp = xsdt

section Search

variable {memory : Memory} {sig : CString}

/-- The addresses of one entry more. -/
theorem tableWords_succ (memory : Memory) (width address n : Nat) :
    tableWords memory width address (n + 1) =
      memory.load width address :: tableWords memory width (address + width) n := by
  rw [tableWords, List.range_succ_eq_map, List.map_cons, List.map_map, tableWords]
  congr 1
  apply List.map_congr_left
  intro i _
  have hentry : address + width * (i + 1) = address + width + width * i := by ring
  simp only [Function.comp, hentry]

/-- The loop returns the first entry that is the table, or null. -/
theorem searchEntries_eq (width entry n : Nat) :
    (searchEntriesLogged memory sig width entry n).value =
      ((tableWords memory width entry n).find? (isTable memory sig)).getD 0 := by
  induction n generalizing entry with
  | zero => rfl
  | succ n ih =>
      rw [searchEntriesLogged, value_bind, Memory.read, value_access, tableWords_succ]
      cases hfound : isTable memory sig (memory.load width entry) with
      | true => rw [if_pos rfl, value_pure, List.find?_cons_of_pos hfound, Option.getD_some]
      | false => rw [if_neg (by simp), List.find?_cons_of_neg (by simp [hfound]), ih]

/-- A found table is not null. -/
theorem ne_zero_of_find? {tables : List Nat} {t : Nat}
    (h : tables.find? (isTable memory sig) = some t) : t ≠ 0 := by
  intro hzero
  have hfound := List.find?_some h
  rw [hzero] at hfound
  simp [isTable] at hfound

/-- Two searches return the same pointer exactly if they find the same table. -/
theorem getD_find?_eq_iff (tables tables' : List Nat) :
    (tables.find? (isTable memory sig)).getD 0 = (tables'.find? (isTable memory sig)).getD 0 ↔
      tables.find? (isTable memory sig) = tables'.find? (isTable memory sig) := by
  refine ⟨fun h => ?_, fun h => by rw [h]⟩
  cases hleft : tables.find? (isTable memory sig) with
  | none =>
      cases hright : tables'.find? (isTable memory sig) with
      | none => rfl
      | some t' =>
          rw [hleft, hright] at h
          exact absurd h.symm (ne_zero_of_find? hright)
  | some t =>
      cases hright : tables'.find? (isTable memory sig) with
      | none =>
          rw [hleft, hright] at h
          exact absurd h (ne_zero_of_find? hleft)
      | some t' =>
          rw [hleft, hright] at h
          exact congrArg some h

/-- A table that lists `n` addresses is read as `n` entries. -/
theorem entryCount_eq {width n : Nat} (hwidth : 0 < width)
    (h : sdtHeaderSize + width * n < 2 ^ 32) :
    entryCount (sdtHeaderSize + width * n) width = n := by
  have hn : n ≤ width * n := Nat.le_mul_of_pos_left n hwidth
  have hlength : wrap64 (sdtHeaderSize + width * n + 2 ^ 64 - sdtHeaderSize) = width * n := by
    rw [wrap64]
    omega
  rw [entryCount, hlength, Nat.mul_div_cancel_left _ hwidth]
  exact Nat.mod_eq_of_lt (by omega)

theorem ListsTables.entryCount {table width : Nat} {tables : List Nat}
    (h : ListsTables memory table width tables) (hwidth : 0 < width) :
    entryCount (SDTHeader.length memory table) width = tables.length := by
  have hfits : SDTHeader.length memory table < 2 ^ 32 := Memory.load_lt 4 memory (table + 4)
  rw [h.length] at hfits ⊢
  exact entryCount_eq hwidth hfits

/-- Through an XSDT, `FindTable` returns the first listed table with the signature. -/
theorem findTable_xsdt {rsdp xsdt : Nat} {tables : List Nat}
    (hrsdp : PointsToXSDT memory rsdp xsdt) (hxsdt : ListsTables memory xsdt 8 tables) :
    findTable memory rsdp (some sig) = (tables.find? (isTable memory sig)).getD 0 := by
  simp only [findTable, findTableLogged, if_neg hrsdp.nonnull, if_pos hrsdp.revision, hrsdp.address,
    if_neg hxsdt.nonnull, hxsdt.entryCount (by omega), searchEntries_eq, hxsdt.entries]

/-- Through an RSDT, `FindTable` searches as many words from offset 1296 of the table on. -/
theorem findTable_rsdt {rsdp rsdt : Nat} {tables : List Nat}
    (hrsdp : PointsToRSDT memory rsdp rsdt) (hrsdt : ListsTables memory rsdt 4 tables) :
    findTable memory rsdp (some sig) =
      ((tableWords memory 4 (rsdt + 1296) tables.length).find? (isTable memory sig)).getD 0 := by
  have hold : ¬ 2 ≤ RSDPtr.revision memory rsdp := Nat.not_le.2 hrsdp.revision
  simp only [findTable, findTableLogged, if_neg hrsdp.nonnull, if_neg hold, hrsdp.address,
    if_neg hrsdt.nonnull, hrsdt.entryCount (by omega), searchEntries_eq]
  rfl

/-- The RSDT and the XSDT list the same addresses. The two lookups agree exactly if the words
that stand from offset 1296 of the RSDT on lead to the same table as the listed addresses. -/
theorem rsdt_agrees_xsdt_iff {rsdpOld rsdpNew rsdt xsdt : Nat} {tables : List Nat}
    (hold : PointsToRSDT memory rsdpOld rsdt) (hrsdt : ListsTables memory rsdt 4 tables)
    (hnew : PointsToXSDT memory rsdpNew xsdt) (hxsdt : ListsTables memory xsdt 8 tables) :
    findTable memory rsdpOld (some sig) = findTable memory rsdpNew (some sig) ↔
      (tableWords memory 4 (rsdt + 1296) tables.length).find? (isTable memory sig) =
        tables.find? (isTable memory sig) := by
  rw [findTable_rsdt hold hrsdt, findTable_xsdt hnew hxsdt]
  exact getD_find?_eq_iff _ _

end Search

/-- Write the fields of firmware structures, given as width, address and value, into a memory of
zero bytes. -/
def firmwareImage (fields : List (Nat × Nat × Nat)) : Memory :=
  fields.foldl (fun memory field => memory.store field.1 field.2.1 field.2.2) fun _ => 0

/-- The characters `FACP`. -/
def facpSignature : CString := [0x46, 0x41, 0x43, 0x50]

/-- An old RSDP at 256 with its RSDT at 512, and a new one at 320 with its XSDT at 768. Both
tables list the one table `FACP` at 1024. -/
def facpImage : Memory :=
  firmwareImage [(4, 256 + 16, 512), (1, 320 + 15, 2), (8, 320 + 24, 768),
    (4, 512 + 4, 40), (4, 512 + 36, 1024), (4, 768 + 4, 44), (8, 768 + 36, 1024),
    (4, 1024, 0x50434146)]

theorem facpImage_old : PointsToRSDT facpImage 256 512 where
  nonnull := by omega
  revision := by decide
  address := rfl

theorem facpImage_new : PointsToXSDT facpImage 320 768 where
  nonnull := by omega
  revision := by decide
  address := rfl

theorem facpImage_rsdt : ListsTables facpImage 512 4 [1024] where
  nonnull := by omega
  length := rfl
  entries := rfl

theorem facpImage_xsdt : ListsTables facpImage 768 8 [1024] where
  nonnull := by omega
  length := rfl
  entries := rfl

/-- The address of the table `FACP` stands also where the lookup through the RSDT reads. -/
def facpTwiceImage : Memory := facpImage.store 4 (512 + 1296) 1024

/-- Where the address is repeated, both lookups find the table. For a table that is not listed, both
return null. -/
theorem rsdt_agrees_xsdt_twice :
    findTable facpTwiceImage 256 (some facpSignature) = 1024 ∧
      findTable facpTwiceImage 320 (some facpSignature) = 1024 ∧
      findTable facpImage 256 (some [0x53, 0x53, 0x44, 0x54]) =
        findTable facpImage 320 (some [0x53, 0x53, 0x44, 0x54]) := by
  have hxsdt : ListsTables facpTwiceImage 768 8 [1024] := ⟨by omega, rfl, rfl⟩
  have hnew : PointsToXSDT facpTwiceImage 320 768 := ⟨by omega, by decide, rfl⟩
  have hfound : findTable facpTwiceImage 320 (some facpSignature) = 1024 := by
    rw [findTable_xsdt hnew hxsdt]
    rfl
  have hagree := (@rsdt_agrees_xsdt_iff facpTwiceImage facpSignature 256 320 512 768 [1024]
    ⟨by omega, by decide, rfl⟩ ⟨by omega, rfl, rfl⟩ hnew hxsdt).2 rfl
  exact ⟨hagree.trans hfound, hfound,
    (rsdt_agrees_xsdt_iff facpImage_old facpImage_rsdt facpImage_new facpImage_xsdt).2 rfl⟩

/-- Both tables list the table `FACP` at 1024, but only the lookup through the XSDT finds it. -/
theorem rsdt_misses_listed_table :
    PointsToRSDT facpImage 256 512 ∧ ListsTables facpImage 512 4 [1024] ∧
      PointsToXSDT facpImage 320 768 ∧ ListsTables facpImage 768 8 [1024] ∧
      facpSignature.length = 4 ∧ findTable facpImage 256 (some facpSignature) = 0 ∧
      findTable facpImage 320 (some facpSignature) = 1024 := by
  refine ⟨facpImage_old, facpImage_rsdt, facpImage_new, facpImage_xsdt, rfl, ?_, ?_⟩
  · rw [findTable_rsdt facpImage_old facpImage_rsdt]
    rfl
  · rw [findTable_xsdt facpImage_new facpImage_xsdt]
    rfl

end HailOS.ACPI
