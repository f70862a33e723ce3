import HailOS.ACPI.Checksum

/-!
# Power off

`ACPIManager::Shutdown`, after `Core/ACPI/ACPIManager.cpp`. It finds the fixed ACPI description
table, chooses the two power management control blocks from it, and writes the sleep command to
them. The table is read with all its fields, whatever length its header declares.

`shutdown_respects_length_iff` says from which declared length on the writes do not depend on the
bytes behind the table.
-/

namespace HailOS.ACPI

open Lib Kernel

/-! ## The fixed ACPI description table -/

/-- `sizeof(FADT)`. -/
def fadtSize : Nat := 244

/-- The field `SMICommandPort` of the `FADT` at `fadt`. -/
def FADT.smiCommandPort (memory : Memory) (fadt : Nat) : Nat := memory.load 4 (fadt + 48)

/-- The field `ACPIEnable`. -/
def FADT.acpiEnable (memory : Memory) (fadt : Nat) : Nat := memory.load 1 (fadt + 52)

/-- The field `PM1aCtrlBlock`. -/
def FADT.pm1aCtrlBlock (memory : Memory) (fadt : Nat) : Nat := memory.load 4 (fadt + 64)

/-- The field `PM1bCtrlBlock`. -/
def FADT.pm1bCtrlBlock (memory : Memory) (fadt : Nat) : Nat := memory.load 4 (fadt + 68)

/-- The address of the field `X_PM1aCtrlBlock`. -/
def FADT.xPM1aCtrlBlock (fadt : Nat) : Nat := fadt + 172

/-- The address of the field `X_PM1bCtrlBlock`. -/
def FADT.xPM1bCtrlBlock (fadt : Nat) : Nat := fadt + 184

/-- The field `AddressSpaceID` of the `GenericAddress` at `register`. -/
def GenericAddress.addressSpaceID (memory : Memory) (register : Nat) : Nat :=
  memory.load 1 register

/-- The field `Address`. -/
def GenericAddress.address (memory : Memory) (register : Nat) : Nat := memory.load 8 (register + 4)

/-! ## The writes -/

/-- A write to a port or to memory. -/
inductive PowerWrite where
  | out8 (port : BitVec 16) (value : BitVec 8)
  | out16 (port : BitVec 16) (value : BitVec 16)
  | memory16 (address : Nat) (value : BitVec 16)
  deriving DecidableEq, Repr

/-- How `Shutdown` goes on after its writes: with the panic in a line of the source, or with the
call of `Sleep`. -/
inductive ShutdownEnd where
  | panic (line : Nat)
  | sleep
  deriving DecidableEq, Repr

/-- `SLP_CMD`. -/
def slpCmd : BitVec 16 := (5#16 <<< 10) ||| (1#16 <<< 13)

/-- `WritePhysMem` with a 16-bit value. -/
def writePhysMem (address : Nat) (value : BitVec 16) : List PowerWrite :=
  if address = 0 then [] else [.memory16 address value]

/-- A control block: whether it is in memory, and its address. The width that `Shutdown` also
computes is never used. -/
structure ControlBlock where
  mmio : Bool
  address : Nat
  deriving DecidableEq, Repr

/-- The choice of a control block: the extended register at `register` if its address is not null,
else the port of the older field. -/
def controlBlock (memory : Memory) (register legacy : Nat) : Option ControlBlock :=
  if GenericAddress.address memory register ≠ 0 then
    some ⟨GenericAddress.addressSpaceID memory register == 0,
      GenericAddress.address memory register⟩
  else if legacy ≠ 0 then some ⟨false, legacy⟩
  else none

/-- The sleep command goes to a port or to memory. -/
def ControlBlock.sleepWrites (block : ControlBlock) : List PowerWrite :=
  if !block.mmio then [.out16 (BitVec.ofNat 16 block.address) slpCmd]
  else writePhysMem block.address slpCmd

/-- `Shutdown` once the table is found. -/
def shutdownTable (memory : Memory) (fadt : Nat) : List PowerWrite × ShutdownEnd :=
  let enable :=
    if FADT.acpiEnable memory fadt ≠ 0 ∧ FADT.smiCommandPort memory fadt ≠ 0 then
      [.out8 (BitVec.ofNat 16 (FADT.smiCommandPort memory fadt))
        (BitVec.ofNat 8 (FADT.acpiEnable memory fadt))]
    else []
  match controlBlock memory (FADT.xPM1aCtrlBlock fadt) (FADT.pm1aCtrlBlock memory fadt) with
  | none => (enable, .panic 189)
  | some pm1a =>
      let pm1b := controlBlock memory (FADT.xPM1bCtrlBlock fadt) (FADT.pm1bCtrlBlock memory fadt)
      (enable ++ pm1a.sleepWrites ++ (pm1b.map ControlBlock.sleepWrites).getD [], .sleep)

/-- `ACPIManager`: the pointer `m_RSDPtr`, with 0 for null. -/
structure ACPIManager where
  rsdptr : Nat
  deriving DecidableEq, Repr

namespace ACPIManager

/-- The constructor: an RSDP with a wrong checksum is not kept. -/
def create (memory : Memory) (ptr : Nat) : ACPIManager :=
  if ptr ≠ 0 then
    if !validateRSDPChecksum memory ptr then ⟨0⟩ else ⟨ptr⟩
  else ⟨ptr⟩

/-- The table that `Shutdown` uses. -/
def fadt (manager : ACPIManager) (memory : Memory) : Nat :=
  findTable memory manager.rsdptr (some facpSignature)

/-- `Shutdown`: its writes and how it goes on. -/
def shutdown (manager : ACPIManager) (memory : Memory) : List PowerWrite × ShutdownEnd :=
  if manager.rsdptr = 0 then ([], .panic 152)
  else if manager.fadt memory = 0 then ([], .panic 158)
  else shutdownTable memory (manager.fadt memory)

end ACPIManager

/-! ## Bytes behind the table -/

/-- Two machines with the same manager and a table of the declared length `length` at the same
address. They differ at most in the bytes of the `FADT` structure behind that length. -/
structure SameDeclaredTable (memory memory' : Memory) (ptr length fadt : Nat) : Prop where
  sameManager : ACPIManager.create memory' ptr = ACPIManager.create memory ptr
  found : (ACPIManager.create memory ptr).fadt memory = fadt
  found' : (ACPIManager.create memory ptr).fadt memory' = fadt
  declared : SDTHeader.length memory fadt = length
  declared' : SDTHeader.length memory' fadt = length
  agree : ∀ x, x < fadt + length ∨ fadt + fadtSize ≤ x → memory' x = memory x

/-- No bytes behind a table of the declared length have an influence on `Shutdown`. -/
def RespectsLength (length : Nat) : Prop :=
  ∀ (memory memory' : Memory) (ptr fadt : Nat), SameDeclaredTable memory memory' ptr length fadt →
    (ACPIManager.create memory' ptr).shutdown memory' =
      (ACPIManager.create memory ptr).shutdown memory

section Congruence

variable {memory memory' : Memory} {fadt : Nat}

theorem controlBlock_congr {register : Nat} (legacy : Nat)
    (h : ∀ i < 12, memory' (register + i) = memory (register + i)) :
    controlBlock memory' register legacy = controlBlock memory register legacy := by
  have haddress : GenericAddress.address memory' register =
      GenericAddress.address memory register :=
    Memory.load_congr fun i hi => by
      rw [Nat.add_assoc]
      exact h (4 + i) (by omega)
  have hspace : GenericAddress.addressSpaceID memory' register =
      GenericAddress.addressSpaceID memory register :=
    Memory.load_congr fun i hi => h i (by omega)
  rw [controlBlock, controlBlock, haddress, hspace]

/-- `Shutdown` reads no byte of the table from offset 196 on. -/
theorem shutdownTable_congr (h : ∀ i < 196, memory' (fadt + i) = memory (fadt + i)) :
    shutdownTable memory' fadt = shutdownTable memory fadt := by
  have hread : ∀ offset i, offset + i < 196 →
      memory' (fadt + offset + i) = memory (fadt + offset + i) := by
    intro offset i hlt
    rw [Nat.add_assoc]
    exact h _ hlt
  have henable : FADT.acpiEnable memory' fadt = FADT.acpiEnable memory fadt :=
    Memory.load_congr fun i hi => hread 52 i (by omega)
  have hport : FADT.smiCommandPort memory' fadt = FADT.smiCommandPort memory fadt :=
    Memory.load_congr fun i hi => hread 48 i (by omega)
  have hpm1a : FADT.pm1aCtrlBlock memory' fadt = FADT.pm1aCtrlBlock memory fadt :=
    Memory.load_congr fun i hi => hread 64 i (by omega)
  have hpm1b : FADT.pm1bCtrlBlock memory' fadt = FADT.pm1bCtrlBlock memory fadt :=
    Memory.load_congr fun i hi => hread 68 i (by omega)
  have hxpm1a : ∀ legacy, controlBlock memory' (FADT.xPM1aCtrlBlock fadt) legacy =
      controlBlock memory (FADT.xPM1aCtrlBlock fadt) legacy := fun legacy =>
    controlBlock_congr legacy fun i hi => hread 172 i (by omega)
  have hxpm1b : ∀ legacy, controlBlock memory' (FADT.xPM1bCtrlBlock fadt) legacy =
      controlBlock memory (FADT.xPM1bCtrlBlock fadt) legacy := fun legacy =>
    controlBlock_congr legacy fun i hi => hread 184 i (by omega)
  rw [shutdownTable, shutdownTable, henable, hport, hpm1a, hpm1b, hxpm1a, hxpm1b]

theorem respectsLength_of_le {length : Nat} (hlength : 196 ≤ length) : RespectsLength length := by
  intro memory memory' ptr fadt h
  rw [h.sameManager, ACPIManager.shutdown, ACPIManager.shutdown, h.found, h.found']
  have htable : shutdownTable memory' fadt = shutdownTable memory fadt :=
    shutdownTable_congr fun i hi => h.agree _ (Or.inl (by omega))
  rw [htable]

end Congruence

/-! ## Shorter tables -/

/-- An RSDP at 320 with its XSDT at 768, which lists an `FADT` at 1024 with the PM1a control block
at port 0x404. -/
def fadtImage : Memory :=
  firmwareImage [(1, 320 + 8, 215), (1, 320 + 15, 2), (4, 320 + 20, 36), (8, 320 + 24, 768),
    (4, 768 + 4, 44), (8, 768 + 36, 1024), (4, 1024, 0x50434146), (4, 1024 + 64, 0x404)]

/-- The table has the length `length`, and the last byte of the address in `X_PM1bCtrlBlock` is
`byte`. -/
def declaredImage (length byte : Nat) : Memory :=
  (fadtImage.store 4 (1024 + 4) length).store 1 (1024 + 195) byte

section Images

variable {length byte : Nat}

theorem declaredImage_apply {x : Nat} (h : x < 1028 ∨ 1032 ≤ x) (hx : x ≠ 1219) :
    declaredImage length byte x = fadtImage x := by
  rw [declaredImage, Memory.store_outside 1 _ _ _ (by omega),
    Memory.store_outside 4 _ _ _ (by omega)]

theorem load_declaredImage {width address : Nat}
    (h : address + width ≤ 1028 ∨ 1032 ≤ address ∧ address + width ≤ 1219) :
    (declaredImage length byte).load width address = fadtImage.load width address :=
  Memory.load_congr fun i hi => declaredImage_apply (by omega) (by omega)

theorem declaredImage_length (hlength : length < 256 ^ 4) :
    SDTHeader.length (declaredImage length byte) 1024 = length := by
  rw [SDTHeader.length, declaredImage, Memory.load_store_other _ _ _ _ (by omega),
    Memory.load_store_same, Nat.mod_eq_of_lt hlength]

theorem declaredImage_xsdt : PointsToXSDT (declaredImage length byte) 320 768 where
  nonnull := by omega
  revision := by
    rw [RSDPtr.revision, load_declaredImage (by omega)]
    decide
  address := by
    rw [RSDPtr.xsdtAddress, load_declaredImage (by omega)]
    rfl

theorem declaredImage_lists : ListsTables (declaredImage length byte) 768 8 [1024] where
  nonnull := by omega
  length := by
    rw [SDTHeader.length, load_declaredImage (by omega)]
    rfl
  entries := by
    rw [List.length_singleton, tableWords_succ, load_declaredImage (by decide)]
    rfl

theorem declaredImage_valid : validateRSDPChecksum (declaredImage length byte) 320 = true := by
  have hsummed : RSDPtr.summed (declaredImage length byte) 320 = 36 := by
    rw [RSDPtr.summed, if_neg (Nat.not_lt.2 declaredImage_xsdt.revision), RSDPtr.length,
      load_declaredImage (by omega)]
    rfl
  have hsum : (declaredImage length byte).byteSum 320 36 = fadtImage.byteSum 320 36 :=
    Finset.sum_congr rfl fun i hi => by
      have hlt := Finset.mem_range.1 hi
      exact declaredImage_apply (by omega) (by omega)
  rw [validateRSDPChecksum_iff, hsummed, hsum]
  decide

theorem declaredImage_manager : ACPIManager.create (declaredImage length byte) 320 = ⟨320⟩ := by
  rw [ACPIManager.create, declaredImage_valid]
  rfl

theorem declaredImage_found : ACPIManager.fadt ⟨320⟩ (declaredImage length byte) = 1024 := by
  have hsignature : isTable (declaredImage length byte) facpSignature 1024 =
      isTable fadtImage facpSignature 1024 :=
    isTable_congr fun i hi => by
      have hlt : i < 4 := hi
      exact declaredImage_apply (by omega) (by omega)
  rw [ACPIManager.fadt, findTable_xsdt declaredImage_xsdt declaredImage_lists,
    List.find?_cons_of_pos (hsignature.trans rfl), Option.getD_some]

/-- All bytes of the address in `X_PM1bCtrlBlock` but the last are zero. -/
theorem declaredImage_address (hbyte : byte < 256) :
    GenericAddress.address (declaredImage length byte) (FADT.xPM1bCtrlBlock 1024) =
      byte * 2 ^ 56 := by
  have hlast : declaredImage length byte 1219 = BitVec.ofNat 8 byte := rfl
  have hzero : ∀ x, 1212 ≤ x → x < 1219 → (declaredImage length byte x).toNat = 0 := by
    intro x hlow hhigh
    have himage : ∀ i < 7, (fadtImage (1212 + i)).toNat = 0 := by decide
    rw [declaredImage_apply (by omega) (by omega), show x = 1212 + (x - 1212) by omega]
    exact himage _ (by omega)
  simp (disch := omega) only [GenericAddress.address, FADT.xPM1bCtrlBlock, Memory.load, hzero,
    hlast, BitVec.toNat_ofNat, Nat.mod_eq_of_lt hbyte]
  ring

theorem declaredImage_pm1a :
    controlBlock (declaredImage length byte) (FADT.xPM1aCtrlBlock 1024)
      (FADT.pm1aCtrlBlock (declaredImage length byte) 1024) = some ⟨false, 0x404⟩ := by
  have hregister : ∀ i < 12, declaredImage length byte (FADT.xPM1aCtrlBlock 1024 + i) =
      fadtImage (FADT.xPM1aCtrlBlock 1024 + i) := by
    intro i hi
    rw [FADT.xPM1aCtrlBlock]
    exact declaredImage_apply (by omega) (by omega)
  rw [controlBlock_congr _ hregister, FADT.pm1aCtrlBlock, load_declaredImage (by omega)]
  rfl

theorem declaredImage_pm1b (hbyte : byte < 256) :
    controlBlock (declaredImage length byte) (FADT.xPM1bCtrlBlock 1024)
        (FADT.pm1bCtrlBlock (declaredImage length byte) 1024) =
      if byte = 0 then none else some ⟨true, byte * 2 ^ 56⟩ := by
  have hlegacy : FADT.pm1bCtrlBlock (declaredImage length byte) 1024 = 0 := by
    rw [FADT.pm1bCtrlBlock, load_declaredImage (by omega)]
    rfl
  have hspace : GenericAddress.addressSpaceID (declaredImage length byte)
      (FADT.xPM1bCtrlBlock 1024) = 0 := by
    rw [GenericAddress.addressSpaceID, FADT.xPM1bCtrlBlock, load_declaredImage (by omega)]
    rfl
  rw [controlBlock, declaredImage_address hbyte, hlegacy, hspace]
  by_cases hzero : byte = 0
  · rw [if_pos hzero, if_neg (by omega), if_neg (by omega)]
  · rw [if_neg hzero, if_pos (by omega)]
    rfl

/-- `Shutdown` with the image: the byte behind the table decides on a write to memory. -/
theorem shutdown_declaredImage (hbyte : byte < 256) :
    (ACPIManager.create (declaredImage length byte) 320).shutdown (declaredImage length byte) =
      (.out16 0x404#16 slpCmd ::
        if byte = 0 then [] else [.memory16 (byte * 2 ^ 56) slpCmd], .sleep) := by
  have hsmi : FADT.acpiEnable (declaredImage length byte) 1024 = 0 := by
    rw [FADT.acpiEnable, load_declaredImage (by omega)]
    rfl
  rw [declaredImage_manager, ACPIManager.shutdown, if_neg (by decide), declaredImage_found,
    if_neg (by decide), shutdownTable, declaredImage_pm1a, declaredImage_pm1b hbyte, hsmi]
  by_cases hzero : byte = 0
  · rw [if_pos hzero, if_pos hzero]
    rfl
  · rw [if_neg hzero, if_neg hzero]
    simp [ControlBlock.sleepWrites, writePhysMem, hzero]

/-- Images that differ in the byte only are images of the same declared table, if the byte is
behind it. -/
theorem sameDeclaredTable_declaredImage {byte' : Nat} (hlength : length < 196) :
    SameDeclaredTable (declaredImage length byte) (declaredImage length byte') 320 length 1024 where
  sameManager := by rw [declaredImage_manager, declaredImage_manager]
  found := by rw [declaredImage_manager, declaredImage_found]
  found' := by rw [declaredImage_manager, declaredImage_found]
  declared := declaredImage_length (by omega)
  declared' := declaredImage_length (by omega)
  agree := by
    intro x hx
    rw [declaredImage, declaredImage, Memory.store_outside 1 _ _ _ (by rw [fadtSize] at hx; omega),
      Memory.store_outside 1 _ _ _ (by rw [fadtSize] at hx; omega)]

end Images

/-- The writes of `Shutdown` are independent of the bytes behind the table if and only if the
declared length reaches to the end of `X_PM1bCtrlBlock`. -/
theorem shutdown_respects_length_iff (length : Nat) : RespectsLength length ↔ 196 ≤ length := by
  constructor
  · intro hrespects
    by_contra hshort
    have hsame := hrespects _ _ _ _
      (@sameDeclaredTable_declaredImage length 0 1 (Nat.lt_of_not_le hshort))
    rw [shutdown_declaredImage (by decide), shutdown_declaredImage (by decide)] at hsame
    simp at hsame
  · exact respectsLength_of_le

/-- Two tables of 116 bytes, as in ACPI 1.0, that differ only in a byte of memory behind them: with
one the sleep command is also written to memory at the address `2 ^ 56`. -/
theorem short_table_writes_differ :
    SameDeclaredTable (declaredImage 116 0) (declaredImage 116 1) 320 116 1024 ∧
      (ACPIManager.create (declaredImage 116 0) 320).shutdown (declaredImage 116 0) =
        ([.out16 0x404#16 slpCmd], .sleep) ∧
      (ACPIManager.create (declaredImage 116 1) 320).shutdown (declaredImage 116 1) =
        ([.out16 0x404#16 slpCmd, .memory16 (2 ^ 56) slpCmd], .sleep) ∧
      ¬ RespectsLength 116 := by
  have hsame : SameDeclaredTable (declaredImage 116 0) (declaredImage 116 1) 320 116 1024 :=
    sameDeclaredTable_declaredImage (by omega)
  have hfirst := @shutdown_declaredImage 116 0 (by omega)
  have hsecond := @shutdown_declaredImage 116 1 (by omega)
  refine ⟨hsame, hfirst, hsecond, ?_⟩
  intro hrespects
  have hwrites := hrespects _ _ _ _ hsame
  rw [hfirst, hsecond] at hwrites
  simp at hwrites

end HailOS.ACPI
