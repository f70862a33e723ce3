import HailOS.Lib.PackedFields
import HailOS.Lib.Word

/-!
# Descriptors

The entries of the descriptor tables of the processor, after `CPU/Initialization/CPUInit.cpp` and
the structures of `GDT.hpp`, `TSS.hpp` and `IDT.hpp`. A base, a limit or a handler address is cut
into several fields of a packed structure, and the processor takes it together again from the bits
of the descriptor. One of the fields of the limit shares its byte with four flags.

`descriptor_encodings_lossless` says that the processor finds every base, limit and address that was
written, and that writing an entry leaves the others as they are.
-/

namespace HailOS.CPU

open Lib

/-! ## The structures -/

/-- `GDTEntry`. -/
structure GDTEntry where
  limitLow : BitVec 16
  baseLow : BitVec 16
  baseMid : BitVec 8
  access : BitVec 8
  granularity : BitVec 8
  baseHigh : BitVec 8

/-- The fields of a `GDTEntry` in memory, with their widths in bytes. -/
def GDTEntry.fields (entry : GDTEntry) : List (Nat × Nat) :=
  [(2, entry.limitLow.toNat), (2, entry.baseLow.toNat), (1, entry.baseMid.toNat),
    (1, entry.access.toNat), (1, entry.granularity.toNat), (1, entry.baseHigh.toNat)]

/-- `TSSDescriptor`. -/
structure TSSDescriptor where
  limitLow : BitVec 16
  baseLow : BitVec 16
  baseMid : BitVec 8
  access : BitVec 8
  granularity : BitVec 8
  baseHigh : BitVec 8
  baseUpper : BitVec 32
  reserved : BitVec 32

/-- The fields of a `TSSDescriptor` in memory. -/
def TSSDescriptor.fields (desc : TSSDescriptor) : List (Nat × Nat) :=
  [(2, desc.limitLow.toNat), (2, desc.baseLow.toNat), (1, desc.baseMid.toNat),
    (1, desc.access.toNat), (1, desc.granularity.toNat), (1, desc.baseHigh.toNat),
    (4, desc.baseUpper.toNat), (4, desc.reserved.toNat)]

/-- `IDTEntry`. -/
structure IDTEntry where
  offsetLow : BitVec 16
  selector : BitVec 16
  ist : BitVec 8
  typeAttribute : BitVec 8
  offsetMid : BitVec 16
  offsetHigh : BitVec 32
  reserved : BitVec 32

/-- The fields of an `IDTEntry` in memory. -/
def IDTEntry.fields (entry : IDTEntry) : List (Nat × Nat) :=
  [(2, entry.offsetLow.toNat), (2, entry.selector.toNat), (1, entry.ist.toNat),
    (1, entry.typeAttribute.toNat), (2, entry.offsetMid.toNat), (4, entry.offsetHigh.toNat),
    (4, entry.reserved.toNat)]

/-- `sizeof(GDTEntry)`. -/
def gdtEntrySize : Nat := 8

/-- `sizeof(gGDT)`. -/
def gdtSize : Nat := 7 * gdtEntrySize

/-- `sizeof(TSSDescriptor)`. -/
def tssDescriptorSize : Nat := 16

/-- `sizeof(IDTEntry)`. -/
def idtEntrySize : Nat := 16

/-- `IDT_ENTRIES`. -/
def idtEntries : Nat := 256

/-- `GDT_KERNEL_CS`. -/
def gdtKernelCS : BitVec 16 := 0x08#16

/-! ## Writing a descriptor -/

/-- The byte `Granularity`: the high bits of the limit and the flags. -/
def granularityByte (limit : BitVec 32) (gran : BitVec 8) : BitVec 8 :=
  (((limit >>> 16) &&& 0x0F#32) ||| (gran.setWidth 32 &&& 0xF0#32)).setWidth 8

/-- The fields that `SetGDTEntry` assigns. -/
def GDTEntry.encode (base limit : BitVec 32) (access gran : BitVec 8) : GDTEntry where
  limitLow := (limit &&& 0xFFFF#32).setWidth 16
  baseLow := (base &&& 0xFFFF#32).setWidth 16
  baseMid := ((base >>> 16) &&& 0xFF#32).setWidth 8
  access := access
  granularity := granularityByte limit gran
  baseHigh := ((base >>> 24) &&& 0xFF#32).setWidth 8

/-- `SetGDTEntry`. -/
def setGDTEntry (memory : Memory) (entry : Nat) (base limit : BitVec 32) (access gran : BitVec 8) :
    Memory :=
  memory.storePacked entry (GDTEntry.encode base limit access gran).fields

/-- The fields that `SetTSSDescriptor` assigns. -/
def TSSDescriptor.encode (base : BitVec 64) (limit : BitVec 32) (access gran : BitVec 8) :
    TSSDescriptor where
  limitLow := (limit &&& 0xFFFF#32).setWidth 16
  baseLow := (base &&& 0xFFFF#64).setWidth 16
  baseMid := ((base >>> 16) &&& 0xFF#64).setWidth 8
  access := access
  granularity := granularityByte limit gran
  baseHigh := ((base >>> 24) &&& 0xFF#64).setWidth 8
  baseUpper := ((base >>> 32) &&& 0xFFFFFFFF#64).setWidth 32
  reserved := 0#32

/-- `SetTSSDescriptor`. -/
def setTSSDescriptor (memory : Memory) (desc : Nat) (base : BitVec 64) (limit : BitVec 32)
    (access gran : BitVec 8) : Memory :=
  memory.storePacked desc (TSSDescriptor.encode base limit access gran).fields

/-- The fields that `SetIDTEntry` assigns. -/
def IDTEntry.encode (handler : BitVec 64) (typeAttribute : BitVec 8) : IDTEntry where
  offsetLow := (handler &&& 0xFFFF#64).setWidth 16
  selector := gdtKernelCS
  ist := 0#8
  typeAttribute := typeAttribute
  offsetMid := ((handler >>> 16) &&& 0xFFFF#64).setWidth 16
  offsetHigh := (handler >>> 32).setWidth 32
  reserved := 0#32

/-- The address of `gIDT[vec]`. -/
def idtEntryAddress (gIDT vec : Nat) : Nat := gIDT + idtEntrySize * vec

/-- `SetIDTEntry`, where `gIDT` is the address of the table. -/
def setIDTEntry (memory : Memory) (gIDT vec : Nat) (handler : BitVec 64)
    (typeAttribute : BitVec 8) : Memory :=
  memory.storePacked (idtEntryAddress gIDT vec) (IDTEntry.encode handler typeAttribute).fields

/-! ## How the processor reads it -/

/-- The limit in a descriptor, in the bits 0 to 15 and 48 to 51. -/
def descriptorLimit (word : Nat) : Nat := gather word [(0, 16), (48, 4)]

/-- The base in a segment descriptor, in the bits 16 to 31, 32 to 39 and 56 to 63. -/
def segmentBase (word : Nat) : Nat := gather word [(16, 16), (32, 8), (56, 8)]

/-- The base in a system descriptor, which has 16 bytes and the high half of the base in the bits 64
to 95. -/
def systemBase (word : Nat) : Nat := gather word [(16, 16), (32, 8), (56, 8), (64, 32)]

/-- The offset in a gate, in the bits 0 to 15, 48 to 63 and 64 to 95. -/
def gateOffset (word : Nat) : Nat := gather word [(0, 16), (48, 16), (64, 32)]

/-! ## The words that are written -/

/-- The fields that the processor sees in the first 8 bytes of a descriptor, with their widths in
bits. -/
def segmentFields (base limit access gran : Nat) : List (Nat × Nat) :=
  [(16, limit), (16, base), (8, base / 2 ^ 16), (8, access), (4, limit / 2 ^ 16), (4, gran / 2 ^ 4),
    (8, base / 2 ^ 24)]

/-- The fields of a gate. -/
def gateFields (offset selector typeAttribute : Nat) : List (Nat × Nat) :=
  [(16, offset), (16, selector), (8, 0), (8, typeAttribute), (16, offset / 2 ^ 16),
    (32, offset / 2 ^ 32), (32, 0)]

/-- The two halves of the byte `Granularity`. -/
theorem toNat_granularityByte (limit : BitVec 32) (gran : BitVec 8) :
    (granularityByte limit gran).toNat =
      joinFields [(4, limit.toNat / 2 ^ 16), (4, gran.toNat / 2 ^ 4)] := by
  have hlimit : ((limit >>> 16) &&& 0x0F#32).toNat = limit.toNat / 2 ^ 16 % 2 ^ 4 := by
    rw [BitVec.toNat_and, BitVec.toNat_ushiftRight, Nat.shiftRight_eq_div_pow]
    exact Nat.and_two_pow_sub_one_eq_mod _ 4
  have hgran : (gran.setWidth 32 &&& 0xF0#32).toNat = 2 ^ 4 * (gran.toNat / 2 ^ 4) := by
    rw [BitVec.toNat_and, BitVec.toNat_setWidth_of_le (by omega), Nat.mul_comm]
    have hmask : gran.toNat &&& (2 ^ 8 - 2 ^ 4) = gran.toNat / 2 ^ 4 * 2 ^ 4 :=
      and_high_mask gran.isLt (by omega)
    exact hmask
  have hlow : limit.toNat / 2 ^ 16 % 2 ^ 4 < 2 ^ 4 := Nat.mod_lt _ (by omega)
  have hbyte := gran.isLt
  rw [granularityByte, BitVec.toNat_setWidth, BitVec.toNat_or, hlimit, hgran, Nat.or_comm,
    ← Nat.two_pow_add_eq_or_of_lt hlow]
  simp only [joinFields]
  omega

/-- The packed fields of a segment are the fields that the processor sees. -/
theorem joinFields_segment (base limit access gran : Nat) (after : List (Nat × Nat)) :
    joinFields ((16, limit % 2 ^ 16) :: (16, base % 2 ^ 16) :: (8, base / 2 ^ 16 % 2 ^ 8) ::
        (8, access) :: (8, joinFields [(4, limit / 2 ^ 16), (4, gran / 2 ^ 4)]) ::
        (8, base / 2 ^ 24 % 2 ^ 8) :: after) =
      joinFields (segmentFields base limit access gran ++ after) := by
  have hnested := joinFields_nested
    [(16, limit % 2 ^ 16), (16, base % 2 ^ 16), (8, base / 2 ^ 16 % 2 ^ 8), (8, access)]
    [(4, limit / 2 ^ 16), (4, gran / 2 ^ 4)] ((8, base / 2 ^ 24 % 2 ^ 8) :: after)
  refine hnested.trans ?_
  simp only [segmentFields, List.cons_append, List.nil_append, joinFields, Nat.mod_mod]

section Words

variable (memory : Memory) (limit : BitVec 32) (access gran : BitVec 8)

/-- The word that `SetGDTEntry` writes. -/
theorem load_setGDTEntry (entry : Nat) (base : BitVec 32) :
    (setGDTEntry memory entry base limit access gran).load 8 entry =
      joinFields (segmentFields base.toNat limit.toNat access.toNat gran.toNat) := by
  have hload := Memory.load_storePacked memory entry (GDTEntry.encode base limit access gran).fields
  refine hload.trans ?_
  rw [← List.append_nil (segmentFields _ _ _ _), ← joinFields_segment, ← toNat_granularityByte,
    ← toNat_masked limit (show 16 ≤ 32 by omega), ← toNat_masked base (show 16 ≤ 32 by omega),
    ← toNat_shifted base 16 (show 8 ≤ 32 by omega), ← toNat_shifted base 24 (show 8 ≤ 32 by omega)]
  rfl

/-- The word that `SetTSSDescriptor` writes. -/
theorem load_setTSSDescriptor (desc : Nat) (base : BitVec 64) :
    (setTSSDescriptor memory desc base limit access gran).load 16 desc =
      joinFields (segmentFields base.toNat limit.toNat access.toNat gran.toNat ++
        [(32, base.toNat / 2 ^ 32), (32, 0)]) := by
  have hload := Memory.load_storePacked memory desc
    (TSSDescriptor.encode base limit access gran).fields
  have hupper : base.toNat / 2 ^ 32 % 2 ^ 32 = base.toNat / 2 ^ 32 :=
    Nat.mod_eq_of_lt (Nat.div_lt_of_lt_mul base.isLt)
  refine hload.trans ?_
  rw [← hupper, ← joinFields_segment, ← toNat_granularityByte,
    ← toNat_masked limit (show 16 ≤ 32 by omega), ← toNat_masked base (show 16 ≤ 64 by omega),
    ← toNat_shifted base 16 (show 8 ≤ 64 by omega), ← toNat_shifted base 24 (show 8 ≤ 64 by omega),
    ← toNat_shifted base 32 (show 32 ≤ 64 by omega)]
  rfl

/-- The word that `SetIDTEntry` writes. -/
theorem load_setIDTEntry (gIDT vec : Nat) (handler : BitVec 64) (typeAttribute : BitVec 8) :
    (setIDTEntry memory gIDT vec handler typeAttribute).load 16 (idtEntryAddress gIDT vec) =
      joinFields (gateFields handler.toNat gdtKernelCS.toNat typeAttribute.toNat) := by
  have hload := Memory.load_storePacked memory (idtEntryAddress gIDT vec)
    (IDTEntry.encode handler typeAttribute).fields
  have hhigh : ((handler >>> 32).setWidth 32).toNat = handler.toNat / 2 ^ 32 % 2 ^ 32 := by
    rw [BitVec.toNat_setWidth, BitVec.toNat_ushiftRight, Nat.shiftRight_eq_div_pow]
  refine hload.trans ?_
  have hfields : joinFields (gateFields handler.toNat gdtKernelCS.toNat typeAttribute.toNat) =
      joinFields [(16, handler.toNat % 2 ^ 16), (16, gdtKernelCS.toNat), (8, 0),
        (8, typeAttribute.toNat), (16, handler.toNat / 2 ^ 16 % 2 ^ 16),
        (32, handler.toNat / 2 ^ 32 % 2 ^ 32), (32, 0)] := by
    simp only [gateFields, joinFields, Nat.mod_mod]
  rw [hfields, ← hhigh, ← toNat_masked handler (show 16 ≤ 64 by omega),
    ← toNat_shifted handler 16 (show 16 ≤ 64 by omega)]
  rfl

end Words

/-! ## Reading back -/

section Fields

variable (base limit access gran : Nat)

theorem descriptorLimit_joinFields (after : List (Nat × Nat)) :
    descriptorLimit (joinFields (segmentFields base limit access gran ++ after)) =
      limit % 2 ^ 20 :=
  (gather_joinFields (segmentFields base limit access gran ++ after) [0, 4]).trans
    (joinFields_cons_cuts limit 16 [4])

theorem segmentBase_joinFields :
    segmentBase (joinFields (segmentFields base limit access gran)) = base % 2 ^ 32 :=
  (gather_joinFields (segmentFields base limit access gran) [1, 2, 6]).trans
    (joinFields_cons_cuts base 16 [8, 8])

theorem systemBase_joinFields :
    systemBase (joinFields (segmentFields base limit access gran ++
      [(32, base / 2 ^ 32), (32, 0)])) = base % 2 ^ 64 :=
  (gather_joinFields (segmentFields base limit access gran ++ [(32, base / 2 ^ 32), (32, 0)])
    [1, 2, 6, 7]).trans (joinFields_cons_cuts base 16 [8, 8, 32])

theorem gateOffset_joinFields (offset selector typeAttribute : Nat) :
    gateOffset (joinFields (gateFields offset selector typeAttribute)) = offset % 2 ^ 64 :=
  (gather_joinFields (gateFields offset selector typeAttribute) [0, 4, 5]).trans
    (joinFields_cons_cuts offset 16 [16, 32])

end Fields

/-- The processor finds the base and the limit in the system descriptor at `desc`. -/
structure HoldsSystem (memory : Memory) (desc : Nat) (base : BitVec 64) (limit : BitVec 32) :
    Prop where
  base : systemBase (memory.load tssDescriptorSize desc) = base.toNat
  limit : descriptorLimit (memory.load tssDescriptorSize desc) = limit.toNat

/-- The processor finds the base and the limit in the segment descriptor at `entry`. -/
structure HoldsSegment (memory : Memory) (entry : Nat) (base limit : BitVec 32) : Prop where
  base : segmentBase (memory.load gdtEntrySize entry) = base.toNat
  limit : descriptorLimit (memory.load gdtEntrySize entry) = limit.toNat

/-- `memory'` is `memory` with the address of the handler in `gIDT[vec]`, which is an entry of the
table, and with all other entries as before. -/
structure GateWritten (memory memory' : Memory) (gIDT vec : Nat) (handler : BitVec 64) : Prop where
  offset : gateOffset (memory'.load idtEntrySize (idtEntryAddress gIDT vec)) = handler.toNat
  inside : idtEntryAddress gIDT vec + idtEntrySize ≤ gIDT + idtEntrySize * idtEntries
  others : ∀ i < idtEntries, i ≠ vec → ∀ k < idtEntrySize,
    memory' (idtEntryAddress gIDT i + k) = memory (idtEntryAddress gIDT i + k)

/-- The address of slot `i` of the table at `gGDT`. -/
def gdtSlot (gGDT i : Nat) : Nat := gGDT + i * gdtEntrySize

/-- A system descriptor in slot 5 ends with the table. With it written, `memory'` differs from
`memory` only inside the table, and not in the slots 0 to 4. -/
structure SlotFiveWritten (memory memory' : Memory) (gGDT : Nat) : Prop where
  fits : gdtSlot gGDT 5 + tssDescriptorSize ≤ gGDT + gdtSize
  inside : ∀ x, x < gGDT ∨ gGDT + gdtSize ≤ x → memory' x = memory x
  slots : ∀ i < 5, ∀ k < gdtEntrySize, memory' (gdtSlot gGDT i + k) = memory (gdtSlot gGDT i + k)

section Encodings

variable {memory : Memory} {limit : BitVec 32} {access gran : BitVec 8}

theorem setTSSDescriptor_holds (desc : Nat) (base : BitVec 64) (hlimit : limit.toNat < 2 ^ 20) :
    HoldsSystem (setTSSDescriptor memory desc base limit access gran) desc base limit where
  base := by
    rw [tssDescriptorSize, load_setTSSDescriptor, systemBase_joinFields,
      Nat.mod_eq_of_lt base.isLt]
  limit := by
    rw [tssDescriptorSize, load_setTSSDescriptor, descriptorLimit_joinFields,
      Nat.mod_eq_of_lt hlimit]

theorem setGDTEntry_holds (entry : Nat) (base : BitVec 32) (hlimit : limit.toNat < 2 ^ 20) :
    HoldsSegment (setGDTEntry memory entry base limit access gran) entry base limit where
  base := by
    rw [gdtEntrySize, load_setGDTEntry, segmentBase_joinFields, Nat.mod_eq_of_lt base.isLt]
  limit := by
    rw [gdtEntrySize, load_setGDTEntry, ← List.append_nil (segmentFields _ _ _ _),
      descriptorLimit_joinFields, Nat.mod_eq_of_lt hlimit]

theorem setIDTEntry_outside {gIDT vec : Nat} (handler : BitVec 64) (typeAttribute : BitVec 8)
    {x : Nat} (h : x < idtEntryAddress gIDT vec ∨ idtEntryAddress gIDT vec + idtEntrySize ≤ x) :
    setIDTEntry memory gIDT vec handler typeAttribute x = memory x :=
  Memory.storePacked_outside (IDTEntry.encode handler typeAttribute).fields h

theorem setTSSDescriptor_outside {desc : Nat} (base : BitVec 64) {x : Nat}
    (h : x < desc ∨ desc + tssDescriptorSize ≤ x) :
    setTSSDescriptor memory desc base limit access gran x = memory x :=
  Memory.storePacked_outside (TSSDescriptor.encode base limit access gran).fields h

theorem setGDTEntry_outside {entry : Nat} (base : BitVec 32) {x : Nat}
    (h : x < entry ∨ entry + gdtEntrySize ≤ x) :
    setGDTEntry memory entry base limit access gran x = memory x :=
  Memory.storePacked_outside (GDTEntry.encode base limit access gran).fields h

/-- Two entries of the table do not overlap. -/
theorem idtEntryAddress_disjoint (gIDT : Nat) {vec i : Nat} (h : i ≠ vec) :
    idtEntryAddress gIDT i + idtEntrySize ≤ idtEntryAddress gIDT vec ∨
      idtEntryAddress gIDT vec + idtEntrySize ≤ idtEntryAddress gIDT i := by
  simp only [idtEntryAddress, idtEntrySize]
  omega

theorem setIDTEntry_gate {gIDT vec : Nat} (handler : BitVec 64) (typeAttribute : BitVec 8)
    (hvec : vec < idtEntries) :
    GateWritten memory (setIDTEntry memory gIDT vec handler typeAttribute) gIDT vec handler where
  offset := by
    rw [idtEntrySize, load_setIDTEntry, gateOffset_joinFields, Nat.mod_eq_of_lt handler.isLt]
  inside := by
    simp only [idtEntryAddress, idtEntrySize, idtEntries] at hvec ⊢
    omega
  others := by
    intro i _ hne k hk
    apply setIDTEntry_outside
    have hdisjoint := idtEntryAddress_disjoint gIDT hne
    omega

theorem setTSSDescriptor_slotFive (gGDT : Nat) (base : BitVec 64) :
    SlotFiveWritten memory (setTSSDescriptor memory (gdtSlot gGDT 5) base limit access gran)
      gGDT where
  fits := Nat.le_refl _
  inside := by
    intro x hx
    apply setTSSDescriptor_outside
    simp only [gdtSlot, gdtSize, gdtEntrySize, tssDescriptorSize] at hx ⊢
    omega
  slots := by
    intro i hi k hk
    apply setTSSDescriptor_outside
    simp only [gdtSlot, gdtEntrySize] at hk ⊢
    omega

end Encodings

/-- Every base, limit and handler address that is written into a descriptor is what the processor
finds in it, and no other entry of a table changes. -/
theorem descriptor_encodings_lossless (memory : Memory) (desc entry gIDT vec gGDT : Nat)
    (base handler : BitVec 64) (base32 limit : BitVec 32) (access gran typeAttribute : BitVec 8)
    (hlimit : limit.toNat < 2 ^ 20) (hvec : vec < idtEntries) :
    HoldsSystem (setTSSDescriptor memory desc base limit access gran) desc base limit ∧
      HoldsSegment (setGDTEntry memory entry base32 limit access gran) entry base32 limit ∧
      GateWritten memory (setIDTEntry memory gIDT vec handler typeAttribute) gIDT vec handler ∧
      SlotFiveWritten memory (setTSSDescriptor memory (gdtSlot gGDT 5) base limit access gran)
        gGDT :=
  ⟨setTSSDescriptor_holds desc base hlimit, setGDTEntry_holds entry base32 hlimit,
    setIDTEntry_gate handler typeAttribute hvec, setTSSDescriptor_slotFive gGDT base⟩

/-- The bases of a task state and the address of a handler high in the address space. -/
theorem descriptor_encodings_lossless_high :
    HoldsSystem (setTSSDescriptor (fun _ => 0) 40 0xFFFFFFFF80123456#64 0xABCDE#32 0x89#8 0x00#8) 40
        0xFFFFFFFF80123456#64 0xABCDE#32 ∧
      GateWritten (fun _ => 0) (setIDTEntry (fun _ => 0) 4096 255 0xFFFFFFFF80ABCDEF#64 0x8E#8)
        4096 255 0xFFFFFFFF80ABCDEF#64 := by
  have hlossless := descriptor_encodings_lossless (fun _ => 0) 40 8 4096 255 0
    0xFFFFFFFF80123456#64 0xFFFFFFFF80ABCDEF#64 0#32 0xABCDE#32 0x89#8 0x00#8 0x8E#8 (by decide)
    (by decide)
  exact ⟨hlossless.1, hlossless.2.2.1⟩

end HailOS.CPU
