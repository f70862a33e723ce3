import HailOS.ACPI.Tables

/-!
# The multiple APIC description table

`ParseMADT` finds the MADT and walks over its entries, and keeps the first 8 I/O APICs and the
first 32 interrupt source overrides. `parseMADT_ioapics` says that the I/O APICs come out as the
firmware wrote them. The overrides are read 44 bytes behind the start of their entry, where the
payload starts after 2: `parseMADT_isos_iff` says for which tables they come out right. The loop is
run with a log of what it reads, and `visitEntry` and `parseMADT` are what it computes.
-/

namespace HailOS.ACPI

open Lib Kernel Record Logged

/-- `ACPI_SIG_MADT`: the characters `APIC`. -/
def acpiSigMADT : CString := [0x41, 0x50, 0x49, 0x43]

/-- `sizeof(MADTHeader)`. -/
def madtHeaderSize : Nat := 44

/-- `sizeof(MADTEntryHeader)`. -/
def madtEntryHeaderSize : Nat := 2

/-- `sizeof(MADT_IOAPIC)`. -/
def madtIOAPICSize : Nat := 10

/-- `sizeof(MADT_ISO)`. -/
def madtISOSize : Nat := 8

/-- The field `LocalAPICAddress` of the `MADTHeader` at `madt`. -/
def MADTHeader.localAPICAddress (memory : Memory) (madt : Nat) : Nat := memory.load 4 (madt + 36)

/-- `MADTEntryType`. -/
inductive MADTEntryType where
  | processorLocalAPIC
  | ioapic
  | interruptSourceOverride
  | nmi
  | localAPICNMI
deriving DecidableEq, Repr

/-- The entry type a type byte stands for, if the source names it. -/
def MADTEntryType.ofByte (type : BitVec 8) : Option MADTEntryType :=
  if type = 0 then some .processorLocalAPIC
  else if type = 1 then some .ioapic
  else if type = 2 then some .interruptSourceOverride
  else if type = 4 then some .nmi
  else if type = 5 then some .localAPICNMI
  else none

/-- `ParsedMADT::IOAPICInfo`. -/
structure IOAPICInfo where
  id : Nat
  phys : Nat
  gsiBase : Nat
deriving DecidableEq, Repr

/-- `ParsedMADT::ISOInfo`. -/
structure ISOInfo where
  irq : Nat
  gsi : Nat
  flags : Nat
deriving DecidableEq, Repr

/-- `ParsedMADT`. -/
structure ParsedMADT where
  localAPICBase : Nat
  ioapics : Vector IOAPICInfo 8
  ioapicCount : Nat
  isos : Vector ISOInfo 32
  isoCount : Nat

/-- A `ParsedMADT` of zero bytes. -/
def ParsedMADT.zeroed : ParsedMADT where
  localAPICBase := 0
  ioapics := Vector.replicate 8 ⟨0, 0, 0⟩
  ioapicCount := 0
  isos := Vector.replicate 32 ⟨0, 0, 0⟩
  isoCount := 0

/-- `IOAPICs[0..IOAPICCount)`. -/
def ParsedMADT.foundIOAPICs (out : ParsedMADT) : List IOAPICInfo :=
  out.ioapics.toList.take out.ioapicCount

/-- `ISOs[0..ISOCount)`. -/
def ParsedMADT.foundISOs (out : ParsedMADT) : List ISOInfo :=
  out.isos.toList.take out.isoCount

/-- Read the `IOAPICID`, `IOAPICAddress` and `GlobalSystemInterruptBase` of the `MADT_IOAPIC` at
`ioa`. -/
def readIOAPIC (memory : Memory) (ioa : Nat) : Logged Span IOAPICInfo := do
  let id ← memory.read 1 ioa
  let phys ← memory.read 4 (ioa + 2)
  let gsiBase ← memory.read 4 (ioa + 6)
  pure ⟨id, phys, gsiBase⟩

/-- Read the `IRQSource`, `GlobalSystemInterrupt` and `Flags` of the `MADT_ISO` at `iso`. -/
def readISO (memory : Memory) (iso : Nat) : Logged Span ISOInfo := do
  let irq ← memory.read 1 (iso + 1)
  let gsi ← memory.read 4 (iso + 2)
  let flags ← memory.read 2 (iso + 6)
  pure ⟨irq, gsi, flags⟩

/-- The case `IOAPIC` of the entry at `p`. -/
def addIOAPIC (memory : Memory) (p : Nat) (out : ParsedMADT) : Logged Span ParsedMADT := do
  let length ← memory.readByte (p + 1)
  if h : madtEntryHeaderSize + madtIOAPICSize ≤ length.toNat ∧ out.ioapicCount < 8 then
    let ioapic ← readIOAPIC memory (p + madtEntryHeaderSize)
    pure { out with
      ioapics := out.ioapics.set out.ioapicCount ioapic h.2
      ioapicCount := out.ioapicCount + 1 }
  else pure out

/-- The case `InterruptSourceOverrride` of the entry at `p`. -/
def addISO (memory : Memory) (p : Nat) (out : ParsedMADT) : Logged Span ParsedMADT := do
  let length ← memory.readByte (p + 1)
  if h : madtEntryHeaderSize + madtISOSize ≤ length.toNat ∧ out.isoCount < 32 then
    -- the offset is the size of the table's header, not of the entry's
    let iso ← readISO memory (p + madtHeaderSize)
    pure { out with
      isos := out.isos.set out.isoCount iso h.2
      isoCount := out.isoCount + 1 }
  else pure out

/-- The `switch` of `ParseMADT` on the entry at `p`. -/
def visitEntryLogged (memory : Memory) (p : Nat) (out : ParsedMADT) :
    Logged Span ParsedMADT := do
  let type ← memory.readByte p
  match MADTEntryType.ofByte type with
  | some .ioapic => addIOAPIC memory p out
  | some .interruptSourceOverride => addISO memory p out
  | _ => pure out

/-- `ParseMADT` from the table at `madt` on, for at most `fuel` rounds of its loop: the two fields
of the table's header, then the entries. -/
def parseTableLogged (memory : Memory) (madt fuel : Nat) (out : ParsedMADT) :
    Logged Span (Option ParsedMADT) := do
  let localAPICAddress ← memory.read 4 (madt + 36)
  let length ← memory.read 4 (madt + 4)
  walkRecords (visitEntryLogged memory) memory (madt + length) fuel (madt + madtHeaderSize)
    { out with localAPICBase := localAPICAddress }

/-- `ParseMADT`: the result and the `ParsedMADT` it leaves. The loop ends after at most as many
rounds as the table has bytes. -/
def parseMADT (memory : Memory) (rsdp : Nat) (out : ParsedMADT) : Bool × ParsedMADT :=
  let hdr := findTable memory rsdp (some acpiSigMADT)
  if hdr = 0 then (false, out)
  else
    let rounds := SDTHeader.length memory hdr + 1
    (true, (parseTableLogged memory hdr rounds out).value.getD out)

/-- The fields of the `MADT_IOAPIC` at `ioa`. -/
def ioapicAt (memory : Memory) (ioa : Nat) : IOAPICInfo := (readIOAPIC memory ioa).value

/-- The fields of the `MADT_ISO` at `iso`. -/
def isoAt (memory : Memory) (iso : Nat) : ISOInfo := (readISO memory iso).value

/-- What the entry at `p` adds. -/
def visitEntry (memory : Memory) (p : Nat) (out : ParsedMADT) : ParsedMADT :=
  (visitEntryLogged memory p out).value

/-! ## What one entry adds -/

section Entry

variable (memory : Memory) (p : Nat) (out : ParsedMADT)

/-- The `switch` on the type of an entry has two cases that do something. -/
theorem switch_type_eq {α : Type*} (type : BitVec 8) (ioapic iso other : α) :
    (match MADTEntryType.ofByte type with
      | some .ioapic => ioapic
      | some .interruptSourceOverride => iso
      | _ => other) = if type = 1 then ioapic else if type = 2 then iso else other := by
  by_cases hioapic : type = 1
  · rw [hioapic]
    rfl
  · by_cases hiso : type = 2
    · rw [hiso]
      rfl
    · simp only [MADTEntryType.ofByte, if_neg hioapic, if_neg hiso]
      split_ifs <;> rfl

theorem visitEntryLogged_eq :
    visitEntryLogged memory p out = memory.readByte p >>= fun _ =>
      if memory p = 1 then addIOAPIC memory p out
      else if memory p = 2 then addISO memory p out
      else pure out :=
  congrArg (fun rest => memory.readByte p >>= fun _ => rest) (switch_type_eq (memory p)
    (addIOAPIC memory p out) (addISO memory p out) (pure out))

theorem visitEntry_eq :
    visitEntry memory p out =
      if memory p = 1 then (addIOAPIC memory p out).value
      else if memory p = 2 then (addISO memory p out).value
      else out := by
  rw [visitEntry, visitEntryLogged_eq, value_bind, apply_ite value, apply_ite value, value_pure]

theorem addIOAPIC_value :
    (addIOAPIC memory p out).value =
      if h : 12 ≤ (memory (p + 1)).toNat ∧ out.ioapicCount < 8 then
        { out with
          ioapics := out.ioapics.set out.ioapicCount (ioapicAt memory (p + 2)) h.2
          ioapicCount := out.ioapicCount + 1 }
      else out := by
  rw [addIOAPIC, value_bind, value_dite]
  rfl

theorem addISO_value :
    (addISO memory p out).value =
      if h : 10 ≤ (memory (p + 1)).toNat ∧ out.isoCount < 32 then
        { out with
          isos := out.isos.set out.isoCount (isoAt memory (p + 44)) h.2
          isoCount := out.isoCount + 1 }
      else out := by
  rw [addISO, value_bind, value_dite]
  rfl

/-- The I/O APICs after one entry: one more if it is a long enough I/O APIC entry and there is
room. -/
theorem ioapics_visitEntry :
    GuardedSet out.ioapics out.ioapicCount (memory p = 1 ∧ 12 ≤ (memory (p + 1)).toNat)
      (ioapicAt memory (p + 2)) (visitEntry memory p out).ioapics
      (visitEntry memory p out).ioapicCount where
  add := by
    intro h
    rw [visitEntry_eq, if_pos h.1.1, addIOAPIC_value, dif_pos ⟨h.1.2, h.2⟩]
    exact ⟨rfl, rfl⟩
  skip := by
    intro h
    rw [visitEntry_eq]
    by_cases hioapic : memory p = 1
    · rw [if_pos hioapic, addIOAPIC_value, dif_neg fun hadd => h ⟨⟨hioapic, hadd.1⟩, hadd.2⟩]
      exact ⟨rfl, rfl⟩
    · rw [if_neg hioapic, addISO_value]
      split_ifs <;> exact ⟨rfl, rfl⟩

/-- The overrides after one entry: one more if it is a long enough override entry and there is
room, with the values that stand 44 bytes behind the start of the entry. -/
theorem isos_visitEntry :
    GuardedSet out.isos out.isoCount (memory p = 2 ∧ 10 ≤ (memory (p + 1)).toNat)
      (isoAt memory (p + 44)) (visitEntry memory p out).isos
      (visitEntry memory p out).isoCount where
  add := by
    intro h
    have hioapic : memory p ≠ 1 := by
      rw [h.1.1]
      decide
    rw [visitEntry_eq, if_neg hioapic, if_pos h.1.1, addISO_value, dif_pos ⟨h.1.2, h.2⟩]
    exact ⟨rfl, rfl⟩
  skip := by
    intro h
    rw [visitEntry_eq]
    by_cases hiso : memory p = 2
    · rw [if_pos hiso, addISO_value, dif_neg fun hadd => h ⟨⟨hiso, hadd.1⟩, hadd.2⟩,
        addIOAPIC_value]
      split_ifs <;> exact ⟨rfl, rfl⟩
    · rw [if_neg hiso, addIOAPIC_value]
      split_ifs <;> exact ⟨rfl, rfl⟩

theorem foundIOAPICs_visitEntry :
    (visitEntry memory p out).foundIOAPICs =
      (out.foundIOAPICs ++ if memory p = 1 ∧ 12 ≤ (memory (p + 1)).toNat then
        [ioapicAt memory (p + 2)] else []).take 8 :=
  (ioapics_visitEntry memory p out).take_eq

theorem foundISOs_visitEntry :
    (visitEntry memory p out).foundISOs =
      (out.foundISOs ++ if memory p = 2 ∧ 10 ≤ (memory (p + 1)).toNat then
        [isoAt memory (p + 44)] else []).take 32 :=
  (isos_visitEntry memory p out).take_eq

/-- The local APIC address stays. -/
theorem localAPICBase_visitEntry :
    (visitEntry memory p out).localAPICBase = out.localAPICBase := by
  rw [visitEntry_eq, addIOAPIC_value, addISO_value]
  split_ifs <;> rfl

/-- The counters stay within the arrays. -/
theorem counts_foldl_le (places : List Nat) (hioapics : out.ioapicCount ≤ 8)
    (hisos : out.isoCount ≤ 32) :
    (places.foldl (fun out p => visitEntry memory p out) out).ioapicCount ≤ 8 ∧
      (places.foldl (fun out p => visitEntry memory p out) out).isoCount ≤ 32 := by
  induction places generalizing out with
  | nil => exact ⟨hioapics, hisos⟩
  | cons p places ih =>
      exact ih _ ((ioapics_visitEntry memory p out).used_le hioapics)
        ((isos_visitEntry memory p out).used_le hisos)

end Entry

/-! ## Tables of entries -/

/-- The MADT at `madt` holds the entries `records`, which fill it exactly. -/
structure HoldsMADT (memory : Memory) (madt : Nat) (records : List Record) : Prop where
  length : SDTHeader.length memory madt = madtHeaderSize + (serialise records).length
  body : memory.Holds (madt + madtHeaderSize) (serialise records)

/-- The triple stored in an I/O APIC payload: a byte, and two 32-bit words from offset 2 on. -/
def ioapicPayload (payload : List (BitVec 8)) : IOAPICInfo where
  id := Memory.littleEndian (payload.take 1)
  phys := Memory.littleEndian ((payload.drop 2).take 4)
  gsiBase := Memory.littleEndian ((payload.drop 6).take 4)

/-- The triple stored in the payload of an interrupt source override. -/
def isoPayload (payload : List (BitVec 8)) : ISOInfo where
  irq := Memory.littleEndian ((payload.drop 1).take 1)
  gsi := Memory.littleEndian ((payload.drop 2).take 4)
  flags := Memory.littleEndian ((payload.drop 6).take 2)

/-- The triples of the I/O APIC entries, in table order. -/
def ioapicsOf (records : List Record) : List IOAPICInfo :=
  (records.filter fun record => record.tag = 1).map fun record => ioapicPayload record.payload

/-- The triples of the interrupt source overrides, in table order. -/
def isosOf (records : List Record) : List ISOInfo :=
  (records.filter fun record => record.tag = 2).map fun record => isoPayload record.payload

/-- The overrides of the table at `madt` that there is room for, with their places. -/
def keptOverrides (madt : Nat) (records : List Record) : List (Nat × Record) :=
  ((placed (madt + madtHeaderSize) records).filter fun place => place.2.tag = 2).take 32

section Table

variable {memory : Memory} {records : List Record}

theorem ioapicAt_payload {p : Nat} {record : Record} (h : memory.Holds p record.bytes)
    (hsize : 12 ≤ record.size) : ioapicAt memory (p + 2) = ioapicPayload record.payload := by
  have hpayload : memory.Holds (p + 2) record.payload := h.2.2
  have hlength : 10 ≤ record.payload.length := by
    rw [Record.size] at hsize
    omega
  have hid := hpayload.load 0 1 (by omega)
  have hphys := hpayload.load 2 4 (by omega)
  have hbase := hpayload.load 6 4 (by omega)
  have hfields : ioapicAt memory (p + 2) = ⟨memory.load 1 (p + 2), memory.load 4 (p + 2 + 2),
      memory.load 4 (p + 2 + 6)⟩ := rfl
  rw [Nat.add_zero, List.drop_zero] at hid
  rw [hfields, ioapicPayload, hid, hphys, hbase]

theorem isoAt_payload {p : Nat} {record : Record} (h : memory.Holds p record.bytes)
    (hsize : 10 ≤ record.size) : isoAt memory (p + 2) = isoPayload record.payload := by
  have hpayload : memory.Holds (p + 2) record.payload := h.2.2
  have hlength : 8 ≤ record.payload.length := by
    rw [Record.size] at hsize
    omega
  have hfields : isoAt memory (p + 2) = ⟨memory.load 1 (p + 2 + 1), memory.load 4 (p + 2 + 2),
      memory.load 2 (p + 2 + 6)⟩ := rfl
  rw [hfields, isoPayload, hpayload.load 1 1 (by omega), hpayload.load 2 4 (by omega),
    hpayload.load 6 2 (by omega)]

/-- With as many rounds as there are bytes, the loop of `ParseMADT` ends. It visits the entries at
the places where records start. -/
theorem parseTableLogged_value {madt fuel : Nat} (hfuel : SDTHeader.length memory madt < fuel)
    (out : ParsedMADT) :
    (parseTableLogged memory madt fuel out).value =
      some ((recordStarts memory (madt + madtHeaderSize)
        (madt + SDTHeader.length memory madt)).foldl (fun out p => visitEntry memory p out)
          { out with localAPICBase := MADTHeader.localAPICAddress memory madt }) := by
  have hrounds : madt + SDTHeader.length memory madt - (madt + madtHeaderSize) < fuel := by omega
  exact walkRecords_value (visitEntryLogged memory) _ hrounds

/-- What `ParseMADT` makes of the table that `FindTable` returns. -/
theorem parseMADT_found {rsdp madt : Nat}
    (hfound : findTable memory rsdp (some acpiSigMADT) = madt) (hmadt : madt ≠ 0)
    (out : ParsedMADT) :
    parseMADT memory rsdp out =
      (true, (recordStarts memory (madt + madtHeaderSize)
        (madt + SDTHeader.length memory madt)).foldl (fun out p => visitEntry memory p out)
          { out with localAPICBase := MADTHeader.localAPICAddress memory madt }) := by
  simp only [parseMADT, hfound, if_neg hmadt]
  rw [parseTableLogged_value (Nat.lt_succ_self _), Option.getD_some]

/-- Where its entries are records, the loop of `ParseMADT` visits them in order. -/
theorem parseMADT_eq {rsdp madt : Nat} (hfound : findTable memory rsdp (some acpiSigMADT) = madt)
    (hmadt : madt ≠ 0) (hbody : HoldsMADT memory madt records) (out : ParsedMADT) :
    parseMADT memory rsdp out =
      (true, (placed (madt + madtHeaderSize) records).foldl
        (fun out place => visitEntry memory place.1 out)
        { out with localAPICBase := MADTHeader.localAPICAddress memory madt }) := by
  have hstop : madt + SDTHeader.length memory madt =
      madt + madtHeaderSize + (serialise records).length := by
    rw [hbody.length, Nat.add_assoc]
  rw [parseMADT_found hfound hmadt, hstop, recordStarts_serialise _ _ hbody.body, List.foldl_map]

/-- The header bytes of a record in its place. -/
theorem header_of_placed {address : Nat} (h : memory.Holds address (serialise records))
    {place : Nat × Record} (hplace : place ∈ placed address records) :
    memory place.1 = place.2.tag ∧ (memory (place.1 + 1)).toNat = place.2.size := by
  have hbytes := holds_of_mem_placed h hplace
  refine ⟨hbytes.1, ?_⟩
  rw [hbytes.2.1, Record.toNat_size]

/-- The place of a record among the places of the whole list. -/
theorem mem_of_mem_placed {address : Nat} {place : Nat × Record}
    (hplace : place ∈ placed address records) : place.2 ∈ records := by
  rw [← map_snd_placed address records]
  exact List.mem_map_of_mem hplace

/-- The records with a tag, from their places. -/
theorem filter_tag_eq (address : Nat) (tag : BitVec 8) :
    (records.filter fun record => record.tag = tag) =
      ((placed address records).filter fun place => place.2.tag = tag).map Prod.snd := by
  conv_lhs => rw [← map_snd_placed address records, List.filter_map]
  rfl

/-- A loop over the places of the records, whose every step adds the value of a record with the
tag `tag`, ends with the values of the first such records. -/
theorem foldl_placed_collect {α : Type*} (view : ParsedMADT → List α) (capacity : Nat)
    (tag : BitVec 8) (value : Nat → α) {address : Nat} (out : ParsedMADT) (hout : view out = [])
    (hstep : ∀ out, ∀ place ∈ placed address records,
      view (visitEntry memory place.1 out) =
        (view out ++ if place.2.tag = tag then [value place.1] else []).take capacity) :
    view ((placed address records).foldl (fun out place => visitEntry memory place.1 out) out) =
      (((placed address records).filter fun place => place.2.tag = tag).map
        fun place => value place.1).take capacity := by
  have hcollect := foldl_collect view capacity
    (fun out (place : Nat × Record) => visitEntry memory place.1 out)
    (fun place => if place.2.tag = tag then some (value place.1) else none)
    (placed address records) out ?_ (by rw [hout]; exact Nat.zero_le _)
  · rw [hcollect, hout, List.nil_append, ← List.filterMap_eq_map, List.filterMap_filter]
    congr 2
    funext place
    simp only [decide_eq_true_eq]
    rfl
  · intro out place hplace
    rw [hstep out place hplace]
    split_ifs <;> rfl

theorem foundIOAPICs_foldl {address : Nat} (h : memory.Holds address (serialise records))
    (hlong : ∀ record ∈ records, record.tag = 1 → 12 ≤ record.size) (out : ParsedMADT)
    (hout : out.foundIOAPICs = []) :
    ((placed address records).foldl
      (fun out place => visitEntry memory place.1 out) out).foundIOAPICs =
        (ioapicsOf records).take 8 := by
  rw [foldl_placed_collect ParsedMADT.foundIOAPICs 8 1 (fun p => ioapicAt memory (p + 2)) out hout]
  · -- the values read are those of the payloads
    congr 1
    rw [ioapicsOf, filter_tag_eq address, List.map_map]
    apply List.map_congr_left
    intro place hplace
    rw [List.mem_filter, decide_eq_true_eq] at hplace
    exact ioapicAt_payload (holds_of_mem_placed h hplace.1)
      (hlong _ (mem_of_mem_placed hplace.1) hplace.2)
  · intro out place hplace
    obtain ⟨htag, hsize⟩ := header_of_placed h hplace
    have hwanted : (place.2.tag = 1 ∧ 12 ≤ place.2.size) ↔ place.2.tag = 1 :=
      and_iff_left_of_imp (hlong _ (mem_of_mem_placed hplace))
    rw [foundIOAPICs_visitEntry, htag, hsize, if_congr hwanted rfl rfl]

theorem foundISOs_foldl {madt : Nat} (h : memory.Holds (madt + madtHeaderSize) (serialise records))
    (hlong : ∀ record ∈ records, record.tag = 2 → 10 ≤ record.size) (out : ParsedMADT)
    (hout : out.foundISOs = []) :
    ((placed (madt + madtHeaderSize) records).foldl
      (fun out place => visitEntry memory place.1 out) out).foundISOs =
        (keptOverrides madt records).map fun place => isoAt memory (place.1 + 44) := by
  rw [foldl_placed_collect ParsedMADT.foundISOs 32 2 (fun p => isoAt memory (p + 44)) out hout,
    keptOverrides, List.map_take]
  intro out place hplace
  obtain ⟨htag, hsize⟩ := header_of_placed h hplace
  have hwanted : (place.2.tag = 2 ∧ 10 ≤ place.2.size) ↔ place.2.tag = 2 :=
    and_iff_left_of_imp (hlong _ (mem_of_mem_placed hplace))
  rw [foundISOs_visitEntry, htag, hsize, if_congr hwanted rfl rfl]

/-- The overrides of a table, read from their own payloads. -/
theorem isosOf_eq {madt : Nat} (h : memory.Holds (madt + madtHeaderSize) (serialise records))
    (hlong : ∀ record ∈ records, record.tag = 2 → 10 ≤ record.size) :
    (isosOf records).take 32 =
      (keptOverrides madt records).map fun place => isoAt memory (place.1 + 2) := by
  rw [isosOf, filter_tag_eq (madt + madtHeaderSize), List.map_map, keptOverrides, List.map_take]
  congr 1
  apply List.map_congr_left
  intro place hplace
  rw [List.mem_filter, decide_eq_true_eq] at hplace
  exact (isoAt_payload (holds_of_mem_placed h hplace.1)
    (hlong _ (mem_of_mem_placed hplace.1) hplace.2)).symm

/-- The number of values in use, given the values. -/
theorem count_eq_length {α : Type*} {n : Nat} (cells : Vector α n) {used : Nat} (h : used ≤ n) :
    (cells.toList.take used).length = used := by
  rw [List.length_take, Vector.length_toList, Nat.min_eq_left h]

/-- The local APIC address is set once. -/
theorem localAPICBase_foldl (places : List (Nat × Record)) (out : ParsedMADT) :
    (places.foldl (fun out place => visitEntry memory place.1 out) out).localAPICBase =
      out.localAPICBase := by
  induction places generalizing out with
  | nil => rfl
  | cons place places ih => rw [List.foldl_cons, ih, localAPICBase_visitEntry]

end Table

/-! ## The two arrays -/

/-- Through an XSDT whose first table with the signature `APIC` is a MADT of the entries
`records`, `ParseMADT` succeeds and finds the local APIC address and the first 8 I/O APICs, as
the firmware wrote them. -/
theorem parseMADT_ioapics {memory : Memory} {rsdp xsdt madt : Nat} {tables : List Nat}
    {records : List Record} (hrsdp : PointsToXSDT memory rsdp xsdt)
    (hxsdt : ListsTables memory xsdt 8 tables)
    (hfirst : tables.find? (isTable memory acpiSigMADT) = some madt)
    (hmadt : HoldsMADT memory madt records)
    (hlong : ∀ record ∈ records, record.tag = 1 → 12 ≤ record.size) :
    ∃ out, parseMADT memory rsdp ParsedMADT.zeroed = (true, out) ∧
      out.localAPICBase = MADTHeader.localAPICAddress memory madt ∧
      out.ioapicCount = min 8 (ioapicsOf records).length ∧
      out.foundIOAPICs = (ioapicsOf records).take 8 := by
  have hfound : findTable memory rsdp (some acpiSigMADT) = madt := by
    rw [findTable_xsdt hrsdp hxsdt, hfirst, Option.getD_some]
  refine ⟨_, parseMADT_eq hfound (ne_zero_of_find? hfirst) hmadt _, localAPICBase_foldl _ _, ?_⟩
  have hioapics := foundIOAPICs_foldl hmadt.body hlong
    { ParsedMADT.zeroed with localAPICBase := MADTHeader.localAPICAddress memory madt } rfl
  refine ⟨?_, hioapics⟩
  rw [← List.length_take, ← hioapics]
  have hcount := counts_foldl_le memory
    { ParsedMADT.zeroed with localAPICBase := MADTHeader.localAPICAddress memory madt }
    ((placed (madt + madtHeaderSize) records).map Prod.fst)
    (Nat.zero_le 8) (Nat.zero_le 32)
  rw [List.foldl_map] at hcount
  exact (count_eq_length _ hcount.1).symm

/-- An I/O APIC at `0xFEC00000`, and an override that sends IRQ 0 to interrupt 2. -/
def apicRecords : List Record :=
  [⟨1, [0, 0, 0x00, 0x00, 0xC0, 0xFE, 0, 0, 0, 0], by simp⟩,
    ⟨2, [0, 0, 2, 0, 0, 0, 0, 0], by simp⟩]

/-- An RSDP at 320 with its XSDT at 768, which lists a MADT at 1024 with the entries
`apicRecords`. -/
def apicImage : Memory :=
  firmwareImage [(1, 320 + 15, 2), (8, 320 + 24, 768), (4, 768 + 4, 44), (8, 768 + 36, 1024),
    (4, 1024, 0x43495041), (4, 1024 + 4, 66), (4, 1024 + 36, 0xFEE00000),
    (2, 1068, 0x0C01), (4, 1068 + 4, 0xFEC00000), (2, 1080, 0x0A02), (4, 1080 + 4, 2)]

theorem apicImage_rsdp : PointsToXSDT apicImage 320 768 where
  nonnull := by omega
  revision := by decide
  address := rfl

theorem apicImage_xsdt : ListsTables apicImage 768 8 [1024] where
  nonnull := by omega
  length := rfl
  entries := rfl

theorem apicImage_first : [1024].find? (isTable apicImage acpiSigMADT) = some 1024 := rfl

theorem apicImage_madt : HoldsMADT apicImage 1024 apicRecords where
  length := rfl
  body := by decide

/-- The I/O APIC of `apicImage` is found. -/
theorem parseMADT_ioapics_one :
    ∃ out, parseMADT apicImage 320 ParsedMADT.zeroed = (true, out) ∧
      out.localAPICBase = 0xFEE00000 ∧ out.foundIOAPICs = [⟨0, 0xFEC00000, 0⟩] := by
  obtain ⟨out, hout, hbase, -, hioapics⟩ := parseMADT_ioapics apicImage_rsdp apicImage_xsdt
    apicImage_first apicImage_madt (by simp [apicRecords, Record.size])
  exact ⟨out, hout, hbase.trans rfl, hioapics.trans rfl⟩

/-- Where the MADT that `FindTable` returns holds the entries `records`, the overrides come out
as they are stored in their payloads exactly if each of the first 32 has the same triple 44 bytes
behind its start as in its payload, which starts after 2. -/
theorem parseMADT_isos_iff {memory : Memory} {rsdp madt : Nat} {records : List Record}
    (hfound : findTable memory rsdp (some acpiSigMADT) = madt) (hnonnull : madt ≠ 0)
    (hmadt : HoldsMADT memory madt records)
    (hlong : ∀ record ∈ records, record.tag = 2 → 10 ≤ record.size) :
    (parseMADT memory rsdp ParsedMADT.zeroed).2.foundISOs = (isosOf records).take 32 ↔
      ∀ place ∈ keptOverrides madt records,
        isoAt memory (place.1 + 44) = isoAt memory (place.1 + 2) := by
  rw [parseMADT_eq hfound hnonnull hmadt, foundISOs_foldl hmadt.body hlong _ rfl,
    isosOf_eq hmadt.body hlong, List.map_inj_left]

theorem findTable_apicImage : findTable apicImage 320 (some acpiSigMADT) = 1024 := by
  rw [findTable_xsdt apicImage_rsdp apicImage_xsdt, apicImage_first, Option.getD_some]

/-- The bytes of the override stand also where `ParseMADT` reads them. -/
def overrideTwiceImage : Memory := apicImage.store 4 (1080 + 46) 2

/-- The override of `apicImage` does not come out right, since the memory behind the table does
not repeat its bytes. Where it does, the override is found. -/
theorem parseMADT_isos_iff_twice :
    (parseMADT apicImage 320 ParsedMADT.zeroed).2.foundISOs ≠ (isosOf apicRecords).take 32 ∧
      (parseMADT overrideTwiceImage 320 ParsedMADT.zeroed).2.foundISOs = [⟨0, 2, 0⟩] := by
  have hlong : ∀ record ∈ apicRecords, record.tag = 2 → 10 ≤ record.size := by
    simp [apicRecords, Record.size]
  constructor
  · rw [ne_eq, parseMADT_isos_iff findTable_apicImage (by omega) apicImage_madt hlong]
    intro h
    exact absurd (h (1080, ⟨2, [0, 0, 2, 0, 0, 0, 0, 0], by simp⟩) List.mem_cons_self) (by decide)
  · have hfound : findTable overrideTwiceImage 320 (some acpiSigMADT) = 1024 := by
      rw [@findTable_xsdt overrideTwiceImage acpiSigMADT 320 768 [1024] ⟨by omega, by decide, rfl⟩
        ⟨by omega, rfl, rfl⟩]
      rfl
    have hmadt : HoldsMADT overrideTwiceImage 1024 apicRecords := ⟨rfl, by decide⟩
    refine ((parseMADT_isos_iff hfound (by omega) hmadt hlong).2 fun place hplace => ?_).trans rfl
    obtain rfl : place = (1080, ⟨2, [0, 0, 2, 0, 0, 0, 0, 0], by simp⟩) :=
      List.mem_singleton.1 hplace
    decide

/-- The firmware sends IRQ 0 to interrupt 2, but `ParseMADT` reports interrupt 0. -/
theorem parseMADT_reads_other_bytes :
    findTable apicImage 320 (some acpiSigMADT) = 1024 ∧ HoldsMADT apicImage 1024 apicRecords ∧
      (∀ record ∈ apicRecords, record.tag = 2 → 10 ≤ record.size) ∧
      (isosOf apicRecords).take 32 = [⟨0, 2, 0⟩] ∧
      (parseMADT apicImage 320 ParsedMADT.zeroed).2.foundISOs = [⟨0, 0, 0⟩] := by
  have hlong : ∀ record ∈ apicRecords, record.tag = 2 → 10 ≤ record.size := by
    simp [apicRecords, Record.size]
  refine ⟨findTable_apicImage, apicImage_madt, hlong, rfl, ?_⟩
  rw [parseMADT_eq findTable_apicImage (by omega) apicImage_madt,
    foundISOs_foldl apicImage_madt.body hlong _ rfl]
  rfl

end HailOS.ACPI
