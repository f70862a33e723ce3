import HailOS.ACPI.MADT

/-!
# Reads inside the tables

The firmware tables carry their own lengths, and the kernel is to read no byte behind them. The
logs of the search of `FindTable` and of the loop of `ParseMADT` say what they read.

`xsdt_walk_inside_iff` says that the entries of the XSDT are read inside the table exactly if its
length covers the header: the number of entries is computed with an unsigned subtraction that
wraps around for a shorter one. `parseMADT_safe_iff` says for which MADTs the loop stays inside:
only the header of an entry is checked against the end of the table, and the overrides are read
44 bytes behind their start.
-/

namespace HailOS.ACPI

open Lib Kernel Logged

/-! ## The XSDT -/

section Search

variable {memory : Memory} {sig : CString} {width : Nat}

/-- The search reads at most `n` entries, each of them one of the `n` from `entry` on. -/
theorem searchEntriesLogged_log (entry n : Nat) :
    (searchEntriesLogged memory sig width entry n).log.length ≤ n ∧
      Within (Span.Inside entry (entry + width * n))
        (searchEntriesLogged memory sig width entry n) := by
  induction n generalizing entry with
  | zero => exact ⟨Nat.le_refl 0, within_pure _⟩
  | succ n ih =>
      obtain ⟨hlength, hinside⟩ := ih (entry + width)
      have hfirst : Span.Inside entry (entry + width * (n + 1)) ⟨entry, width⟩ := by
        refine ⟨Nat.le_refl entry, Nat.add_le_add_left ?_ entry⟩
        exact Nat.le_mul_of_pos_right width (Nat.succ_pos n)
      have hrest : entry + width + width * n = entry + width * (n + 1) := by ring
      rw [searchEntriesLogged, log_bind, within_bind, Memory.read, within_access, value_access]
      split
      · exact ⟨Nat.succ_le_succ (Nat.zero_le n), hfirst, within_pure _⟩
      · refine ⟨Nat.succ_le_succ hlength, hfirst, fun span hspan => ?_⟩
        obtain ⟨hlow, hhigh⟩ := hinside span hspan
        exact ⟨Nat.le_trans (Nat.le_add_right entry width) hlow, hrest ▸ hhigh⟩

/-- Where there is an entry, the first one is read. -/
theorem first_entry_read (entry : Nat) {n : Nat} (hn : 0 < n) :
    ⟨entry, width⟩ ∈ (searchEntriesLogged memory sig width entry n).log := by
  obtain ⟨n, rfl⟩ := Nat.exists_eq_succ_of_ne_zero (Nat.ne_of_gt hn)
  exact List.mem_cons_self

/-- The number of entries of an XSDT, over the whole range of lengths. -/
theorem entryCount_xsdt {length : Nat} (h : length < 2 ^ 32) :
    entryCount length 8 =
      if 36 ≤ length then (length - 36) / 8 else 2 ^ 32 - (43 - length) / 8 := by
  unfold entryCount wrap64 sdtHeaderSize
  split <;> omega

/-- Through an XSDT, `FindTable` searches the entries behind its header. -/
theorem findTableLogged_xsdt {rsdp xsdt : Nat} (hrsdp : PointsToXSDT memory rsdp xsdt)
    (hxsdt : xsdt ≠ 0) :
    findTableLogged memory rsdp (some sig) =
      searchEntriesLogged memory sig 8 (xsdt + 36)
        (entryCount (SDTHeader.length memory xsdt) 8) := by
  simp only [findTableLogged, if_neg hrsdp.nonnull, if_pos hrsdp.revision, hrsdp.address,
    if_neg hxsdt]
  rfl

/-- Through an XSDT at `xsdt`, every entry that `FindTable` reads lies inside the table and there
are at most `(Length - 36) / 8` of them, exactly if the length covers the header. -/
theorem xsdt_walk_inside_iff {rsdp xsdt : Nat} (hrsdp : PointsToXSDT memory rsdp xsdt)
    (hxsdt : xsdt ≠ 0) :
    ((∀ slot ∈ (findTableLogged memory rsdp (some sig)).log,
          xsdt ≤ slot.start ∧
            slot.start + slot.width ≤ xsdt + SDTHeader.length memory xsdt) ∧
        (findTableLogged memory rsdp (some sig)).log.length ≤
          (SDTHeader.length memory xsdt - 36) / 8) ↔
      36 ≤ SDTHeader.length memory xsdt := by
  have hfits : SDTHeader.length memory xsdt < 2 ^ 32 := Memory.load_lt 4 memory (xsdt + 4)
  rw [findTableLogged_xsdt hrsdp hxsdt, entryCount_xsdt hfits]
  generalize SDTHeader.length memory xsdt = length at *
  constructor
  · rintro ⟨hinside, -⟩
    by_contra hshort
    rw [if_neg hshort] at hinside
    -- the count wraps around, so the slot behind the header is read
    have hfirst := (hinside _ (first_entry_read (xsdt + 36) (by omega))).2
    have hfirst : xsdt + 36 + 8 ≤ xsdt + length := hfirst
    omega
  · intro hlong
    rw [if_pos hlong]
    obtain ⟨hcount, hinside⟩ := @searchEntriesLogged_log memory sig 8 (xsdt + 36)
      ((length - 36) / 8)
    refine ⟨fun slot hslot => ?_, hcount⟩
    obtain ⟨hlow, hhigh⟩ := hinside slot hslot
    exact ⟨by omega, by omega⟩

end Search

/-- The one entry of the XSDT of `facpImage` lies inside it. -/
theorem xsdt_walk_inside_facp :
    SDTHeader.length facpImage 768 = 44 ∧
      ∀ slot ∈ (findTableLogged facpImage 320 (some facpSignature)).log,
        768 ≤ slot.start ∧ slot.start + slot.width ≤ 768 + SDTHeader.length facpImage 768 := by
  have hlength : SDTHeader.length facpImage 768 = 44 := rfl
  exact ⟨hlength, ((xsdt_walk_inside_iff facpImage_new (by omega)).2 (by rw [hlength]; omega)).1⟩

/-- An RSDP at 320 with its XSDT at 768, whose length is 8. -/
def shortImage : Memory :=
  firmwareImage [(1, 320 + 15, 2), (8, 320 + 24, 768), (4, 768 + 4, 8)]

/-- A table shorter than its own header is read behind its end, for up to `2 ^ 32 - 4` entries. -/
theorem short_xsdt_read_past :
    PointsToXSDT shortImage 320 768 ∧ SDTHeader.length shortImage 768 = 8 ∧
      entryCount (SDTHeader.length shortImage 768) 8 = 2 ^ 32 - 4 ∧
      ⟨768 + 36, 8⟩ ∈ (findTableLogged shortImage 320 (some facpSignature)).log ∧
      ¬ ∀ slot ∈ (findTableLogged shortImage 320 (some facpSignature)).log,
        768 ≤ slot.start ∧ slot.start + slot.width ≤ 768 + SDTHeader.length shortImage 768 := by
  have hlength : SDTHeader.length shortImage 768 = 8 := rfl
  have hcount : entryCount 8 8 = 2 ^ 32 - 4 := by
    rw [entryCount_xsdt (by omega), if_neg (by omega)]
  have hrsdp : PointsToXSDT shortImage 320 768 := ⟨by omega, by decide, rfl⟩
  have hfirst : ⟨768 + 36, 8⟩ ∈ (findTableLogged shortImage 320 (some facpSignature)).log := by
    rw [findTableLogged_xsdt hrsdp (by omega), hlength]
    exact first_entry_read _ (by rw [hcount]; omega)
  refine ⟨hrsdp, hlength, hlength ▸ hcount, hfirst, fun hinside => ?_⟩
  have hpast := (hinside _ hfirst).2
  rw [hlength] at hpast
  have hpast : 768 + 36 + 8 ≤ 768 + 8 := hpast
  omega

/-! ## The MADT -/

section Entries

variable (memory : Memory) (p : Nat)

/-- An entry of an I/O APIC that is long enough. -/
def isLongIOAPIC : Bool := memory p = 1 ∧ 12 ≤ (memory (p + 1)).toNat

/-- An interrupt source override that is long enough. -/
def isLongISO : Bool := memory p = 2 ∧ 10 ≤ (memory (p + 1)).toNat

end Entries

section Reads

variable {memory : Memory} {p low high : Nat} {out : ParsedMADT}

/-- The fields of an I/O APIC lie in the 12 bytes of its entry. -/
theorem readIOAPIC_within (hlow : low ≤ p) :
    Within (Span.Inside low high) (readIOAPIC memory (p + madtEntryHeaderSize)) ↔
      p + 12 ≤ high := by
  simp only [readIOAPIC, within_bind, Memory.read, within_access, within_pure, Span.inside_iff,
    madtEntryHeaderSize, and_true]
  omega

/-- The fields of an override are read up to 52 bytes behind the start of its entry. -/
theorem readISO_within (hlow : low ≤ p) :
    Within (Span.Inside low high) (readISO memory (p + madtHeaderSize)) ↔ p + 52 ≤ high := by
  simp only [readISO, within_bind, Memory.read, within_access, within_pure, Span.inside_iff,
    madtHeaderSize, and_true]
  omega

theorem addIOAPIC_within (hlow : low ≤ p) (hhigh : p + 2 ≤ high) :
    Within (Span.Inside low high) (addIOAPIC memory p out) ↔
      (12 ≤ (memory (p + 1)).toNat ∧ out.ioapicCount < 8 → p + 12 ≤ high) := by
  have hheader : Span.Inside low high ⟨p + 1, 1⟩ := Span.inside_iff.2 (by omega)
  rw [addIOAPIC, within_bind, Memory.readByte, within_access, and_iff_right hheader,
    within_dite]
  refine forall_congr' fun _ => ?_
  rw [within_bind, readIOAPIC_within hlow, and_iff_left (within_pure _)]

theorem addISO_within (hlow : low ≤ p) (hhigh : p + 2 ≤ high) :
    Within (Span.Inside low high) (addISO memory p out) ↔
      (10 ≤ (memory (p + 1)).toNat ∧ out.isoCount < 32 → p + 52 ≤ high) := by
  have hheader : Span.Inside low high ⟨p + 1, 1⟩ := Span.inside_iff.2 (by omega)
  rw [addISO, within_bind, Memory.readByte, within_access, and_iff_right hheader,
    within_dite]
  refine forall_congr' fun _ => ?_
  rw [within_bind, readISO_within hlow, and_iff_left (within_pure _)]

/-- The reads of one entry. -/
theorem visitEntryLogged_within (hlow : low ≤ p) (hhigh : p + 2 ≤ high) :
    Within (Span.Inside low high) (visitEntryLogged memory p out) ↔
      (isLongIOAPIC memory p = true ∧ out.ioapicCount < 8 → p + 12 ≤ high) ∧
        (isLongISO memory p = true ∧ out.isoCount < 32 → p + 52 ≤ high) := by
  have htype : Span.Inside low high ⟨p, 1⟩ := Span.inside_iff.2 (by omega)
  rw [visitEntryLogged_eq, within_bind, Memory.readByte, within_access, and_iff_right htype]
  simp only [isLongIOAPIC, isLongISO, decide_eq_true_eq]
  by_cases hioapic : memory p = 1
  · have hiso : ¬ memory p = 2 := by
      rw [hioapic]
      decide
    rw [if_pos hioapic, addIOAPIC_within hlow hhigh]
    simp only [eq_true hioapic, hiso, true_and, false_and, false_implies, and_true]
  · rw [if_neg hioapic]
    by_cases hiso : memory p = 2
    · rw [if_pos hiso, addISO_within hlow hhigh]
      simp only [eq_true hiso, hioapic, true_and, false_and, false_implies]
    · rw [if_neg hiso]
      simp only [within_pure, hiso, hioapic, false_and, false_implies, and_true]

end Reads

/-- The entries that the loop from `p` on keeps lie inside the table as far as they are read: 12
bytes of an I/O APIC entry, and 52 bytes of an override. -/
def KeptEntriesFit (memory : Memory) (p stop : Nat) (out : ParsedMADT) : Prop :=
  (∀ q ∈ ((recordStarts memory p stop).filter (isLongIOAPIC memory)).take (8 - out.ioapicCount),
    q + 12 ≤ stop) ∧
  (∀ q ∈ ((recordStarts memory p stop).filter (isLongISO memory)).take (32 - out.isoCount),
    q + 52 ≤ stop)

section Loop

variable {memory : Memory} {low stop p : Nat} {out : ParsedMADT}

theorem keptEntriesFit_step (hentry : p + 2 ≤ stop ∧ memory (p + 1) ≠ 0) :
    KeptEntriesFit memory p stop out ↔
      ((isLongIOAPIC memory p = true ∧ out.ioapicCount < 8 → p + 12 ≤ stop) ∧
        (isLongISO memory p = true ∧ out.isoCount < 32 → p + 52 ≤ stop)) ∧
      KeptEntriesFit memory (p + (memory (p + 1)).toNat) stop (visitEntry memory p out) := by
  have hioapics := (ioapics_visitEntry memory p out).used_eq
  have hisos := (isos_visitEntry memory p out).used_eq
  rw [KeptEntriesFit, recordStarts, if_pos hentry,
    forall_kept_cons (by simpa only [isLongIOAPIC, decide_eq_true_eq] using hioapics),
    forall_kept_cons (by simpa only [isLongISO, decide_eq_true_eq] using hisos)]
  exact and_and_and_comm

theorem keptEntriesFit_end (hend : ¬ (p + 2 ≤ stop ∧ memory (p + 1) ≠ 0)) :
    KeptEntriesFit memory p stop out := by
  rw [KeptEntriesFit, recordStarts, if_neg hend]
  simp

/-- With as many rounds as there are bytes left, the loop stays inside the table exactly if the
entries that it keeps do. -/
theorem entryLoop_within {fuel : Nat} (hlow : low ≤ p) (hfuel : stop - p < fuel) :
    Within (Span.Inside low stop) (walkRecords (visitEntryLogged memory) memory stop fuel p out) ↔
      KeptEntriesFit memory p stop out := by
  induction fuel generalizing p out with
  | zero => omega
  | succ fuel ih =>
      have hread : p + 2 ≤ stop → Within (Span.Inside low stop) (memory.readByte (p + 1)) :=
        fun hheader => within_access.2 (Span.inside_iff.2 (by omega))
      by_cases hvisit : p + 2 ≤ stop ∧ memory (p + 1) ≠ 0
      · have hpos : (memory (p + 1)).toNat ≠ 0 := fun h => hvisit.2 (BitVec.eq_of_toNat_eq h)
        have hrest := @ih (p + (memory (p + 1)).toNat) (visitEntry memory p out) (by omega)
          (by omega)
        rw [walkRecords_visit _ fuel out hvisit, within_bind, within_bind,
          and_iff_right (hread hvisit.1), visitEntryLogged_within hlow hvisit.1,
          keptEntriesFit_step hvisit]
        exact and_congr_right fun _ => hrest
      · refine iff_of_true ?_ (keptEntriesFit_end hvisit)
        rw [walkRecords_end _ fuel out hvisit]
        split
        · next hheader => exact within_bind.2 ⟨hread hheader, within_pure _⟩
        · exact within_pure _

end Loop

/-- The reads of `ParseMADT` on the table at `madt`, in terms of the entries that it keeps. -/
theorem parseTableLogged_within {memory : Memory} {madt fuel : Nat} {out : ParsedMADT}
    (hlength : madtHeaderSize ≤ SDTHeader.length memory madt)
    (hfuel : SDTHeader.length memory madt < fuel) :
    Within (Span.Inside madt (madt + SDTHeader.length memory madt))
        (parseTableLogged memory madt fuel out) ↔
      KeptEntriesFit memory (madt + madtHeaderSize) (madt + SDTHeader.length memory madt) out := by
  have hreads := @entryLoop_within memory madt (madt + SDTHeader.length memory madt)
    (madt + madtHeaderSize)
    { out with localAPICBase := MADTHeader.localAPICAddress memory madt } fuel (by omega) (by omega)
  rw [madtHeaderSize] at hlength
  have hbase : Span.Inside madt (madt + SDTHeader.length memory madt) ⟨madt + 36, 4⟩ :=
    Span.inside_iff.2 (by omega)
  have hstop : Span.Inside madt (madt + SDTHeader.length memory madt) ⟨madt + 4, 4⟩ :=
    Span.inside_iff.2 (by omega)
  rw [parseTableLogged, within_bind, within_bind, Memory.read, Memory.read, within_access,
    within_access, and_iff_right hbase, and_iff_right hstop]
  exact hreads

theorem counts_parseMADT_le {memory : Memory} {rsdp : Nat} {out : ParsedMADT}
    (hioapics : out.ioapicCount ≤ 8) (hisos : out.isoCount ≤ 32) :
    (parseMADT memory rsdp out).2.ioapicCount ≤ 8 ∧
      (parseMADT memory rsdp out).2.isoCount ≤ 32 := by
  by_cases hfound : findTable memory rsdp (some acpiSigMADT) = 0
  · rw [parseMADT, if_pos hfound]
    exact ⟨hioapics, hisos⟩
  · rw [parseMADT_found rfl hfound]
    exact counts_foldl_le memory _ _ hioapics hisos

/-- On the MADT that `FindTable` returns, whatever its bytes are, the loop of `ParseMADT` ends
with counters that fit the arrays. Its reads stay inside the table exactly if the entries that it
keeps fit: only the two bytes of their headers are checked. -/
theorem parseMADT_safe_iff {memory : Memory} {rsdp madt : Nat} {out : ParsedMADT}
    (hfound : findTable memory rsdp (some acpiSigMADT) = madt) (hnonnull : madt ≠ 0)
    (hlength : 44 ≤ SDTHeader.length memory madt) (hioapics : out.ioapicCount ≤ 8)
    (hisos : out.isoCount ≤ 32) :
    (∃ rounds, ∀ fuel ≥ rounds, ∃ result,
      (parseTableLogged memory madt fuel out).value = some result ∧
      parseMADT memory rsdp out = (true, result) ∧
      (∀ span ∈ (parseTableLogged memory madt fuel out).log,
        madt ≤ span.start ∧ span.start + span.width ≤ madt + SDTHeader.length memory madt) ∧
      result.ioapicCount ≤ 8 ∧ result.isoCount ≤ 32) ↔
    KeptEntriesFit memory (madt + madtHeaderSize) (madt + SDTHeader.length memory madt) out := by
  have hresult := parseMADT_found hfound hnonnull out
  constructor
  · intro hends
    obtain ⟨rounds, hsafe⟩ := hends
    obtain ⟨result, -, -, hinside, -⟩ :=
      hsafe (rounds + SDTHeader.length memory madt + 1) (by omega)
    exact (parseTableLogged_within hlength (by omega)).1 hinside
  · intro hfit
    refine ⟨SDTHeader.length memory madt + 1, fun fuel hfuel => ?_⟩
    have hcounts := @counts_parseMADT_le memory rsdp out hioapics hisos
    rw [hresult] at hcounts
    exact ⟨_, parseTableLogged_value hfuel out, hresult,
      (parseTableLogged_within hlength hfuel).2 hfit, hcounts⟩

/-- An RSDP at 320 with its XSDT at 768, which lists a MADT at 1024 with one I/O APIC. -/
def ioapicImage : Memory :=
  firmwareImage [(1, 320 + 15, 2), (8, 320 + 24, 768), (4, 768 + 4, 44), (8, 768 + 36, 1024),
    (4, 1024, 0x43495041), (4, 1024 + 4, 56), (4, 1024 + 36, 0xFEE00000),
    (2, 1068, 0x0C01), (4, 1068 + 4, 0xFEC00000)]

theorem findTable_ioapicImage : findTable ioapicImage 320 (some acpiSigMADT) = 1024 := rfl

/-- The entry of `ioapicImage` ends with the table. -/
theorem ioapicImage_fits :
    KeptEntriesFit ioapicImage (1024 + madtHeaderSize)
      (1024 + SDTHeader.length ioapicImage 1024) ParsedMADT.zeroed := by
  have hstop : 1024 + SDTHeader.length ioapicImage 1024 = 1024 + madtHeaderSize + 12 := rfl
  have hstarts : recordStarts ioapicImage (1024 + madtHeaderSize) (1024 + madtHeaderSize + 12) =
      [1068] :=
    recordStarts_serialise _ [⟨1, [0, 0, 0x00, 0x00, 0xC0, 0xFE, 0, 0, 0, 0], by simp⟩] (by decide)
  rw [hstop, KeptEntriesFit, hstarts]
  decide

/-- `ParseMADT` reads the one I/O APIC of `ioapicImage`, and nothing behind the table. -/
theorem parseMADT_safe_one_ioapic :
    ∃ rounds, ∀ fuel ≥ rounds, ∃ result,
      (parseTableLogged ioapicImage 1024 fuel ParsedMADT.zeroed).value = some result ∧
      parseMADT ioapicImage 320 ParsedMADT.zeroed = (true, result) ∧
      (∀ span ∈ (parseTableLogged ioapicImage 1024 fuel ParsedMADT.zeroed).log,
        1024 ≤ span.start ∧
          span.start + span.width ≤ 1024 + SDTHeader.length ioapicImage 1024) ∧
      result.ioapicCount ≤ 8 ∧ result.isoCount ≤ 32 := by
  have hlength : SDTHeader.length ioapicImage 1024 = 56 := rfl
  exact (parseMADT_safe_iff findTable_ioapicImage (by omega) (by rw [hlength]; omega)
    (Nat.zero_le 8) (Nat.zero_le 32)).2 ioapicImage_fits

/-- The MADT of `apicImage` is well formed, but its override is read 35 bytes behind its end. -/
theorem override_read_past_table :
    findTable apicImage 320 (some acpiSigMADT) = 1024 ∧ HoldsMADT apicImage 1024 apicRecords ∧
      SDTHeader.length apicImage 1024 = 66 ∧
      (parseTableLogged apicImage 1024 3 ParsedMADT.zeroed).value.isSome ∧
      ⟨1024 + 66 + 35, 1⟩ ∈ (parseTableLogged apicImage 1024 3 ParsedMADT.zeroed).log ∧
      ¬ ∀ span ∈ (parseTableLogged apicImage 1024 3 ParsedMADT.zeroed).log,
        1024 ≤ span.start ∧
          span.start + span.width ≤ 1024 + SDTHeader.length apicImage 1024 := by
  have hlength : SDTHeader.length apicImage 1024 = 66 := rfl
  have hread : ⟨1024 + 66 + 35, 1⟩ ∈
      (parseTableLogged apicImage 1024 3 ParsedMADT.zeroed).log := by decide
  refine ⟨findTable_apicImage, apicImage_madt, hlength, by decide, hread, fun hinside => ?_⟩
  have hpast := (hinside _ hread).2
  rw [hlength] at hpast
  have hpast : 1024 + 66 + 35 + 1 ≤ 1024 + 66 := hpast
  omega

end HailOS.ACPI
