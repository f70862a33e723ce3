import HailOS.ACPI.Tables
import HailOS.Lib.AccessLog
import HailOS.Lib.ByteSum

/-!
# The checksum of the RSDP

`ACPIManager` follows the RSDP only if `ValidateRSDPChecksum` accepts it: the sum of its bytes has
to be zero. The bytes of an old RSDP are its first 20, which hold `RSDTAddress`. For a new one
their number is the field `Length` of the structure itself, and every value from 20 on is taken.
`rsdp_protected_iff` says that the address `FindTable` follows is protected against the
alteration of a byte exactly if the RSDP is old or its length reaches to the end of `XSDTAddress`.
-/

namespace HailOS.ACPI

open Lib

/-- The field `Length` of the `RSDPtr` at `rsdp`. -/
def RSDPtr.length (memory : Memory) (rsdp : Nat) : Nat := memory.load 4 (rsdp + 20)

/-- The loop of `ValidateRSDPChecksum`: add the `n` bytes from `p[i]` on to `sum`. -/
def sumLoop (memory : Memory) (p : Nat) : (n i : Nat) → BitVec 8 → BitVec 8
  | 0, _, sum => sum
  | n + 1, i, sum => sumLoop memory p n (i + 1) (sum + memory (p + i))

/-- `ValidateRSDPChecksum`. -/
def validateRSDPChecksum (memory : Memory) (rsdp : Nat) : Bool :=
  if rsdp = 0 then false
  else if RSDPtr.revision memory rsdp < 2 then
    sumLoop memory rsdp 20 0 0 == 0
  else
    let len := RSDPtr.length memory rsdp
    if len < 20 then false
    else sumLoop memory rsdp len 0 0 == 0

/-- The number of bytes that `ValidateRSDPChecksum` adds. -/
def RSDPtr.summed (memory : Memory) (rsdp : Nat) : Nat :=
  if RSDPtr.revision memory rsdp < 2 then 20 else RSDPtr.length memory rsdp

/-- The place of the address that `FindTable` follows, from the start of the `RSDPtr` on:
`RSDTAddress` if it is an old one, and `XSDTAddress` otherwise. -/
def RSDPtr.addressField (memory : Memory) (rsdp : Nat) : Span :=
  if RSDPtr.revision memory rsdp < 2 then ⟨16, 4⟩ else ⟨24, 8⟩

/-- Replace byte `k` of the address that `FindTable` follows. -/
def RSDPtr.alterAddress (memory : Memory) (rsdp k : Nat) (byte : BitVec 8) : Memory :=
  Function.update memory (rsdp + ((RSDPtr.addressField memory rsdp).start + k)) byte

section Accepted

variable {memory : Memory} {rsdp : Nat}

theorem sumLoop_eq (n i : Nat) (sum : BitVec 8) :
    sumLoop memory rsdp n i sum = sum + memory.byteSum (rsdp + i) n := by
  induction n generalizing i sum with
  | zero => rw [sumLoop, Memory.byteSum_zero, add_zero]
  | succ n ih => rw [sumLoop, ih, Memory.byteSum_succ, Nat.add_assoc, add_assoc]

/-- What `ValidateRSDPChecksum` accepts. -/
theorem validateRSDPChecksum_iff :
    validateRSDPChecksum memory rsdp = true ↔
      rsdp ≠ 0 ∧ 20 ≤ RSDPtr.summed memory rsdp ∧
        memory.byteSum rsdp (RSDPtr.summed memory rsdp) = 0 := by
  have hsum (n : Nat) : sumLoop memory rsdp n 0 0 = memory.byteSum rsdp n := by
    rw [sumLoop_eq, zero_add, Nat.add_zero]
  simp only [validateRSDPChecksum, RSDPtr.summed, hsum]
  by_cases hnull : rsdp = 0
  · simp [hnull]
  · by_cases hold : RSDPtr.revision memory rsdp < 2
    · simp [hnull, hold]
    · simp [hnull, hold]

variable {k : Nat} {byte : BitVec 8}

/-- An alteration of the address field leaves the revision and the length. -/
theorem header_alterAddress (hk : k < (RSDPtr.addressField memory rsdp).width) :
    RSDPtr.revision (RSDPtr.alterAddress memory rsdp k byte) rsdp = RSDPtr.revision memory rsdp ∧
      RSDPtr.length (RSDPtr.alterAddress memory rsdp k byte) rsdp =
        RSDPtr.length memory rsdp := by
  have hfield : 16 ≤ (RSDPtr.addressField memory rsdp).start + k ∧
      ((RSDPtr.addressField memory rsdp).start + k < 20 ∨
        24 ≤ (RSDPtr.addressField memory rsdp).start + k) := by
    rw [RSDPtr.addressField] at hk ⊢
    split_ifs at hk ⊢
    · have hk : k < 4 := hk
      show 16 ≤ 16 + k ∧ (16 + k < 20 ∨ 24 ≤ 16 + k)
      omega
    · show 16 ≤ 24 + k ∧ (24 + k < 20 ∨ 24 ≤ 24 + k)
      omega
  constructor
  · refine Memory.load_congr fun i hi => Function.update_of_ne ?_ _ _
    omega
  · refine Memory.load_congr fun i hi => Function.update_of_ne ?_ _ _
    omega

/-- An altered RSDP is accepted exactly if the byte is not summed, or the same as before. -/
theorem validate_alterAddress (hvalid : validateRSDPChecksum memory rsdp = true)
    (hk : k < (RSDPtr.addressField memory rsdp).width) :
    validateRSDPChecksum (RSDPtr.alterAddress memory rsdp k byte) rsdp = true ↔
      RSDPtr.summed memory rsdp ≤ (RSDPtr.addressField memory rsdp).start + k ∨
        byte = memory (rsdp + ((RSDPtr.addressField memory rsdp).start + k)) := by
  obtain ⟨hnull, hlength, hsum⟩ := validateRSDPChecksum_iff.1 hvalid
  obtain ⟨hrevision, hfield⟩ := @header_alterAddress memory rsdp k byte hk
  have hsummed : RSDPtr.summed (RSDPtr.alterAddress memory rsdp k byte) rsdp =
      RSDPtr.summed memory rsdp := by
    rw [RSDPtr.summed, hrevision, hfield, RSDPtr.summed]
  rw [validateRSDPChecksum_iff, hsummed, and_iff_right hnull, and_iff_right hlength, ← hsum]
  exact Memory.byteSum_update_eq_iff

/-- The byte of the address that lies furthest behind is summed. -/
theorem addressField_summed_iff :
    (RSDPtr.addressField memory rsdp).start + (RSDPtr.addressField memory rsdp).width ≤
        RSDPtr.summed memory rsdp ↔
      RSDPtr.revision memory rsdp < 2 ∨ 32 ≤ RSDPtr.length memory rsdp := by
  rw [RSDPtr.addressField, RSDPtr.summed]
  by_cases hold : RSDPtr.revision memory rsdp < 2
  · simp [hold]
  · simp [hold]

end Accepted

/-- Every alteration of one byte of the address that `FindTable` follows is rejected exactly if
the RSDP is old, or its length reaches to the end of `XSDTAddress`. -/
theorem rsdp_protected_iff {memory : Memory} {rsdp : Nat}
    (hvalid : validateRSDPChecksum memory rsdp = true) :
    (∀ k < (RSDPtr.addressField memory rsdp).width,
      ∀ byte ≠ memory (rsdp + ((RSDPtr.addressField memory rsdp).start + k)),
        validateRSDPChecksum (RSDPtr.alterAddress memory rsdp k byte) rsdp = false) ↔
      RSDPtr.revision memory rsdp < 2 ∨ 32 ≤ RSDPtr.length memory rsdp := by
  have hwidth : 0 < (RSDPtr.addressField memory rsdp).width := by
    rw [RSDPtr.addressField]
    split_ifs <;> exact Nat.succ_pos _
  rw [← addressField_summed_iff]
  constructor
  · intro hreject
    -- The last byte of the field is altered to its successor.
    by_contra hshort
    have hlast := hreject ((RSDPtr.addressField memory rsdp).width - 1) (by omega)
      (memory (rsdp + ((RSDPtr.addressField memory rsdp).start +
        ((RSDPtr.addressField memory rsdp).width - 1))) + 1) (by simp)
    rw [(validate_alterAddress hvalid (by omega)).2 (Or.inl (by omega))] at hlast
    cases hlast
  · intro hfits k hk byte hbyte
    rw [Bool.eq_false_iff, Ne, validate_alterAddress hvalid hk, not_or]
    exact ⟨by omega, hbyte⟩

/-- An RSDP of 36 bytes at 320 with both checksums right, and its XSDT at 768. -/
def rsdpImage : Memory :=
  firmwareImage [(8, 320, 0x2052545020445352), (1, 320 + 8, 0xDF), (1, 320 + 15, 2),
    (4, 320 + 20, 36), (8, 320 + 24, 768), (1, 320 + 32, 0xD9)]

/-- No byte of the address in `rsdpImage` can be altered. -/
theorem rsdp_protected_whole :
    validateRSDPChecksum rsdpImage 320 = true ∧
      ∀ k < (RSDPtr.addressField rsdpImage 320).width,
        ∀ byte ≠ rsdpImage (320 + ((RSDPtr.addressField rsdpImage 320).start + k)),
          validateRSDPChecksum (RSDPtr.alterAddress rsdpImage 320 k byte) 320 = false := by
  have hvalid : validateRSDPChecksum rsdpImage 320 = true := by decide
  have hlength : RSDPtr.length rsdpImage 320 = 36 := rfl
  exact ⟨hvalid, (rsdp_protected_iff hvalid).2 (Or.inr (by rw [hlength]; omega))⟩

/-- An RSDP of revision 2 at 320 whose length is 20, with its XSDT at 768. -/
def shortRSDPImage : Memory :=
  firmwareImage [(8, 320, 0x2052545020445352), (1, 320 + 8, 0xDF), (1, 320 + 15, 2),
    (4, 320 + 20, 20), (8, 320 + 24, 768)]

/-- The address of the XSDT of `shortRSDPImage` is not summed: with its first byte altered it is
accepted, and another address is followed. -/
theorem altered_xsdt_accepted :
    validateRSDPChecksum shortRSDPImage 320 = true ∧
      RSDPtr.addressField shortRSDPImage 320 = ⟨24, 8⟩ ∧
      shortRSDPImage (320 + 24) ≠ 0xFF ∧
      validateRSDPChecksum (RSDPtr.alterAddress shortRSDPImage 320 0 0xFF) 320 = true ∧
      RSDPtr.xsdtAddress shortRSDPImage 320 = 768 ∧
      RSDPtr.xsdtAddress (RSDPtr.alterAddress shortRSDPImage 320 0 0xFF) 320 = 1023 := by
  refine ⟨by decide, rfl, by decide, by decide, rfl, rfl⟩

end HailOS.ACPI
