import HailOS.Lib.Registers
import HailOS.Lib.Word

/-!
# Routing interrupts through the I/O APIC

After `Arch/x86_64/APIC/IOAPIC.cpp`. The I/O APIC is a file of 32-bit registers behind the select
register and the window that `Sel` and `Win` point at. Register 1 holds the index of the last
redirection entry, and entry `i` takes the two registers from `0x10 + 2 * i` on.

`route_gsi_writes_entry` says what any sequence of `RouteGSI` calls leaves in the redirection
table. The check of the interrupt number reads a register through the same select register, but
only the select register is shared: no call writes a register below `0x10`.
-/

namespace HailOS.APIC.IOAPIC

open Lib

/-- The registers of an I/O APIC. -/
abbrev IORegisters := WindowedRegisters (BitVec 32) (BitVec 32)

/-- `IOAPIC::Read`. -/
def read (reg : BitVec 32) (chip : IORegisters) : BitVec 32 × IORegisters :=
  let chip := chip.writeSelect reg
  (chip.readWindow, chip)

/-- `IOAPIC::Write`. -/
def write (reg val : BitVec 32) (chip : IORegisters) : IORegisters :=
  let chip := chip.writeSelect reg
  chip.writeWindow val

/-- `IOAPIC::Version`. -/
def version (chip : IORegisters) : BitVec 32 × IORegisters := read 0x01#32 chip

/-- `IOAPIC::RedirCount`. -/
def redirCount (chip : IORegisters) : BitVec 32 × IORegisters :=
  let (version, chip) := version chip
  ((version >>> 16) &&& 0xFF#32, chip)

/-- `IOAPIC::ReadRedir`. -/
def readRedir (idx : BitVec 32) (chip : IORegisters) : BitVec 64 × IORegisters :=
  let regLo := 0x10#32 + idx * 2#32
  let regHi := regLo + 1#32
  let (lo, chip) := read regLo chip
  let (hi, chip) := read regHi chip
  (lo.setWidth 64 ||| (hi.setWidth 64 <<< 32), chip)

/-- `IOAPIC::WriteRedir`. -/
def writeRedir (idx : BitVec 32) (val : BitVec 64) (chip : IORegisters) : IORegisters :=
  let regLo := 0x10#32 + idx * 2#32
  let regHi := regLo + 1#32
  let chip := write regHi ((val >>> 32).setWidth 32) chip
  write regLo ((val &&& 0xFFFFFFFF#64).setWidth 32) chip

/-- `IOAPIC::OwnsGSI`, for the GSI base `m_GSIBase`. -/
def ownsGSI (gsiBase gsi : BitVec 32) (chip : IORegisters) : Bool × IORegisters :=
  let (count, chip) := redirCount chip
  let max := count + 1#32
  (decide (gsi ≥ gsiBase) && decide (gsi < gsiBase + max), chip)

/-- The arguments of `RouteGSI`. -/
structure Route where
  gsi : BitVec 32
  vector : BitVec 8
  destAPICID : BitVec 8
  polarity : BitVec 8
  trigger : BitVec 8
  masked : Bool := false

/-- The low half of the entry that `RouteGSI` builds. -/
def Route.low (call : Route) : BitVec 32 :=
  let lo := 0#32
  let lo := lo ||| call.vector.setWidth 32
  let lo := if call.polarity ≠ 0#8 then lo ||| (1#32 <<< 13) else lo
  let lo := if call.trigger ≠ 0#8 then lo ||| (1#32 <<< 15) else lo
  if call.masked then lo ||| (1#32 <<< 16) else lo

/-- `IOAPIC::RouteGSI`. -/
def routeGSI (gsiBase : BitVec 32) (chip : IORegisters) (call : Route) : IORegisters :=
  let (owns, chip) := ownsGSI gsiBase call.gsi chip
  if ¬ owns then chip
  else
    let idx := call.gsi - gsiBase
    let hi := call.destAPICID.setWidth 32 <<< 24
    writeRedir idx ((hi.setWidth 64 <<< 32) ||| call.low.setWidth 64) chip

/-! ## Entries -/

/-- The layout of a redirection entry: the vector in bits 0 to 7, the polarity in bit 13, the
trigger mode in bit 15, the mask in bit 16 and the destination in bits 56 to 63. -/
def Route.entry (call : Route) : BitVec 64 :=
  call.destAPICID ++ 0#39 ++ BitVec.ofBool call.masked ++ BitVec.ofBool (call.trigger != 0#8) ++
    0#1 ++ BitVec.ofBool (call.polarity != 0#8) ++ 0#5 ++ call.vector

/-- The bits of the low half. -/
theorem Route.getLsbD_low (call : Route) (i : Nat) :
    call.low.getLsbD i =
      (call.vector.getLsbD i || (decide (i = 13) && call.polarity != 0#8) ||
        (decide (i = 15) && call.trigger != 0#8) || (decide (i = 16) && call.masked)) := by
  have hbit : ∀ k < 32, (1#32 <<< k).getLsbD i = decide (i = k) := by
    intro k hk
    by_cases hik : i = k
    · simp [hik, hk]
    · by_cases hlt : i < k
      · simp [hik, hlt]
      · have hne : i - k ≠ 0 := by omega
        simp [hik, hlt, hne]
  have hor : ∀ (c : Bool) (x y : BitVec 32),
      (if c then x ||| y else x).getLsbD i = (x.getLsbD i || (y.getLsbD i && c)) := by
    intro c x y
    cases c <;> simp
  have hpolarity : (call.polarity ≠ 0#8) = ((call.polarity != 0#8) = true) := by simp
  have htrigger : (call.trigger ≠ 0#8) = ((call.trigger != 0#8) = true) := by simp
  simp only [Route.low, hpolarity, htrigger, hor, hbit _ (show 13 < 32 by omega),
    hbit _ (show 15 < 32 by omega), hbit _ (show 16 < 32 by omega), BitVec.getLsbD_or,
    BitVec.getLsbD_zero, Bool.false_or, BitVec.getLsbD_setWidth]
  by_cases hi : i < 32
  · simp [hi]
  · simp [hi, BitVec.getLsbD_of_ge call.vector i (by omega)]

/-- The value that `RouteGSI` writes is the entry. -/
theorem Route.entry_eq (call : Route) :
    (((call.destAPICID.setWidth 32 <<< 24).setWidth 64 <<< 32) ||| call.low.setWidth 64) =
      call.entry := by
  apply BitVec.eq_of_getLsbD_eq
  intro i hi
  have hvector : ∀ j, 8 ≤ j → call.vector.getLsbD j = false := fun j hj =>
    BitVec.getLsbD_of_ge _ _ hj
  simp only [Route.entry, Route.getLsbD_low, BitVec.getLsbD_or, BitVec.getLsbD_shiftLeft,
    BitVec.getLsbD_setWidth, BitVec.getLsbD_append, BitVec.getLsbD_ofBool]
  grind

/-- The two halves of an entry make up the entry. -/
theorem join_halves (val : BitVec 64) :
    ((val &&& 0xFFFFFFFF#64).setWidth 32).setWidth 64 |||
      (((val >>> 32).setWidth 32).setWidth 64 <<< 32) = val := by
  have hmask : ∀ i < 32, (0xFFFFFFFF#64).getLsbD i = true := by decide
  apply BitVec.eq_of_getLsbD_eq
  intro i hi
  simp only [BitVec.getLsbD_or, BitVec.getLsbD_shiftLeft, BitVec.getLsbD_setWidth,
    BitVec.getLsbD_and, BitVec.getLsbD_ushiftRight]
  by_cases hlow : i < 32
  · simp [hlow, hi, hmask i hlow]
  · have hindex : 32 + (i - 32) = i := by omega
    have hhalf : i - 32 < 32 := by omega
    have hword : i - 32 < 64 := by omega
    simp [hlow, hi, hindex, hhalf, hword]

/-! ## What one call does -/

/-- The index of the last redirection entry, from the version register. -/
def maxEntry (chip : IORegisters) : Nat :=
  ((chip.registers 0x01#32 >>> 16) &&& 0xFF#32).toNat

variable {gsiBase gsi idx : BitVec 32} {chip : IORegisters}

theorem maxEntry_le (chip : IORegisters) : maxEntry chip ≤ 255 := by
  rw [maxEntry, BitVec.toNat_and]
  exact Nat.and_le_right

/-- The registers of an entry. -/
theorem toNat_regLo (hidx : idx.toNat ≤ 255) :
    (0x10#32 + idx * 2#32).toNat = 16 + 2 * idx.toNat := by
  rw [BitVec.toNat_add, BitVec.toNat_mul]
  show (16 + idx.toNat * 2 % 2 ^ 32) % 2 ^ 32 = _
  omega

theorem toNat_regHi (hidx : idx.toNat ≤ 255) :
    (0x10#32 + idx * 2#32 + 1#32).toNat = 17 + 2 * idx.toNat := by
  rw [BitVec.toNat_add, toNat_regLo hidx]
  show (16 + 2 * idx.toNat + 1) % 2 ^ 32 = _
  omega

/-- What `ReadRedir` returns. -/
theorem readRedir_value (idx : BitVec 32) (chip : IORegisters) :
    (readRedir idx chip).1 =
      (chip.registers (0x10#32 + idx * 2#32)).setWidth 64 |||
        ((chip.registers (0x10#32 + idx * 2#32 + 1#32)).setWidth 64 <<< 32) := rfl

/-- What `WriteRedir` writes. -/
theorem writeRedir_registers (idx : BitVec 32) (val : BitVec 64) (chip : IORegisters) :
    (writeRedir idx val chip).registers =
      Function.update
        (Function.update chip.registers (0x10#32 + idx * 2#32 + 1#32)
          ((val >>> 32).setWidth 32))
        (0x10#32 + idx * 2#32) ((val &&& 0xFFFFFFFF#64).setWidth 32) := rfl

/-- Writing an entry changes that entry only. -/
theorem readRedir_writeRedir {i : BitVec 32} (hi : i.toNat ≤ 255) (hidx : idx.toNat ≤ 255)
    (val : BitVec 64) (chip : IORegisters) :
    (readRedir i (writeRedir idx val chip)).1 = if i = idx then val else (readRedir i chip).1 := by
  have hlo := toNat_regLo hi
  have hhi := toNat_regHi hi
  have hlo' := toNat_regLo hidx
  have hhi' := toNat_regHi hidx
  have hcross : 0x10#32 + i * 2#32 + 1#32 ≠ 0x10#32 + idx * 2#32 := fun heq => by
    have := congrArg BitVec.toNat heq
    omega
  have hcross' : 0x10#32 + i * 2#32 ≠ 0x10#32 + idx * 2#32 + 1#32 := fun heq => by
    have := congrArg BitVec.toNat heq
    omega
  rw [readRedir_value, readRedir_value, writeRedir_registers]
  by_cases heq : i = idx
  · subst heq
    rw [if_pos rfl, Function.update_self, Function.update_of_ne hcross, Function.update_self,
      join_halves]
  · have hne : i.toNat ≠ idx.toNat := fun h => heq (BitVec.eq_of_toNat_eq h)
    have hsame : 0x10#32 + i * 2#32 ≠ 0x10#32 + idx * 2#32 := fun heq => by
      have := congrArg BitVec.toNat heq
      omega
    have hsame' : 0x10#32 + i * 2#32 + 1#32 ≠ 0x10#32 + idx * 2#32 + 1#32 := fun heq => by
      have := congrArg BitVec.toNat heq
      omega
    rw [if_neg heq, Function.update_of_ne hsame, Function.update_of_ne hcross',
      Function.update_of_ne hcross, Function.update_of_ne hsame']

/-- Writing an entry leaves the registers below `0x10` alone. -/
theorem writeRedir_low {reg : BitVec 32} (hreg : reg.toNat < 16) (hidx : idx.toNat ≤ 255)
    (val : BitVec 64) : (writeRedir idx val chip).registers reg = chip.registers reg := by
  have hlo : reg ≠ 0x10#32 + idx * 2#32 := fun heq => by
    rw [heq, toNat_regLo hidx] at hreg
    omega
  have hhi : reg ≠ 0x10#32 + idx * 2#32 + 1#32 := fun heq => by
    rw [heq, toNat_regHi hidx] at hreg
    omega
  rw [writeRedir_registers, Function.update_of_ne hlo, Function.update_of_ne hhi]

/-- The interrupt number belongs to the chip. -/
def Owned (gsiBase : BitVec 32) (chip : IORegisters) (gsi : BitVec 32) : Prop :=
  gsiBase.toNat ≤ gsi.toNat ∧ gsi.toNat ≤ gsiBase.toNat + maxEntry chip

/-- `OwnsGSI` tests the range, if its end is a 32-bit number. -/
theorem ownsGSI_iff (hfits : gsiBase.toNat + maxEntry chip + 1 < 2 ^ 32) :
    (ownsGSI gsiBase gsi chip).1 = true ↔ Owned gsiBase chip gsi := by
  have hcount : (redirCount chip).1.toNat = maxEntry chip := rfl
  have hmax : (gsiBase + ((redirCount chip).1 + 1#32)).toNat =
      gsiBase.toNat + maxEntry chip + 1 := by
    have hone : (1#32).toNat = 1 := rfl
    rw [BitVec.toNat_add, BitVec.toNat_add, hcount, hone]
    omega
  show (decide (gsi ≥ gsiBase) && decide (gsi < gsiBase + ((redirCount chip).1 + 1#32))) = true ↔ _
  rw [Bool.and_eq_true, decide_eq_true_iff, decide_eq_true_iff, BitVec.lt_def, hmax, Owned]
  exact and_congr Iff.rfl (by omega)

/-- What one call does to the registers. -/
theorem routeGSI_cases (hfits : gsiBase.toNat + maxEntry chip + 1 < 2 ^ 32) (call : Route) :
    (Owned gsiBase chip call.gsi ∧
        (call.gsi - gsiBase).toNat = call.gsi.toNat - gsiBase.toNat ∧
        (routeGSI gsiBase chip call).registers =
          (writeRedir (call.gsi - gsiBase) call.entry chip).registers) ∨
      (¬ Owned gsiBase chip call.gsi ∧
        (routeGSI gsiBase chip call).registers = chip.registers) := by
  by_cases howned : Owned gsiBase chip call.gsi
  · refine .inl ⟨howned, BitVec.toNat_sub_of_le howned.1, ?_⟩
    have howns : (ownsGSI gsiBase call.gsi chip).1 = true := (ownsGSI_iff hfits).2 howned
    simp only [routeGSI, howns, not_true_eq_false, if_false, Route.entry_eq]
    rfl
  · refine .inr ⟨howned, ?_⟩
    have howns : ¬ (ownsGSI gsiBase call.gsi chip).1 = true := mt (ownsGSI_iff hfits).1 howned
    simp only [routeGSI, if_pos howns]
    rfl

/-- A call for another interrupt number changes no register. -/
theorem routeGSI_not_owned (hfits : gsiBase.toNat + maxEntry chip + 1 < 2 ^ 32) {call : Route}
    (howned : ¬ Owned gsiBase chip call.gsi) :
    (routeGSI gsiBase chip call).registers = chip.registers := by
  rcases routeGSI_cases hfits call with ⟨h, -⟩ | ⟨-, h⟩
  · exact absurd h howned
  · exact h

/-- No call changes a register below `0x10`. -/
theorem routeGSI_low (hfits : gsiBase.toNat + maxEntry chip + 1 < 2 ^ 32) (call : Route)
    {reg : BitVec 32} (hreg : reg.toNat < 16) :
    (routeGSI gsiBase chip call).registers reg = chip.registers reg := by
  rcases routeGSI_cases hfits call with ⟨howned, hidx, hregisters⟩ | ⟨-, hregisters⟩
  · have hmax := maxEntry_le chip
    have hend := howned.2
    rw [hregisters]
    exact writeRedir_low hreg (by omega) _
  · rw [hregisters]

theorem maxEntry_routeGSI (hfits : gsiBase.toNat + maxEntry chip + 1 < 2 ^ 32) (call : Route) :
    maxEntry (routeGSI gsiBase chip call) = maxEntry chip := by
  have hone : (0x01#32).toNat < 16 := by decide
  rw [maxEntry, routeGSI_low hfits call hone]
  rfl

/-- What one call does to the value of an entry. -/
theorem readRedir_routeGSI (hfits : gsiBase.toNat + maxEntry chip + 1 < 2 ^ 32) (call : Route)
    {i : BitVec 32} (hi : i.toNat ≤ maxEntry chip) :
    (readRedir i (routeGSI gsiBase chip call)).1 =
      (if call.gsi = gsiBase + i then some call.entry else none).getD (readRedir i chip).1 := by
  have hmax := maxEntry_le chip
  have hgsi : (gsiBase + i).toNat = gsiBase.toNat + i.toNat := by
    rw [BitVec.toNat_add, Nat.mod_eq_of_lt (by omega)]
  have hiff : call.gsi = gsiBase + i ↔ call.gsi.toNat = gsiBase.toNat + i.toNat := by
    rw [← BitVec.toNat_inj, hgsi]
  rw [readRedir_value]
  rcases routeGSI_cases hfits call with ⟨howned, hidx, hregisters⟩ | ⟨howned, hregisters⟩
  · have hlow := howned.1
    have hend := howned.2
    have hwritten := readRedir_writeRedir (by omega : i.toNat ≤ 255)
      (by omega : (call.gsi - gsiBase).toNat ≤ 255) call.entry chip
    rw [hregisters, ← readRedir_value, hwritten]
    have hsame : i = call.gsi - gsiBase ↔ call.gsi = gsiBase + i := by
      rw [hiff, ← BitVec.toNat_inj, hidx]
      omega
    simp only [hsame]
    split
    · rfl
    · rfl
  · have hne : call.gsi ≠ gsiBase + i := fun heq => howned (by
      rw [Owned, hiff.1 heq]
      omega)
    rw [hregisters, if_neg hne]
    rfl

/-! ## Sequences of calls -/

/-- The calls of `RouteGSI`, one after the other. -/
def routeAll (gsiBase : BitVec 32) (chip : IORegisters) (calls : List Route) : IORegisters :=
  calls.foldl (routeGSI gsiBase) chip

/-- After any calls, entry `i` holds the encoding of the last call for its interrupt number, or
what it held before if there was none, and a call for a number outside the range of the chip
changes no register. -/
theorem route_gsi_writes_entry (gsiBase : BitVec 32) (chip : IORegisters) (calls : List Route)
    (hfits : gsiBase.toNat + maxEntry chip + 1 < 2 ^ 32) :
    (∀ i : BitVec 32, i.toNat ≤ maxEntry chip →
        (readRedir i (routeAll gsiBase chip calls)).1 =
          lastSet (fun call => if call.gsi = gsiBase + i then some call.entry else none) calls
            (readRedir i chip).1) ∧
      ∀ call : Route, ¬ Owned gsiBase chip call.gsi →
        (routeGSI gsiBase (routeAll gsiBase chip calls) call).registers =
          (routeAll gsiBase chip calls).registers := by
  -- the version register stays as it is, so the range of the chip does too
  have hstep : ∀ chip' call, maxEntry chip' = maxEntry chip →
      maxEntry (routeGSI gsiBase chip' call) = maxEntry chip := by
    intro chip' call hmax
    rw [maxEntry_routeGSI (by rw [hmax]; exact hfits), hmax]
  constructor
  · intro i hi
    refine foldl_lastSet (fun chip => (readRedir i chip).1) hstep ?_ calls rfl
    intro chip' call hmax
    exact readRedir_routeGSI (by rw [hmax]; exact hfits) call (by rw [hmax]; exact hi)
  · intro call howned
    have hmax : maxEntry (routeAll gsiBase chip calls) = maxEntry chip :=
      foldl_invariant hstep calls rfl
    refine routeGSI_not_owned (by rw [hmax]; exact hfits) ?_
    rw [Owned, hmax]
    exact howned

/-- A chip with 24 entries has the interrupt numbers from 16 on. Number 18 is routed to vector 0x30
and then to vector 0x31 with the mask set. The entry of number 17 stays as it is, and a call for
number 3 changes no register. -/
theorem route_gsi_writes_entry_twice :
    let calls : List Route :=
      [⟨18#32, 0x30#8, 0#8, 0#8, 0#8, false⟩, ⟨18#32, 0x31#8, 2#8, 0#8, 1#8, true⟩]
    let chip : IORegisters :=
      ⟨0#32, fun reg => if reg = 0x01#32 then 0x00170011#32 else 0x00010000#32⟩
    maxEntry chip = 23 ∧
      (readRedir 2#32 (routeAll 16#32 chip calls)).1 = 0x0200000000018031#64 ∧
      (readRedir 1#32 (routeAll 16#32 chip calls)).1 = 0x0001000000010000#64 ∧
      (routeGSI 16#32 (routeAll 16#32 chip calls)
        ⟨3#32, 0x32#8, 0#8, 0#8, 0#8, false⟩).registers =
          (routeAll 16#32 chip calls).registers := by
  intro calls chip
  have hmax : maxEntry chip = 23 := by decide
  obtain ⟨hentry, hframe⟩ := route_gsi_writes_entry 16#32 chip calls (by rw [hmax]; decide)
  refine ⟨hmax, (hentry 2#32 (by rw [hmax]; decide)).trans (by decide),
    (hentry 1#32 (by rw [hmax]; decide)).trans (by decide), hframe _ ?_⟩
  rintro ⟨hlow, -⟩
  exact absurd hlow (by decide)

end HailOS.APIC.IOAPIC
