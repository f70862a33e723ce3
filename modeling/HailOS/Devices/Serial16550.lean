import HailOS.Lib.Registers
import Mathlib.Data.BitVec

/-!
# The serial port

The driver of the 16550 UART, after `Arch/x86_64/IO/Serial/Serial16550.hpp`. A UART has eight
registers behind eight ports. While the top bit of its line control register is set, the first two
of them are the divisor of the bit rate instead of the data and the interrupt enable register. With
the loopback bit of its modem control register set, it receives what it sends. A UART without
loopback sends it all the same. A byte that is written while the transmitter is busy is lost, and a
port without a UART reads as all ones.

`serial_init` says which of the four ports the constructor chooses, how it leaves the UART there,
and that probing leaves the others as they were.
-/

namespace HailOS.Serial

open Lib

/-! ## The device -/

/-- A UART. `busy` is the number of readings of the line status register until the transmitter is
ready, and `delay k` is what it is after byte `k`. -/
structure UART where
  ier : BitVec 4 := 0
  lcr : BitVec 8 := 0
  mcr : BitVec 5 := 0
  fcr : BitVec 8 := 0
  divisorLow : BitVec 8 := 1
  divisorHigh : BitVec 8 := 0
  received : BitVec 8 := 0
  busy : ℕ := 0
  sent : List (BitVec 8) := []
  hasLoopback : Bool := true
  delay : ℕ → ℕ := fun _ => 0

namespace UART

/-- The divisor latch is accessible. -/
def dlab (u : UART) : Bool := u.lcr.getLsbD 7

/-- Read a register. -/
def read (u : UART) (offset : ℕ) : BitVec 8 × UART :=
  match offset with
  | 0 => (if u.dlab then u.divisorLow else u.received, u)
  | 1 => (if u.dlab then u.divisorHigh else u.ier.setWidth 8, u)
  | 3 => (u.lcr, u)
  | 4 => (u.mcr.setWidth 8, u)
  | 5 => (if u.busy = 0 then 0x60#8 else 0x00#8, { u with busy := u.busy - 1 })
  | _ => (0x00#8, u)

/-- Write a byte to the data register. -/
def transmit (u : UART) (v : BitVec 8) : UART :=
  if u.mcr.getLsbD 4 && u.hasLoopback then { u with received := v }
  else if u.busy = 0 then { u with sent := u.sent ++ [v], busy := u.delay u.sent.length }
  else u

/-- Write a register. -/
def write (u : UART) (offset : ℕ) (v : BitVec 8) : UART :=
  match offset with
  | 0 => if u.dlab then { u with divisorLow := v } else u.transmit v
  | 1 => if u.dlab then { u with divisorHigh := v } else { u with ier := v.setWidth 4 }
  | 2 => { u with fcr := v }
  | 3 => { u with lcr := v }
  | 4 => { u with mcr := v.setWidth 5 }
  | _ => u

end UART

/-- The UARTs by the first of their ports. -/
abbrev Bus := BitVec 16 → Option UART

/-- `In8`. -/
def in8 (port : BitVec 16) : StateM Bus (BitVec 8) := fun bus =>
  match bus (port &&& 0xFFF8#16) with
  | some u =>
      ((u.read (port &&& 7#16).toNat).1,
        Function.update bus (port &&& 0xFFF8#16) (some (u.read (port &&& 7#16).toNat).2))
  | none => (0xFF#8, bus)

/-- `Out8`. -/
def out8 (port : BitVec 16) (value : BitVec 8) : StateM Bus Unit := fun bus =>
  match bus (port &&& 0xFFF8#16) with
  | some u =>
      ((), Function.update bus (port &&& 0xFFF8#16) (some (u.write (port &&& 7#16).toNat value)))
  | none => ((), bus)

/-! ## The driver -/

/-- `Serial16550`, without its lock. Where no port responds the source leaves `m_Base` uninitialised
and never uses it. -/
structure Serial16550 where
  base : BitVec 64 := 0
  isReady : Bool := false

/-- `Serial16550::Probe`. -/
def probe (base : BitVec 16) : StateM Bus Bool := do
  let lsr ← in8 (base + 5)
  if lsr = 0xFF#8 then return false
  else
    let ier ← in8 (base + 1)
    let mcr ← in8 (base + 4)
    out8 (base + 4) (mcr ||| 0x10#8)
    out8 base 0xAE#8
    let r ← in8 base
    out8 (base + 4) mcr
    out8 (base + 1) ier
    return r == 0xAE#8

/-- `baseCand`. -/
def baseCand : List (BitVec 16) := [0x3F8#16, 0x2F8#16, 0x3E8#16, 0x2E8#16]

/-- The loop of the constructor: the last port that responds, or 0. -/
def findBase : List (BitVec 16) → BitVec 16 → StateM Bus (BitVec 16)
  | [], base => return base
  | b :: rest, base => do
      if ← probe b then findBase rest b else findBase rest base

/-- The divisor for a bit rate. -/
def divisor (baud : BitVec 32) : BitVec 16 :=
  (115200#32 / (if baud ≠ 0 then baud else 115200#32)).setWidth 16

/-- The registers that the constructor sets. The values that it reads at the end are not used. -/
def configure (base : BitVec 16) (baud : BitVec 32) : StateM Bus Unit := do
  out8 (base + 1) 0x00#8
  out8 (base + 3) 0x80#8
  let div := divisor baud
  out8 base ((div &&& 0xFF#16).setWidth 8)
  out8 (base + 1) (((div >>> 8) &&& 0xFF#16).setWidth 8)
  out8 (base + 3) 0x03#8
  out8 (base + 2) 0xC7#8
  out8 (base + 4) 0x0B#8
  let _ ← in8 (base + 5)
  let _ ← in8 (base + 6)
  let _ ← in8 (base + 2)

/-- The constructor of `Serial16550` that looks for a port. -/
def Serial16550.init (baud : BitVec 32) : StateM Bus Serial16550 := do
  let base ← findBase baseCand 0
  if base = 0 then return {}
  else
    configure base baud
    return { base := base.setWidth 64, isReady := true }

/-! ## One UART -/

variable {bus : Bus} {base : BitVec 16} {u : UART}

/-- The ports of a UART. -/
theorem port_split (hbase : base ∈ baseCand) {k : ℕ} (hk : k < 8) :
    (base + BitVec.ofNat 16 k) &&& 0xFFF8#16 = base ∧
      ((base + BitVec.ofNat 16 k) &&& 7#16).toNat = k := by
  have hall : (baseCand.all fun base => (List.range 8).all fun k =>
      (base + BitVec.ofNat 16 k) &&& 0xFFF8#16 == base &&
        ((base + BitVec.ofNat 16 k) &&& 7#16).toNat == k) = true := by decide +kernel
  have hone := List.all_eq_true.mp (List.all_eq_true.mp hall base hbase) k (List.mem_range.mpr hk)
  rwa [Bool.and_eq_true, beq_iff_eq, beq_iff_eq] at hone

/-- With the UART `u` at `base`, the code gives `a` and leaves the UART `u'` there. It does not
touch the others. -/
def Acts {α : Type} (bus : Bus) (base : BitVec 16) (code : StateM Bus α) (u : UART) (a : α)
    (u' : UART) : Prop :=
  code (Function.update bus base (some u)) = (a, Function.update bus base (some u'))

/-- One piece of code after the other. -/
theorem Acts.bind {α β : Type} {code : StateM Bus α} {rest : α → StateM Bus β} {u u' u'' : UART}
    {a : α} {b : β} (h : Acts bus base code u a u') (h' : Acts bus base (rest a) u' b u'') :
    Acts bus base (code >>= rest) u b u'' := by
  show rest (code (Function.update bus base (some u))).1
    (code (Function.update bus base (some u))).2 = _
  rw [show code (Function.update bus base (some u)) = _ from h]
  exact h'

theorem acts_pure {α : Type} (a : α) : Acts bus base (pure a) u a u := rfl

/-- Reading a register. -/
theorem acts_in8 (hbase : base ∈ baseCand) {port : BitVec 16} {k : ℕ} (hk : k < 8)
    (hport : port = base + BitVec.ofNat 16 k) :
    Acts bus base (in8 port) u (u.read k).1 (u.read k).2 := by
  obtain ⟨hfirst, hoffset⟩ := port_split hbase hk
  simp only [Acts, in8, hport, hfirst, hoffset, Function.update_self, Function.update_idem]

/-- Writing a register. -/
theorem acts_out8 (hbase : base ∈ baseCand) {port : BitVec 16} {k : ℕ} (hk : k < 8)
    (hport : port = base + BitVec.ofNat 16 k) (v : BitVec 8) :
    Acts bus base (out8 port v) u () (u.write k v) := by
  obtain ⟨hfirst, hoffset⟩ := port_split hbase hk
  simp only [Acts, out8, hport, hfirst, hoffset, Function.update_self, Function.update_idem]

/-- What `Probe` does to a UART. -/
def UART.probed (u : UART) : UART :=
  let ier := (u.read 1).1
  let mcr := u.mcr.setWidth 8
  let u := (u.read 5).2
  (((u.write 4 (mcr ||| 0x10#8)).write 0 0xAE#8).write 4 mcr).write 1 ier

/-- The answer of `Probe`. -/
def UART.responds (u : UART) : Bool := u.dlab || u.hasLoopback || u.received == 0xAE#8

theorem probe_absent (hbase : base ∈ baseCand) (h : bus base = none) :
    probe base bus = (false, bus) := by
  obtain ⟨hfirst, -⟩ := port_split hbase (show 5 < 8 by omega)
  have hread : in8 (base + 5) bus = (0xFF#8, bus) := by
    have hnone : bus ((base + 5) &&& 0xFFF8#16) = none := hfirst.symm ▸ h
    simp only [in8, hnone]
  show (if (in8 (base + 5) bus).1 = 0xFF#8 then (pure false : StateM Bus Bool) else _)
    (in8 (base + 5) bus).2 = _
  rw [hread, if_pos rfl]
  rfl

/-- The line status register is never all ones. -/
theorem UART.read_lsr_ne (u : UART) : (u.read 5).1 ≠ 0xFF#8 := by
  show (if u.busy = 0 then 0x60#8 else 0x00#8) ≠ 0xFF#8
  split <;> decide

/-! ### The registers -/

namespace UART

theorem write_data (h : u.dlab = false) (v : BitVec 8) : u.write 0 v = u.transmit v :=
  if_neg (Bool.eq_false_iff.mp h)

theorem write_divisorLow (h : u.dlab = true) (v : BitVec 8) :
    u.write 0 v = { u with divisorLow := v } := if_pos h

theorem write_ier (h : u.dlab = false) (v : BitVec 8) :
    u.write 1 v = { u with ier := v.setWidth 4 } := if_neg (Bool.eq_false_iff.mp h)

theorem write_divisorHigh (h : u.dlab = true) (v : BitVec 8) :
    u.write 1 v = { u with divisorHigh := v } := if_pos h

theorem read_data (h : u.dlab = false) : (u.read 0).1 = u.received :=
  if_neg (Bool.eq_false_iff.mp h)

theorem read_divisorLow (h : u.dlab = true) : (u.read 0).1 = u.divisorLow := if_pos h

theorem read_ier (h : u.dlab = false) : (u.read 1).1 = u.ier.setWidth 8 :=
  if_neg (Bool.eq_false_iff.mp h)

theorem transmit_loopback (hmcr : u.mcr.getLsbD 4 = true) (h : u.hasLoopback = true)
    (v : BitVec 8) : u.transmit v = { u with received := v } :=
  if_pos (by rw [hmcr, h]; rfl)

/-- Without loopback nothing is received, and the line settings stay. -/
theorem transmit_line (h : (u.mcr.getLsbD 4 && u.hasLoopback) = false) (v : BitVec 8) :
    (u.transmit v).received = u.received ∧ (u.transmit v).lcr = u.lcr := by
  rw [transmit, if_neg (Bool.eq_false_iff.mp h)]
  split <;> exact ⟨rfl, rfl⟩

theorem loopback_set (mcr : BitVec 5) :
    ((mcr.setWidth 8 ||| 0x10#8).setWidth 5).getLsbD 4 = true := by
  revert mcr
  decide

/-- What `Probe` reads back. -/
theorem read_back (u : UART) :
    (((((u.read 5).2.write 4 (u.mcr.setWidth 8 ||| 0x10#8)).write 0 0xAE#8).read 0).1 == 0xAE#8) =
      u.responds := by
  let u' : UART :=
    { u with busy := u.busy - 1, mcr := (u.mcr.setWidth 8 ||| 0x10#8).setWidth 5 }
  show (((u'.write 0 0xAE#8).read 0).1 == 0xAE#8) = u.responds
  cases hdlab : u.dlab with
  | true =>
      have hdlab' : u'.dlab = true := hdlab
      have hread := read_divisorLow (u := { u' with divisorLow := 0xAE#8 }) hdlab
      rw [write_divisorLow hdlab', hread, responds, hdlab]
      rfl
  | false =>
      have hdlab' : u'.dlab = false := hdlab
      have hmcr : u'.mcr.getLsbD 4 = true := loopback_set u.mcr
      rw [write_data hdlab', responds, hdlab, Bool.false_or]
      cases hloopback : u.hasLoopback with
      | true =>
          have hloopback' : u'.hasLoopback = true := hloopback
          have hread := read_data (u := { u' with received := 0xAE#8 }) hdlab
          rw [transmit_loopback hmcr hloopback', hread]
          rfl
      | false =>
          have hloopback' : (u'.mcr.getLsbD 4 && u'.hasLoopback) = false := by
            rw [hmcr]
            exact hloopback
          obtain ⟨hreceived, hlcr⟩ := transmit_line hloopback' 0xAE#8
          have hdlab'' : (u'.transmit 0xAE#8).dlab = false := by
            rw [dlab, hlcr]
            exact hdlab
          rw [read_data hdlab'', hreceived, Bool.false_or]

/-- `Probe` leaves a UART with loopback as it was, but for what it received, as long as its divisor
latch is not accessible. -/
theorem probed_loopback (hdlab : u.dlab = false) (hloopback : u.hasLoopback = true) :
    u.probed = { u with received := 0xAE#8, busy := u.busy - 1 } := by
  let u' : UART :=
    { u with busy := u.busy - 1, mcr := (u.mcr.setWidth 8 ||| 0x10#8).setWidth 5 }
  have hdlab' : u'.dlab = false := hdlab
  have hmcr' : u'.mcr.getLsbD 4 = true := loopback_set u.mcr
  have hloopback' : u'.hasLoopback = true := hloopback
  let u'' : UART := { u with received := 0xAE#8, busy := u.busy - 1 }
  have hdlab'' : { u'' with mcr := (u.mcr.setWidth 8).setWidth 5 }.dlab = false := hdlab
  have hmcr : ∀ mcr : BitVec 5, (mcr.setWidth 8).setWidth 5 = mcr := by decide
  have hier : ∀ ier : BitVec 4, (ier.setWidth 8).setWidth 4 = ier := by decide
  show ((u'.write 0 0xAE#8).write 4 (u.mcr.setWidth 8)).write 1 (u.read 1).1 = u''
  rw [write_data hdlab', transmit_loopback hmcr' hloopback', read_ier hdlab]
  show { u'' with mcr := (u.mcr.setWidth 8).setWidth 5 }.write 1 (u.ier.setWidth 8) = u''
  rw [write_ier hdlab'', hmcr, hier]

/-- With the divisor latch accessible, `Probe` writes to the divisor. -/
theorem probed_dlab (hdlab : u.dlab = true) :
    u.probed = { u with divisorLow := 0xAE#8, busy := u.busy - 1 } := by
  let u' : UART :=
    { u with busy := u.busy - 1, mcr := (u.mcr.setWidth 8 ||| 0x10#8).setWidth 5 }
  have hdlab' : u'.dlab = true := hdlab
  let u'' : UART := { u with divisorLow := 0xAE#8, busy := u.busy - 1 }
  have hdlab'' : { u'' with mcr := (u.mcr.setWidth 8).setWidth 5 }.dlab = true := hdlab
  have hmcr : ∀ mcr : BitVec 5, (mcr.setWidth 8).setWidth 5 = mcr := by decide
  have hread : (u.read 1).1 = u.divisorHigh := if_pos hdlab
  show ((u'.write 0 0xAE#8).write 4 (u.mcr.setWidth 8)).write 1 (u.read 1).1 = u''
  rw [write_divisorLow hdlab', hread]
  show { u'' with mcr := (u.mcr.setWidth 8).setWidth 5 }.write 1 u.divisorHigh = u''
  rw [write_divisorHigh hdlab'', hmcr]

/-- The divisor is written with the latch made accessible. -/
theorem write_divisor (low high : BitVec 8) :
    ((u.write 3 0x80#8).write 0 low).write 1 high =
      { u with lcr := 0x80#8, divisorLow := low, divisorHigh := high } := by
  have hdlab : { u with lcr := 0x80#8 }.dlab = true := by
    show (0x80#8).getLsbD 7 = true
    decide
  have hlow : (u.write 3 0x80#8).write 0 low = { u with lcr := 0x80#8, divisorLow := low } :=
    write_divisorLow hdlab low
  have hdlab' : { u with lcr := 0x80#8, divisorLow := low }.dlab = true := hdlab
  rw [hlow, write_divisorHigh hdlab']

/-- What the constructor does to the UART that it chooses. If the divisor latch is accessible at
first, the interrupts of the UART are not disabled. -/
def configured (u : UART) (baud : BitVec 32) : UART :=
  { u with
    ier := if u.dlab then u.ier else 0#4
    lcr := 0x03#8
    mcr := 0x0B#5
    fcr := 0xC7#8
    divisorLow := (divisor baud &&& 0xFF#16).setWidth 8
    divisorHigh := ((divisor baud >>> 8) &&& 0xFF#16).setWidth 8
    busy := u.busy - 1 }

end UART

theorem acts_configure (hbase : base ∈ baseCand) (baud : BitVec 32) :
    Acts bus base (configure base baud) u () (u.configured baud) := by
  have hzero : base = base + BitVec.ofNat 16 0 := (BitVec.add_zero base).symm
  have hcode : ∃ u', Acts bus base (configure base baud) u () u' ∧ u' = u.configured baud := by
    refine ⟨_, .bind (acts_out8 hbase (k := 1) (by omega) rfl _)
      (.bind (acts_out8 hbase (k := 3) (by omega) rfl _)
      (.bind (acts_out8 hbase (k := 0) (by omega) hzero _)
      (.bind (acts_out8 hbase (k := 1) (by omega) rfl _)
      (.bind (acts_out8 hbase (k := 3) (by omega) rfl _)
      (.bind (acts_out8 hbase (k := 2) (by omega) rfl _)
      (.bind (acts_out8 hbase (k := 4) (by omega) rfl _)
      (.bind (acts_in8 hbase (k := 5) (by omega) rfl)
      (.bind (acts_in8 hbase (k := 6) (by omega) rfl)
      (.bind (acts_in8 hbase (k := 2) (by omega) rfl) (acts_pure _)))))))))), ?_⟩
    rw [UART.configured]
    cases hdlab : u.dlab with
    | true =>
        rw [UART.write_divisorHigh hdlab, UART.write_divisor, if_pos rfl]
        rfl
    | false =>
        rw [UART.write_ier hdlab, UART.write_divisor, if_neg Bool.false_ne_true]
        rfl
  obtain ⟨u', h, rfl⟩ := hcode
  exact h

/-- `Probe` on a port with a UART. -/
theorem probe_present (hbase : base ∈ baseCand) :
    Acts bus base (probe base) u u.responds u.probed := by
  have hzero : base = base + BitVec.ofNat 16 0 := (BitVec.add_zero base).symm
  refine .bind (acts_in8 hbase (k := 5) (by omega) rfl) ?_
  rw [if_neg u.read_lsr_ne]
  refine .bind (acts_in8 hbase (k := 1) (by omega) rfl) ?_
  refine .bind (acts_in8 hbase (k := 4) (by omega) rfl) ?_
  refine .bind (acts_out8 hbase (k := 4) (by omega) rfl _) ?_
  refine .bind (acts_out8 hbase (k := 0) (by omega) hzero _) ?_
  refine .bind (acts_in8 hbase (k := 0) (by omega) hzero) ?_
  refine .bind (acts_out8 hbase (k := 4) (by omega) rfl _) ?_
  refine .bind (acts_out8 hbase (k := 1) (by omega) rfl _) ?_
  rw [← u.read_back]
  exact acts_pure _

/-! ## The constructor -/

/-- The port has a UART that responds. -/
def Bus.responds (bus : Bus) (base : BitVec 16) : Bool := (bus base).any UART.responds

/-- `Probe` on any of the ports. -/
theorem probe_eq (hbase : base ∈ baseCand) :
    probe base bus =
      (bus.responds base, Function.update bus base ((bus base).map UART.probed)) := by
  cases hbus : bus base with
  | none =>
      rw [probe_absent hbase hbus, Bus.responds, hbus, Option.map_none, Option.any_none, ← hbus,
        Function.update_eq_self]
  | some u =>
      have hpresent : Acts bus base (probe base) u u.responds u.probed := probe_present hbase
      rw [Acts, ← hbus, Function.update_eq_self] at hpresent
      rw [hpresent, Bus.responds, hbus]
      rfl

/-- The last port that responds, or 0. -/
def Bus.chosen (bus : Bus) (cands : List (BitVec 16)) (base : BitVec 16) : BitVec 16 :=
  lastSet (fun b => if bus.responds b then some b else none) cands base

/-- The loop of the constructor. -/
theorem findBase_eq {cands : List (BitVec 16)} (hcands : ∀ b ∈ cands, b ∈ baseCand)
    (hnodup : cands.Nodup) (bus : Bus) (base : BitVec 16) :
    findBase cands base bus =
      (bus.chosen cands base, fun b => if b ∈ cands then (bus b).map UART.probed else bus b) := by
  induction cands generalizing bus base with
  | nil => simp [findBase, Bus.chosen]; rfl
  | cons b rest ih =>
      obtain ⟨hb, hrest⟩ := List.forall_mem_cons.mp hcands
      obtain ⟨hnotin, hnodup'⟩ := List.nodup_cons.mp hnodup
      have hstep : findBase (b :: rest) base bus =
          findBase rest (if bus.responds b then b else base)
            (Function.update bus b ((bus b).map UART.probed)) := by
        show (if (probe b bus).1 then findBase rest b else findBase rest base) (probe b bus).2 = _
        rw [probe_eq hb]
        cases bus.responds b <;> rfl
      rw [hstep, ih hrest hnodup']
      refine Prod.ext ?_ ?_
      · -- the other ports respond as before
        have hother : rest.filterMap (fun c =>
            if Bus.responds (Function.update bus b ((bus b).map UART.probed)) c then some c
            else none) = rest.filterMap (fun c => if bus.responds c then some c else none) := by
          refine List.filterMap_congr fun c hc => ?_
          have hne : c ≠ b := fun heq => hnotin (heq ▸ hc)
          rw [Bus.responds, Bus.responds, Function.update_of_ne hne]
        show lastSet _ rest _ = lastSet _ (b :: rest) base
        rw [lastSet_cons, lastSet, lastSet, hother]
        cases bus.responds b <;> rfl
      · funext c
        by_cases hcb : c = b
        · rw [hcb]
          simp [hnotin]
        · simp [hcb]

/-- No port responds, or the last one that does is chosen. -/
theorem Bus.chosen_cases (bus : Bus) (cands : List (BitVec 16)) (base : BitVec 16) :
    ((∀ c ∈ cands, bus.responds c = false) ∧ bus.chosen cands base = base) ∨
      ∃ before b after, cands = before ++ b :: after ∧ bus.responds b = true ∧
        (∀ c ∈ after, bus.responds c = false) ∧ bus.chosen cands base = b := by
  induction cands using List.reverseRecOn with
  | nil => exact .inl ⟨fun c hc => absurd hc List.not_mem_nil, rfl⟩
  | append_singleton cands c ih =>
      have hlast : bus.chosen (cands ++ [c]) base =
          if bus.responds c then c else bus.chosen cands base := by
        rw [chosen, lastSet_concat]
        cases bus.responds c <;> rfl
      cases hc : bus.responds c with
      | true =>
          rw [hc, if_pos rfl] at hlast
          exact .inr ⟨cands, c, [], rfl, hc, fun d hd => absurd hd List.not_mem_nil, hlast⟩
      | false =>
          rw [hc, if_neg Bool.false_ne_true] at hlast
          rcases ih with ⟨hnone, hbase⟩ | ⟨before, b, after, hcands, hb, hafter, hchosen⟩
          · refine .inl ⟨fun d hd => ?_, hlast.trans hbase⟩
            rcases List.mem_append.mp hd with hmem | hmem
            · exact hnone d hmem
            · rw [List.mem_singleton.mp hmem, hc]
          · refine .inr ⟨before, b, after ++ [c], ?_, hb, fun d hd => ?_, hlast.trans hchosen⟩
            · rw [hcands, List.append_assoc, List.cons_append]
            · rcases List.mem_append.mp hd with hmem | hmem
              · exact hafter d hmem
              · rw [List.mem_singleton.mp hmem, hc]

/-- All ports are probed. -/
def Bus.probed (bus : Bus) : Bus :=
  fun b => if b ∈ baseCand then (bus b).map UART.probed else bus b

/-- The constructor after the search. -/
theorem init_eq (baud : BitVec 32) (bus : Bus) :
    Serial16550.init baud bus =
      if bus.chosen baseCand 0 = 0 then ({}, bus.probed)
      else ({ base := (bus.chosen baseCand 0).setWidth 64, isReady := true },
        (configure (bus.chosen baseCand 0) baud bus.probed).2) := by
  have hfind := findBase_eq (fun b hb => hb) (show baseCand.Nodup by decide) bus 0
  show (if (findBase baseCand 0 bus).1 = 0 then (pure {} : StateM Bus Serial16550) else do
    configure (findBase baseCand 0 bus).1 baud
    return { base := (findBase baseCand 0 bus).1.setWidth 64, isReady := true })
    (findBase baseCand 0 bus).2 = _
  rw [hfind]
  dsimp only
  split <;> rfl

/-- If no port responds, the driver is not ready. -/
theorem init_not_ready {baud : BitVec 32} (h : ∀ b ∈ baseCand, bus.responds b = false) :
    Serial16550.init baud bus = ({}, bus.probed) := by
  rcases bus.chosen_cases baseCand 0 with ⟨-, hzero⟩ | ⟨before, b, after, hcands, hb, -, -⟩
  · rw [init_eq, if_pos hzero]
  · rw [h b (by simp [hcands])] at hb
    cases hb

/-- Otherwise the last one that does is configured. -/
theorem init_ready {baud : BitVec 32} {before after : List (BitVec 16)}
    (hcands : baseCand = before ++ base :: after) (hbus : bus base = some u)
    (hresponds : u.responds = true) (hafter : ∀ c ∈ after, bus.responds c = false) :
    Serial16550.init baud bus = ({ base := base.setWidth 64, isReady := true },
      Function.update bus.probed base (some (u.probed.configured baud))) := by
  have hmem : base ∈ baseCand := by simp [hcands]
  have hne : base ≠ 0 := by
    rintro rfl
    exact absurd hmem (by decide)
  have hchosen : bus.chosen baseCand 0 = base := by
    have hbase : bus.responds base = true := by rw [Bus.responds, hbus]; exact hresponds
    have hnone : after.filterMap (fun c => if bus.responds c then some c else none) = [] := by
      rw [List.filterMap_eq_nil_iff]
      intro c hc
      rw [hafter c hc]
      exact if_neg Bool.false_ne_true
    rw [Bus.chosen, lastSet, hcands, List.filterMap_append, List.filterMap_cons, hbase, if_pos rfl]
    dsimp only
    rw [hnone, List.getLast?_concat]
    rfl
  have hprobed : bus.probed base = some u.probed := by
    rw [Bus.probed, if_pos hmem, hbus, Option.map_some]
  have hconfigure : Acts bus.probed base (configure base baud) u.probed () _ :=
    acts_configure hmem baud
  rw [Acts, ← hprobed, Function.update_eq_self] at hconfigure
  rw [init_eq, hchosen, if_neg hne, hconfigure]

/-- Probing leaves a UART with loopback as it was, but for what it received and how busy it is. -/
theorem Bus.probed_loopback {c : BitVec 16} (hbus : bus c = some u) (hdlab : u.dlab = false)
    (hloopback : u.hasLoopback = true) :
    ∃ received busy, bus.probed c = some { u with received := received, busy := busy } := by
  unfold probed
  split
  · rw [hbus, Option.map_some, UART.probed_loopback hdlab hloopback]
    exact ⟨_, _, rfl⟩
  · exact ⟨_, _, hbus⟩

/-- The constructor finds the last of the four ports that responds, and configures it. If there is
none, the driver is not ready. A UART on another port with loopback, whose divisor latch is not
accessible, stays as it was but for what it received and how busy it is. In particular nothing is
sent there. -/
theorem serial_init (baud : BitVec 32) (bus : Bus) :
    ∃ serial bus', Serial16550.init baud bus = (serial, bus') ∧
      (serial.isReady = false → ∀ b ∈ baseCand, bus.responds b = false) ∧
      (serial.isReady = true → ∃ before b after u, baseCand = before ++ b :: after ∧
        bus b = some u ∧ u.responds = true ∧ (∀ c ∈ after, bus.responds c = false) ∧
        serial.base = b.setWidth 64 ∧ bus' b = some (u.probed.configured baud)) ∧
      ∀ c u, bus c = some u → u.dlab = false → u.hasLoopback = true →
        (serial.isReady = true → serial.base ≠ c.setWidth 64) →
        ∃ received busy, bus' c = some { u with received := received, busy := busy } := by
  rcases bus.chosen_cases baseCand 0 with
    ⟨hnone, -⟩ | ⟨before, b, after, hcands, hb, hafter, -⟩
  · exact ⟨_, _, init_not_ready hnone, fun _ => hnone, fun h => absurd h Bool.false_ne_true,
      fun c u hbus hdlab hloopback _ => Bus.probed_loopback hbus hdlab hloopback⟩
  · obtain ⟨u, hu, hresponds⟩ : ∃ u, bus b = some u ∧ u.responds = true := by
      rwa [Bus.responds, Option.any_eq_true] at hb
    refine ⟨_, _, init_ready hcands hu hresponds hafter, fun h => absurd h.symm Bool.false_ne_true,
      fun _ => ⟨before, b, after, u, hcands, hu, hresponds, hafter, rfl,
        Function.update_self ..⟩, ?_⟩
    intro c u' hbus hdlab hloopback hother
    have hcb : c ≠ b := fun heq => hother rfl (heq ▸ rfl)
    rw [Function.update_of_ne hcb]
    exact Bus.probed_loopback hbus hdlab hloopback

end HailOS.Serial
