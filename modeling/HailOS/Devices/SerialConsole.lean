import HailOS.Devices.Serial16550
import HailOS.ErrorHandling.Panic
import HailOS.Lib.Text
import Mathlib.Data.List.TakeWhile

/-!
# The serial console

`SerialConsole` writes its texts to the serial port, after `Devices/Console/SerialConsole.hpp` and
the rest of `Serial16550.hpp`. For every byte it waits until the transmitter is ready. The model of
a panic knows of a serial console only whether it is ready and what was sent to it, and `Wire` says
how that stands for a UART.

`serial_wire` says that the texts get through: what leaves the UART, with the carriage returns taken
out again, is what was put out since the constructor. `panic_readable` says that the status and the
parameters of a panic can be read from the line.
-/

namespace HailOS.Serial

open Lib Kernel Early Console Sync ErrorHandling

namespace Serial16550

/-- A port of the UART. -/
def port (serial : Serial16550) (k : BitVec 64) : BitVec 16 := (serial.base + k).setWidth 16

/-- `Serial16550::CanTx`. -/
def canTx (serial : Serial16550) : StateM Bus Bool := do
  if !serial.isReady then return false
  else
    let lsr ← in8 (serial.port 5)
    return lsr &&& 0x20#8 != 0#8

/-- The loop `while (!CanTx())`, with at most `fuel` tests. -/
def waitTx (serial : Serial16550) : (fuel : ℕ) → Bus → Option Bus
  | 0, _ => none
  | fuel + 1, bus =>
      if (serial.canTx bus).1 then some (serial.canTx bus).2
      else waitTx serial fuel (serial.canTx bus).2

/-- `Serial16550::WriteByte`. -/
def writeByte (serial : Serial16550) (fuel : ℕ) (bus : Bus) (v : BitVec 8) : Option Bus :=
  if !serial.isReady then some bus
  else (serial.waitTx fuel bus).map fun bus => (out8 (serial.port 0) v bus).2

/-- `SerialConsole::PutChar`, which is also the body of the loop of `Serial16550::Write`. -/
def putChar (serial : Serial16550) (fuel : ℕ) (bus : Bus) (ch : BitVec 8) : Option Bus :=
  if ch = newline then do
    let bus ← serial.writeByte fuel bus 0x0D#8
    serial.writeByte fuel bus ch
  else serial.writeByte fuel bus ch

/-- The loop of `Serial16550::Write`. -/
def writeLoop (serial : Serial16550) (fuel : ℕ) (bus : Bus) : List (BitVec 8) → Option Bus
  | [] => some bus
  | ch :: str =>
      if ch = 0 then some bus
      else do
        let bus ← serial.putChar fuel bus ch
        writeLoop serial fuel bus str

/-- `SerialConsole::PutString`. -/
def putString (serial : Serial16550) (fuel : ℕ) (bus : Bus) (str : List (BitVec 8)) : Option Bus :=
  if !serial.isReady then some bus else serial.writeLoop fuel bus str

/-- `SerialConsole::Flush`. -/
def flush (serial : Serial16550) (fuel : ℕ) (bus : Bus) : Option Bus :=
  if !serial.isReady then some bus else serial.waitTx fuel bus

/-- The effect of a call of `SerialConsole`. -/
def exec (serial : Serial16550) (fuel : ℕ) (bus : Bus) : ConsoleOp → Option Bus
  | .putChar ch => serial.putChar fuel bus ch
  | .putString str => serial.putString fuel bus str
  | .flush => serial.flush fuel bus
  | .reset => some bus

end Serial16550

/-! ## Sending a byte -/

/-- The UART sends what is written to it, and takes fewer than `fuel` readings for every byte. -/
structure UART.Online (u : UART) (fuel : ℕ) : Prop where
  dlab : u.dlab = false
  loopback : u.mcr.getLsbD 4 = false
  busy : u.busy < fuel
  delay : ∀ k, u.delay k < fuel

variable {bus : Bus} {base : BitVec 16} {u : UART} {serial : Serial16550} {fuel : ℕ}

/-- The driver uses the UART at `base`. -/
structure Serial16550.On (serial : Serial16550) (base : BitVec 16) : Prop where
  mem : base ∈ baseCand
  base : serial.base = base.setWidth 64
  isReady : serial.isReady = true

theorem Serial16550.On.port (h : serial.On base) (k : ℕ) :
    serial.port (BitVec.ofNat 64 k) = base + BitVec.ofNat 16 k := by
  rw [Serial16550.port, h.base, BitVec.setWidth_add _ _ (by omega)]
  simp

theorem acts_canTx (h : serial.On base) :
    Acts bus base serial.canTx u (decide (u.busy = 0)) { u with busy := u.busy - 1 } := by
  have hread : Acts bus base (in8 (serial.port 5)) u _ _ :=
    acts_in8 h.mem (k := 5) (by omega) (h.port 5)
  have hbit : ((u.read 5).1 &&& 0x20#8 != 0#8) = decide (u.busy = 0) := by
    show ((if u.busy = 0 then 0x60#8 else 0x00#8) &&& 0x20#8 != 0#8) = _
    by_cases hbusy : u.busy = 0
    · simp [hbusy]
    · simp [hbusy]
  rw [Serial16550.canTx, h.isReady, if_neg (by decide), ← hbit]
  exact .bind hread (acts_pure _)

/-- The wait ends when the transmitter is ready. -/
theorem waitTx_update (h : serial.On base) (hbusy : u.busy < fuel) :
    serial.waitTx fuel (Function.update bus base (some u)) =
      some (Function.update bus base (some { u with busy := 0 })) := by
  induction fuel generalizing u with
  | zero => omega
  | succ fuel ih =>
      have hcan : serial.canTx (Function.update bus base (some u)) = _ := acts_canTx h
      rw [Serial16550.waitTx, hcan]
      by_cases hzero : u.busy = 0
      · rw [if_pos (decide_eq_true hzero), hzero]
      · rw [if_neg (by simpa using hzero)]
        exact ih (show u.busy - 1 < fuel by omega)

theorem acts_send (h : serial.On base) (hu : u.Online fuel) (hbusy : u.busy = 0) (v : BitVec 8) :
    Acts bus base (out8 (serial.port 0) v) u ()
      { u with sent := u.sent ++ [v], busy := u.delay u.sent.length } := by
  have hport : serial.port 0 = base + BitVec.ofNat 16 0 := h.port 0
  have hwrite : u.write 0 v = { u with sent := u.sent ++ [v], busy := u.delay u.sent.length } := by
    rw [UART.write_data hu.dlab, UART.transmit, hu.loopback, Bool.false_and,
      if_neg Bool.false_ne_true, if_pos hbusy]
  rw [← hwrite]
  exact acts_out8 h.mem (by omega) hport v

/-! ## The calls -/

/-- The serial console that a panic knows of stands for the driver, where `before` is what the UART
had sent before. -/
structure Wire (serial : Serial16550) (fuel : ℕ) (before : List (BitVec 8)) (bus : Bus)
    (console : SerialConsole) : Prop where
  ready : console.isReady = serial.isReady
  line : serial.isReady = true → ∃ base u, serial.On base ∧ bus base = some u ∧ u.Online fuel ∧
    u.sent = before ++ console.sent

variable {before : List (BitVec 8)} {console : SerialConsole}

theorem Wire.writeByte (h : Wire serial fuel before bus console) (v : BitVec 8) :
    ∃ bus', serial.writeByte fuel bus v = some bus' ∧
      Wire serial fuel before bus' (console.writeByte v) := by
  rw [Serial16550.writeByte, SerialConsole.writeByte, h.ready]
  cases hready : serial.isReady with
  | false =>
      refine ⟨bus, rfl, ?_⟩
      rw [if_pos (by rfl)]
      exact h
  | true =>
      obtain ⟨base, u, hon, hbus, hu, hsent⟩ := h.line hready
      have hwait : serial.waitTx fuel (Function.update bus base (some u)) = _ :=
        waitTx_update hon hu.busy
      rw [← hbus, Function.update_eq_self] at hwait
      have hidle : { u with busy := 0 }.Online fuel :=
        ⟨hu.dlab, hu.loopback, Nat.lt_of_le_of_lt (Nat.zero_le _) hu.busy, hu.delay⟩
      have hsend : out8 (serial.port 0) v (Function.update bus base (some { u with busy := 0 })) =
        _ := acts_send hon hidle rfl v
      rw [if_neg (by decide), if_neg (by decide), hwait, Option.map_some, hsend]
      refine ⟨_, rfl, hready.symm, fun _ => ⟨base, _, hon, Function.update_self .., ?_, ?_⟩⟩
      · exact ⟨hu.dlab, hu.loopback, hu.delay _, hu.delay⟩
      · show u.sent ++ [v] = before ++ (console.sent ++ [v])
        rw [hsent, List.append_assoc]

theorem Wire.putChar (h : Wire serial fuel before bus console) (ch : BitVec 8) :
    ∃ bus', serial.putChar fuel bus ch = some bus' ∧
      Wire serial fuel before bus' (console.putChar ch) := by
  rw [Serial16550.putChar, SerialConsole.putChar]
  split
  · obtain ⟨bus₁, hreturn, h₁⟩ := h.writeByte 0x0D#8
    obtain ⟨bus₂, hfeed, h₂⟩ := h₁.writeByte ch
    exact ⟨bus₂, Option.bind_eq_some_iff.mpr ⟨bus₁, hreturn, hfeed⟩, h₂⟩
  · exact h.writeByte ch

theorem Wire.writeLoop (h : Wire serial fuel before bus console) (str : List (BitVec 8)) :
    ∃ bus', serial.writeLoop fuel bus str = some bus' ∧
      Wire serial fuel before bus' (console.writeLoop str) := by
  induction str generalizing bus console with
  | nil => exact ⟨bus, rfl, h⟩
  | cons ch str ih =>
      rw [Serial16550.writeLoop, SerialConsole.writeLoop]
      split
      · exact ⟨bus, rfl, h⟩
      · obtain ⟨bus₁, hput, h₁⟩ := h.putChar ch
        obtain ⟨bus₂, hloop, h₂⟩ := ih h₁
        exact ⟨bus₂, Option.bind_eq_some_iff.mpr ⟨bus₁, hput, hloop⟩, h₂⟩

theorem Wire.flush (h : Wire serial fuel before bus console) :
    ∃ bus', serial.flush fuel bus = some bus' ∧ Wire serial fuel before bus' console := by
  rw [Serial16550.flush]
  cases hready : serial.isReady with
  | false => exact ⟨bus, rfl, h⟩
  | true =>
      obtain ⟨base, u, hon, hbus, hu, hsent⟩ := h.line hready
      have hwait : serial.waitTx fuel (Function.update bus base (some u)) = _ :=
        waitTx_update hon hu.busy
      rw [← hbus, Function.update_eq_self] at hwait
      rw [if_neg (by decide), hwait]
      refine ⟨_, rfl, h.ready, fun _ => ⟨base, _, hon, Function.update_self .., ?_, hsent⟩⟩
      exact ⟨hu.dlab, hu.loopback, Nat.lt_of_le_of_lt (Nat.zero_le _) hu.busy, hu.delay⟩

/-- Every call gets through, and does to the line what it does to the console. -/
theorem Wire.exec (h : Wire serial fuel before bus console) (op : ConsoleOp) :
    ∃ bus', serial.exec fuel bus op = some bus' ∧
      Wire serial fuel before bus' (console.exec op) := by
  cases op with
  | putChar ch => exact h.putChar ch
  | putString str =>
      show ∃ bus', serial.putString fuel bus str = some bus' ∧
        Wire serial fuel before bus' (console.putString str)
      rw [Serial16550.putString, SerialConsole.putString, h.ready]
      split
      · exact ⟨bus, rfl, h⟩
      · exact h.writeLoop str
  | flush => exact h.flush
  | reset => exact ⟨bus, rfl, h⟩

/-- So do sequences of calls. -/
theorem Wire.run (h : Wire serial fuel before bus console) (ops : List ConsoleOp) :
    ∃ bus', ops.foldlM (serial.exec fuel) bus = some bus' ∧
      Wire serial fuel before bus' (ops.foldl SerialConsole.exec console) := by
  induction ops generalizing bus console with
  | nil => exact ⟨bus, rfl, h⟩
  | cons op ops ih =>
      obtain ⟨bus₁, hexec, h₁⟩ := h.exec op
      obtain ⟨bus₂, hrun, h₂⟩ := ih h₁
      exact ⟨bus₂, Option.bind_eq_some_iff.mpr ⟨bus₁, hexec, hrun⟩, h₂⟩

/-! ## The text -/

/-- The text that a call puts out. -/
def text : ConsoleOp → List (BitVec 8)
  | .putChar ch => [ch]
  | .putString str => str.takeWhile (· ≠ 0)
  | .flush | .reset => []

/-- The bytes of a text on the line. -/
def onLine (text : List (BitVec 8)) : List (BitVec 8) := withReturns 0x0D#8 newline text

/-- The text on the line. -/
def fromLine (bytes : List (BitVec 8)) : List (BitVec 8) := withoutReturns 0x0D#8 newline bytes

theorem fromLine_onLine (text : List (BitVec 8)) : fromLine (onLine text) = text :=
  withoutReturns_withReturns (by decide) text

theorem onLine_append (first second : List (BitVec 8)) :
    onLine (first ++ second) = onLine first ++ onLine second := withReturns_append first second

/-- A byte is sent. -/
theorem writeByte_ready (hready : console.isReady = true) (v : BitVec 8) :
    console.writeByte v = ⟨true, console.sent ++ [v]⟩ := by
  rw [SerialConsole.writeByte, hready, if_neg (by decide)]

theorem putChar_ready (hready : console.isReady = true) (ch : BitVec 8) :
    console.putChar ch = ⟨true, console.sent ++ onLine [ch]⟩ := by
  rw [SerialConsole.putChar, onLine, withReturns]
  split
  · rw [writeByte_ready hready, writeByte_ready rfl, List.append_assoc]
    rfl
  · rw [writeByte_ready hready]
    rfl

theorem writeLoop_ready (hready : console.isReady = true) (str : List (BitVec 8)) :
    console.writeLoop str = ⟨true, console.sent ++ onLine (str.takeWhile (· ≠ 0))⟩ := by
  induction str generalizing console with
  | nil =>
      rw [SerialConsole.writeLoop, List.takeWhile_nil, onLine, withReturns, List.append_nil,
        ← hready]
  | cons ch str ih =>
      rw [SerialConsole.writeLoop, List.takeWhile_cons]
      by_cases hch : ch = 0
      · rw [if_pos hch, if_neg (by simpa using hch), onLine, withReturns, List.append_nil, ← hready]
      · rw [if_neg hch, if_pos (by simpa using hch), putChar_ready hready, ih rfl,
          List.append_assoc, ← onLine_append, List.singleton_append]

/-- What a sequence of calls sends. -/
theorem run_ready (hready : console.isReady = true) (ops : List ConsoleOp) :
    ops.foldl SerialConsole.exec console = ⟨true, console.sent ++ onLine (ops.flatMap text)⟩ := by
  have hexec : ∀ (console : SerialConsole) (op : ConsoleOp), console.isReady = true →
      console.exec op = ⟨true, console.sent ++ onLine (text op)⟩ := by
    intro console op hready
    cases op with
    | putChar ch => exact putChar_ready hready ch
    | putString str =>
        show console.putString str = _
        rw [SerialConsole.putString, hready, if_neg (by decide), writeLoop_ready hready]
        rfl
    | flush =>
        show console = ⟨true, console.sent ++ []⟩
        rw [List.append_nil, ← hready]
    | reset =>
        show console = ⟨true, console.sent ++ []⟩
        rw [List.append_nil, ← hready]
  induction ops generalizing console with
  | nil =>
      show console = ⟨true, console.sent ++ []⟩
      rw [List.append_nil, ← hready]
  | cons op ops ih =>
      rw [List.foldl_cons, hexec console op hready, ih rfl, List.flatMap_cons, onLine_append,
        List.append_assoc]

/-! ## From the constructor to the line -/

/-- Probing sends nothing through a UART with loopback, or with its divisor latch accessible. -/
theorem probed_line (h : u.dlab = true ∨ u.hasLoopback = true) :
    u.probed.sent = u.sent ∧ u.probed.busy ≤ u.busy ∧ u.probed.delay = u.delay := by
  cases hdlab : u.dlab with
  | true =>
      rw [UART.probed_dlab hdlab]
      exact ⟨rfl, Nat.sub_le _ _, rfl⟩
  | false =>
      rw [UART.probed_loopback hdlab (h.resolve_left (Bool.eq_false_iff.mp hdlab))]
      exact ⟨rfl, Nat.sub_le _ _, rfl⟩

/-- A UART as `Probe` looks for. -/
structure UART.Works (u : UART) (fuel : ℕ) : Prop where
  loopback : u.dlab = true ∨ u.hasLoopback = true
  busy : u.busy < fuel
  delay : ∀ k, u.delay k < fuel

theorem UART.Works.responds (h : u.Works fuel) : u.responds = true := by
  rw [UART.responds, Bool.or_eq_true, Bool.or_eq_true]
  exact .inl h.loopback

/-- The UART that the constructor has configured. -/
theorem UART.Works.online (h : u.Works fuel) (baud : BitVec 32) :
    (u.probed.configured baud).Online fuel := by
  obtain ⟨-, hbusy, hdelay⟩ := probed_line h.loopback
  refine ⟨?_, ?_, ?_, ?_⟩
  · show (0x03#8).getLsbD 7 = false
    decide
  · show (0x0B#5).getLsbD 4 = false
    decide
  · have hlt := h.busy
    show u.probed.busy - 1 < fuel
    omega
  · intro k
    show u.probed.delay k < fuel
    rw [hdelay]
    exact h.delay k

/-- The driver and its console after the constructor. -/
theorem wire_init {baud : BitVec 32} {before after : List (BitVec 16)}
    (hcands : baseCand = before ++ base :: after) (hbus : bus base = some u) (hu : u.Works fuel)
    (hafter : ∀ c ∈ after, bus.responds c = false) :
    (Serial16550.init baud bus).1.On base ∧
      Wire (Serial16550.init baud bus).1 fuel u.sent (Serial16550.init baud bus).2 ⟨true, []⟩ := by
  have hon : Serial16550.On { base := base.setWidth 64, isReady := true } base :=
    ⟨by simp [hcands], rfl, rfl⟩
  rw [init_ready hcands hbus hu.responds hafter]
  refine ⟨hon, rfl, fun _ => ⟨base, _, hon, Function.update_self .., hu.online baud, ?_⟩⟩
  rw [List.append_nil]
  exact (probed_line hu.loopback).1

/-- The line of the driver. -/
theorem Wire.sent (h : Wire serial fuel before bus console) (hon : serial.On base) :
    ∃ u, bus base = some u ∧ u.sent = before ++ console.sent := by
  obtain ⟨base', u, hon', hbus, -, hsent⟩ := h.line hon.isReady
  have hbase : base' = base := by
    have hwide : base'.setWidth 64 = base.setWidth 64 := hon'.base.symm.trans hon.base
    have hnarrow := congrArg (BitVec.setWidth 16) hwide
    simpa using hnarrow
  exact ⟨u, hbase ▸ hbus, hsent⟩

/-- Texts get through. Let the last port that responds have a UART that works. Whatever is put out
after the constructor, the driver does not wait for ever, and what leaves the UART is the text, with
a carriage return before every line feed. With these taken out it is the text. -/
theorem serial_wire {baud : BitVec 32} {before after : List (BitVec 16)}
    (hcands : baseCand = before ++ base :: after) (hbus : bus base = some u) (hu : u.Works fuel)
    (hafter : ∀ c ∈ after, bus.responds c = false) (ops : List ConsoleOp) :
    ∃ bus' u', ops.foldlM ((Serial16550.init baud bus).1.exec fuel)
        (Serial16550.init baud bus).2 = some bus' ∧
      bus' base = some u' ∧ u'.sent = u.sent ++ onLine (ops.flatMap text) ∧
      fromLine (u'.sent.drop u.sent.length) = ops.flatMap text := by
  obtain ⟨hon, hwire⟩ := wire_init hcands hbus hu hafter
  obtain ⟨bus', hrun, hwire'⟩ := hwire.run ops
  obtain ⟨u', hbus', hsent⟩ := hwire'.sent hon
  rw [run_ready rfl, List.nil_append] at hsent
  refine ⟨bus', u', hrun, hbus', hsent, ?_⟩
  rw [hsent, List.drop_left, fromLine_onLine]

/-- A UART at the first port, and nothing at the others. -/
def oneUART : Bus := Function.update (fun _ => none) 0x3F8#16 (some {})

theorem oneUART_works : UART.Works {} 1 :=
  ⟨.inr rfl, Nat.one_pos, fun _ => Nat.one_pos⟩

theorem oneUART_others : ∀ c ∈ [0x2F8#16, 0x3E8#16, 0x2E8#16], oneUART.responds c = false := by
  intro c hc
  have hne : c ≠ 0x3F8#16 := by
    rintro rfl
    simp at hc
  rw [Bus.responds, oneUART, Function.update_of_ne hne]
  rfl

/-- A short text. -/
theorem serial_wire_short : ∃ bus' u',
    [ConsoleOp.putString (ascii "ok\n")].foldlM ((Serial16550.init 115200#32 oneUART).1.exec 1)
      (Serial16550.init 115200#32 oneUART).2 = some bus' ∧
    bus' 0x3F8#16 = some u' ∧ u'.sent = ascii "ok\r\n" := by
  obtain ⟨bus', u', hrun, hbus, hsent, -⟩ := serial_wire
    (show baseCand = [] ++ 0x3F8#16 :: [0x2F8#16, 0x3E8#16, 0x2E8#16] from rfl) rfl
    oneUART_works oneUART_others [.putString (ascii "ok\n")]
  exact ⟨bus', u', hrun, hbus, hsent⟩

/-! ## Reading a panic report -/

/-- The number that a text of `ULongToHexString` stands for. -/
def readHex (str : List (BitVec 8)) : ℕ :=
  readDigits 16 ((str.drop 2).map fun digit => hexDigits.idxOf digit)

/-- The digits of a number. -/
theorem ulongToHexString_eq (n : BitVec 64) :
    ulongToHexString n =
      ascii "0x" ++ (topDigits 16 16 16 n.toNat).map fun digit => hexDigits.getD digit 0 := by
  rw [ulongToHexString, topDigits, List.map_map]
  congr 1
  refine List.map_congr_left fun i _ => ?_
  have hmask : ∀ m : ℕ, m &&& 0xF = m % 16 := fun m => Nat.and_two_pow_sub_one_eq_mod m 4
  show hexDigits.getD ((n >>> ((15 - i) * 4)) &&& 0xF#64).toNat 0 = _
  rw [BitVec.toNat_and, BitVec.toNat_ushiftRight, Nat.shiftRight_eq_div_pow,
    show (0xF#64).toNat = 0xF from rfl, hmask, Nat.mul_comm (15 - i) 4, Nat.pow_mul]
  rfl

/-- The numbers of a report can be read. -/
theorem readHex_ulongToHexString (n : BitVec 64) : readHex (ulongToHexString n) = n.toNat := by
  have hdigit : ∀ digit < 16, hexDigits.idxOf (hexDigits.getD digit 0) = digit := by decide
  have hdigits : (topDigits 16 16 16 n.toNat).map
      (fun digit => hexDigits.idxOf (hexDigits.getD digit 0)) = topDigits 16 16 16 n.toNat := by
    refine (List.map_congr_left fun digit hmem => ?_).trans (List.map_id _)
    exact hdigit digit (lt_of_mem_topDigits (by omega) hmem)
  rw [readHex, ulongToHexString_eq]
  show readDigits 16 (((topDigits 16 16 16 n.toNat).map fun digit => hexDigits.getD digit 0).map
    fun digit => hexDigits.idxOf digit) = _
  rw [List.map_map]
  show readDigits 16 ((topDigits 16 16 16 n.toNat).map
    fun digit => hexDigits.idxOf (hexDigits.getD digit 0)) = _
  have hlt : n.toNat < 16 ^ 16 := n.isLt
  rw [hdigits, readDigits_topDigits (Nat.le_refl _) hlt, Nat.sub_self, Nat.pow_zero, Nat.div_one]

/-- Neither a terminator nor a line feed is among the bytes. -/
def OneLine (str : List (BitVec 8)) : Prop := 0 ∉ str ∧ newline ∉ str

theorem oneLine_ulongToHexString (n : BitVec 64) : OneLine (ulongToHexString n) := by
  have hdigit : ∀ digit < 16, hexDigits.getD digit 0 ≠ 0 ∧ hexDigits.getD digit 0 ≠ newline := by
    decide
  have hmem : ∀ byte ∈ ulongToHexString n, byte ≠ 0 ∧ byte ≠ newline := by
    rw [ulongToHexString_eq]
    intro byte hbyte
    rcases List.mem_append.mp hbyte with h | h
    · have hlabel : ∀ byte ∈ ascii "0x", byte ≠ 0 ∧ byte ≠ newline := by decide
      exact hlabel byte h
    · obtain ⟨digit, hdigits, rfl⟩ := List.mem_map.mp h
      exact hdigit digit (lt_of_mem_topDigits (by omega) hdigits)
  exact ⟨fun h => (hmem 0 h).1 rfl, fun h => (hmem newline h).2 rfl⟩

/-- What a report says. -/
structure Report where
  status : Option ℕ
  fileName : Option (List (BitVec 8))
  line : Option ℕ
  func : Option (List (BitVec 8))
  params : List (Option ℕ)
  deriving DecidableEq

/-- The label of a parameter. -/
def paramLabels : List (List (BitVec 8)) :=
  [ascii "Param1:", ascii "Param2:", ascii "Param3:", ascii "Param4:"]

/-- Read a report, each field by its label. -/
def readReport (text : List (BitVec 8)) : Report where
  status := (readField newline (ascii "Panic! Status:") text).map readHex
  fileName := readField newline (ascii "In file:") text
  line := (readField newline (ascii "Line:") text).map readHex
  func := readField newline (ascii "Function:") text
  params := paramLabels.map fun label => (readField newline label text).map readHex

/-- What the arguments of a panic say. -/
def report (args : PanicArgs) : Report where
  status := some args.status.toNat
  fileName := args.fileName
  line := if 0 ≤ args.line.toInt then some args.line.toNat else none
  func := args.func
  params := [some args.param1.toNat, some args.param2.toNat, some args.param3.toNat,
    some args.param4.toNat]

/-- The lines of the report. -/
def reportFields (args : PanicArgs) : List (List (BitVec 8) × List (BitVec 8)) :=
  (ascii "Panic! Status:", ulongToHexString (args.status.setWidth 64)) ::
    ((args.fileName.map fun name => (ascii "In file:", name)).toList ++
    ((if 0 ≤ args.line.toInt then
      [(ascii "Line:", ulongToHexString (args.line.signExtend 64))] else []) ++
    ((args.func.map fun name => (ascii "Function:", name)).toList ++
    [(ascii "Param1:", ulongToHexString args.param1),
      (ascii "Param2:", ulongToHexString args.param2),
      (ascii "Param3:", ulongToHexString args.param3),
      (ascii "Param4:", ulongToHexString args.param4)])))

/-- The names in a report are single lines. -/
structure Named (args : PanicArgs) : Prop where
  fileName : ∀ name ∈ args.fileName, OneLine name
  func : ∀ name ∈ args.func, OneLine name

variable {args : PanicArgs}

theorem text_putString {str : List (BitVec 8)} (h : 0 ∉ str) : text (.putString str) = str := by
  refine List.takeWhile_eq_self_iff.mpr fun byte hbyte => ?_
  rw [decide_eq_true_iff]
  rintro rfl
  exact h hbyte

theorem text_putField {label : String} {value : List (BitVec 8)} (hlabel : 0 ∉ ascii label)
    (hvalue : OneLine value) : (putField label value).flatMap text = ascii label ++ value := by
  rw [putField, List.flatMap_cons, List.flatMap_singleton, text_putString hlabel,
    text_putString hvalue.1]

/-- A line of the report after a line feed. -/
def nextLine (field : List (BitVec 8) × List (BitVec 8)) : List (BitVec 8) :=
  newline :: (field.1 ++ field.2)

theorem text_nextLine {label : String} {label' value : List (BitVec 8)} (hzero : 0 ∉ ascii label)
    (hlabel : ascii label = newline :: label') (hvalue : OneLine value) :
    (putField label value).flatMap text = nextLine (label', value) := by
  rw [text_putField hzero hvalue, hlabel]
  rfl

/-- A line that may be missing. -/
theorem text_optional {label : String} {label' : List (BitVec 8)} {value : Option (List (BitVec 8))}
    (hzero : 0 ∉ ascii label) (hlabel : ascii label = newline :: label')
    (hvalue : ∀ name ∈ value, OneLine name) :
    ((value.map (putField label)).getD []).flatMap text =
      (value.map fun name => (label', name)).toList.flatMap nextLine := by
  cases value with
  | none => rfl
  | some name =>
      show (putField label name).flatMap text = [(label', name)].flatMap nextLine
      rw [text_nextLine hzero hlabel (hvalue name rfl), List.flatMap_singleton]

/-- The text of the report. -/
theorem text_panicOutput (h : Named args) :
    (panicOutput args).flatMap text = joinLines newline (reportFields args) := by
  have hhex := oneLine_ulongToHexString
  have hfile : ascii "\nIn file:" = newline :: ascii "In file:" := by decide
  have hfunction : ascii "\nFunction:" = newline :: ascii "Function:" := by decide
  have hline : (if 0 ≤ args.line.toInt then
        putField "\nLine:" (ulongToHexString (args.line.signExtend 64)) else []).flatMap text =
      (if 0 ≤ args.line.toInt then
        [(ascii "Line:", ulongToHexString (args.line.signExtend 64))]
      else []).flatMap nextLine := by
    have hlabel : ascii "\nLine:" = newline :: ascii "Line:" := by decide
    split
    · rw [text_nextLine (by decide) hlabel (hhex _), List.flatMap_singleton]
    · rfl
  have hparam : ∀ (label : String) (label' : List (BitVec 8)) (n : BitVec 64), 0 ∉ ascii label →
      ascii label = newline :: label' →
      (putField label (ulongToHexString n)).flatMap text =
        nextLine (label', ulongToHexString n) :=
    fun label label' n hzero hlabel => text_nextLine hzero hlabel (hhex n)
  rw [reportFields, joinLines_cons]
  show [] ++ (panicReport args).flatMap text = _ ++ List.flatMap nextLine _
  simp only [panicReport, List.flatten_cons, List.flatten_nil, List.flatMap_append,
    List.flatMap_cons, List.flatMap_nil, hline,
    text_putField (show 0 ∉ ascii "Panic! Status:" by decide) (hhex _),
    text_optional (by decide) hfile h.fileName, text_optional (by decide) hfunction h.func,
    hparam "\nParam1:" (ascii "Param1:") args.param1 (by decide) (by decide),
    hparam "\nParam2:" (ascii "Param2:") args.param2 (by decide) (by decide),
    hparam "\nParam3:" (ascii "Param3:") args.param3 (by decide) (by decide),
    hparam "\nParam4:" (ascii "Param4:") args.param4 (by decide) (by decide)]
  rfl

/-- The labels of the report. -/
def reportLabels : List (List (BitVec 8)) :=
  [ascii "Panic! Status:", ascii "In file:", ascii "Line:", ascii "Function:"] ++ paramLabels

/-- Every line of the report has one of the labels, and is a single line. -/
theorem reportFields_spec (h : Named args) :
    ∀ field ∈ reportFields args, field.1 ∈ reportLabels ∧ newline ∉ field.1 ++ field.2 := by
  have hlabels : ∀ label ∈ reportLabels, newline ∉ label := by decide +kernel
  have hfields : ∀ field ∈ reportFields args, field.1 ∈ reportLabels ∧ OneLine field.2 := by
    intro field hfield
    have hhex := oneLine_ulongToHexString
    simp only [reportFields, List.mem_cons, List.mem_append, List.not_mem_nil, or_false,
      Option.mem_toList, Option.map_eq_some_iff] at hfield
    rcases hfield with rfl | ⟨name, hname, rfl⟩ | hline | ⟨name, hname, rfl⟩ | rfl | rfl | rfl | rfl
    · exact ⟨by simp [reportLabels], hhex _⟩
    · exact ⟨by simp [reportLabels], h.fileName name hname⟩
    · split at hline
      · rw [List.mem_singleton.mp hline]
        exact ⟨by simp [reportLabels], hhex _⟩
      · cases hline
    · exact ⟨by simp [reportLabels], h.func name hname⟩
    · exact ⟨by simp [reportLabels, paramLabels], hhex _⟩
    · exact ⟨by simp [reportLabels, paramLabels], hhex _⟩
    · exact ⟨by simp [reportLabels, paramLabels], hhex _⟩
    · exact ⟨by simp [reportLabels, paramLabels], hhex _⟩
  intro field hfield
  obtain ⟨hlabel, hvalue⟩ := hfields field hfield
  refine ⟨hlabel, fun hmem => ?_⟩
  rcases List.mem_append.mp hmem with hmem | hmem
  · exact hlabels _ hlabel hmem
  · exact hvalue.2 hmem

/-- No label of the report begins with another one. -/
theorem incomparable_reportLabels {label label' : List (BitVec 8)} (h : label ∈ reportLabels)
    (h' : label' ∈ reportLabels) : label' = label ∨ Incomparable label label' := by
  have hall : (reportLabels.all fun label => reportLabels.all fun label' =>
      decide (label' = label ∨ Incomparable label label')) = true := by decide +kernel
  exact of_decide_eq_true (List.all_eq_true.mp (List.all_eq_true.mp hall label h) label' h')

/-- A line is found by its label. -/
theorem readField_report (h : Named args) {label : List (BitVec 8)}
    (hlabel : label ∈ reportLabels) :
    readField newline label (joinLines newline (reportFields args)) =
      (reportFields args).lookup label := by
  refine readField_joinLines (List.cons_ne_nil _ _) (fun field hfield => ?_) fun field hfield => ?_
  · exact (reportFields_spec h field hfield).2
  · exact incomparable_reportLabels hlabel (reportFields_spec h field hfield).1

/-- The values by their labels. -/
theorem lookup_reportFields (args : PanicArgs) :
    (reportFields args).lookup (ascii "Panic! Status:") =
        some (ulongToHexString (args.status.setWidth 64)) ∧
      (reportFields args).lookup (ascii "In file:") = args.fileName ∧
      (reportFields args).lookup (ascii "Line:") =
        (if 0 ≤ args.line.toInt then some (ulongToHexString (args.line.signExtend 64)) else none) ∧
      (reportFields args).lookup (ascii "Function:") = args.func ∧
      paramLabels.map (fun label => (reportFields args).lookup label) =
        [some (ulongToHexString args.param1), some (ulongToHexString args.param2),
          some (ulongToHexString args.param3), some (ulongToHexString args.param4)] := by
  unfold reportFields
  cases args.fileName <;> cases args.func <;> split <;> exact ⟨rfl, rfl, rfl, rfl, rfl⟩

/-- The report can be read. -/
theorem readReport_report (h : Named args) :
    readReport (joinLines newline (reportFields args)) = report args := by
  obtain ⟨hstatus, hfile, hline, hfunc, hparams⟩ := lookup_reportFields args
  have hread : ∀ label ∈ reportLabels, readField newline label
      (joinLines newline (reportFields args)) = (reportFields args).lookup label :=
    fun label hlabel => readField_report h hlabel
  have hparams' : paramLabels.map (fun label =>
      (readField newline label (joinLines newline (reportFields args))).map readHex) =
      [some args.param1.toNat, some args.param2.toNat, some args.param3.toNat,
        some args.param4.toNat] := by
    have hmem : ∀ label ∈ paramLabels, label ∈ reportLabels := fun label hlabel =>
      List.mem_append_right _ hlabel
    have hlookup : paramLabels.map (fun label =>
        (readField newline label (joinLines newline (reportFields args))).map readHex) =
        (paramLabels.map fun label => (reportFields args).lookup label).map
          (Option.map readHex) := by
      rw [List.map_map]
      exact List.map_congr_left fun label hlabel => congrArg _ (hread label (hmem label hlabel))
    rw [hlookup, hparams]
    simp only [List.map_cons, List.map_nil, Option.map_some, readHex_ulongToHexString]
  have hsigned : 0 ≤ args.line.toInt → (args.line.signExtend 64).toNat = args.line.toNat := by
    intro hnonneg
    have hmsb : args.line.msb = false := by
      rw [BitVec.msb_eq_toInt, decide_eq_false_iff_not]
      omega
    rw [BitVec.signExtend_eq_setWidth_of_msb_false hmsb, BitVec.toNat_setWidth_of_le (by omega)]
  simp only [readReport, report, hread _ (show ascii "Panic! Status:" ∈ reportLabels by
    simp [reportLabels]), hread _ (show ascii "In file:" ∈ reportLabels by simp [reportLabels]),
    hread _ (show ascii "Line:" ∈ reportLabels by simp [reportLabels]),
    hread _ (show ascii "Function:" ∈ reportLabels by simp [reportLabels]), hstatus, hfile, hline,
    hfunc, hparams', Option.map_some, readHex_ulongToHexString,
    BitVec.toNat_setWidth_of_le (show 32 ≤ 64 by omega)]
  split
  · next hnonneg => rw [Option.map_some, readHex_ulongToHexString, hsigned hnonneg]
  · rfl

/-- A panic can be read from the line. With page 0 used and another page free, and a serial console
on a UART that is online, `PanicEx` halts with interrupts off. The driver does not wait for ever for
its report, and what the UART has sent of it can be read: the status, the place, the function and
the parameters, as they were given. -/
theorem panic_readable {build : Build} {m : Machine} (hzero : bitAt m.heap.bitmap 0 = usedBit)
    (hpage : HasPage m.heap.bitmap) (hserial : m.serial = some console) (hon : serial.On base)
    (hwire : Wire serial fuel before bus console) (hnamed : Named args) :
    ∃ halted console' bus' u u', panicEx build 1 m args = some halted ∧
      interruptsOn halted.cpu.rflags = false ∧ halted.serial = some console' ∧
      (panicOutput args).foldlM (serial.exec fuel) bus = some bus' ∧
      Wire serial fuel before bus' console' ∧ bus base = some u ∧ bus' base = some u' ∧
      readReport (fromLine (u'.sent.drop u.sent.length)) = report args := by
  obtain ⟨heap, hhalted⟩ := panicEx_one build args hzero hpage
  rw [redundantOutput_run] at hhalted
  obtain ⟨bus', hrun, hwire'⟩ := hwire.run (panicOutput args)
  obtain ⟨u, hu, hsent⟩ := hwire.sent hon
  obtain ⟨u', hu', hsent'⟩ := hwire'.sent hon
  refine ⟨_, (panicOutput args).foldl SerialConsole.exec console, bus', u, u', hhalted,
    interruptsOn_cli _, ?_, hrun, hwire', hu, hu', ?_⟩
  · show m.serial.map _ = _
    rw [hserial]
    rfl
  · rw [run_ready (hwire.ready.trans hon.isReady), ← List.append_assoc, ← hsent] at hsent'
    rw [hsent', List.drop_left, fromLine_onLine, text_panicOutput hnamed, readReport_report hnamed]

/-- A machine with all pages but page 0 free, and a serial console. -/
def talking : Machine :=
  { exhausted with
    heap := ⟨fun i => if i = 0 then 1 else 0, fun _ => 0⟩
    serial := some ⟨true, []⟩ }

/-- A build whose file name is left empty. -/
def bareBuild : Build := ⟨oneCell, fun _ _ => 0, []⟩

theorem bareBuild_named : Named (operatorNewPanic bareBuild) where
  fileName := by
    rintro name ⟨⟩
    exact ⟨List.not_mem_nil, List.not_mem_nil⟩
  func := by
    rintro name ⟨⟩
    exact ⟨by decide, by decide⟩

/-- The panic of `operator new` on that machine, with a UART at the first port. -/
theorem panic_readable_one : ∃ halted bus' u',
    panicEx bareBuild 1 talking (operatorNewPanic bareBuild) = some halted ∧
    (panicOutput (operatorNewPanic bareBuild)).foldlM
      ((Serial16550.init 115200#32 oneUART).1.exec 1) (Serial16550.init 115200#32 oneUART).2 =
        some bus' ∧
    bus' 0x3F8#16 = some u' ∧
    ∃ k, readReport (fromLine (u'.sent.drop k)) = report (operatorNewPanic bareBuild) := by
  have hcands : baseCand = [] ++ 0x3F8#16 :: [0x2F8#16, 0x3E8#16, 0x2E8#16] := rfl
  obtain ⟨hon, hwire⟩ : (Serial16550.init 115200#32 oneUART).1.On 0x3F8#16 ∧ _ :=
    wire_init hcands rfl oneUART_works oneUART_others
  have hpage : HasPage talking.heap.bitmap := ⟨1, by decide, by decide, by decide⟩
  have hzero : bitAt talking.heap.bitmap 0 = usedBit := by decide
  obtain ⟨halted, -, bus', u, u', hhalted, -, -, hrun, -, -, hu', hread⟩ :=
    panic_readable hzero hpage rfl hon hwire bareBuild_named
  exact ⟨halted, bus', u', hhalted, hrun, hu', u.sent.length, hread⟩

end HailOS.Serial
