import HailOS.Console.Rendering
import HailOS.Object.LastReference
import HailOS.Sync.Interrupts

/-!
# Panics

`PanicEx` writes a report to the serial port and the screen and halts, after
`Core/ErrorHandling/Panic.cpp`. It gets its output device from `GetBootstrapConsole`, which creates
an object, and `operator new` panics where it gets no page. `panic_halts_iff` says that a panic
reaches the halt iff a page other than page 0 is free; with no such page the panics are nested
without end. `panic_reports` says what the screen shows then.
-/

namespace HailOS.ErrorHandling

open Lib Kernel Early Console Object Sync

/-- The bytes of a text. -/
def ascii (text : String) : List (BitVec 8) := text.toList.map fun c => BitVec.ofNat 8 c.toNat

/-! ## The devices -/

/-- `SerialConsole` with its port: whether a port was found, and the bytes sent to it. The port
takes every byte in the end. -/
structure SerialConsole where
  isReady : Bool
  sent : List (BitVec 8)

namespace SerialConsole

/-- `Serial16550::WriteByte`. -/
def writeByte (serial : SerialConsole) (v : BitVec 8) : SerialConsole :=
  if !serial.isReady then serial else { serial with sent := serial.sent ++ [v] }

/-- `PutChar`: a new line is sent with a carriage return before it. -/
def putChar (serial : SerialConsole) (ch : BitVec 8) : SerialConsole :=
  if ch = newline then (serial.writeByte 0x0D).writeByte ch else serial.writeByte ch

/-- The loop of `Serial16550::Write`. -/
def writeLoop (serial : SerialConsole) : List (BitVec 8) → SerialConsole
  | [] => serial
  | ch :: str => if ch = 0 then serial else writeLoop (serial.putChar ch) str

/-- `PutString`. -/
def putString (serial : SerialConsole) (str : List (BitVec 8)) : SerialConsole :=
  if !serial.isReady then serial else serial.writeLoop str

/-- The effect of a call. `Flush` only waits for the port, and `Reset` does nothing. -/
def exec (serial : SerialConsole) : ConsoleOp → SerialConsole
  | .putChar ch => serial.putChar ch
  | .putString str => serial.putString str
  | .flush | .reset => serial

end SerialConsole

/-- The kernel as far as a panic sees it. The devices are those of `SerialOwner()` and
`ConsoleOwner()`, if they are set. -/
structure Machine where
  cpu : CPUState
  heap : Heap
  serial : Option SerialConsole
  console : Option KernelConsole

/-- What is fixed when the kernel runs: the screen, the font, and the text of `__FILE__` in
`NewDelete.cpp`. -/
structure Build where
  info : GraphicInfo
  font : Font
  newDeleteFile : List (BitVec 8)

/-- A call of a function of `RedundantOutput`: it goes to both devices. -/
def Machine.redundantOutput (build : Build) (m : Machine) (op : ConsoleOp) : Machine :=
  { m with
    serial := m.serial.map fun serial => serial.exec op
    console := m.console.map fun con => con.exec build.info build.font op }

/-! ## The panic -/

/-- The digits that `ULongToHexString` uses. -/
def hexDigits : List (BitVec 8) := ascii "0123456789ABCDEF"

/-- `ULongToHexString`. -/
def ulongToHexString (n : BitVec 64) : List (BitVec 8) :=
  ascii "0x" ++ (List.range 16).map fun i =>
    hexDigits.getD ((n >>> ((15 - i) * 4)) &&& 0xF).toNat 0

/-- The arguments of `PanicEx`. -/
structure PanicArgs where
  status : BitVec 32
  param1 : BitVec 64
  param2 : BitVec 64
  param3 : BitVec 64
  param4 : BitVec 64
  fileName : Option (List (BitVec 8))
  func : Option (List (BitVec 8))
  line : BitVec 32

/-- `Status::STATUS_ERROR`. -/
def statusError : BitVec 32 := 0x80000000

/-- `PANIC(Status::STATUS_ERROR, 0)` in `operator new`. -/
def operatorNewPanic (build : Build) : PanicArgs where
  status := statusError
  param1 := 0
  param2 := 0
  param3 := 0
  param4 := 0
  fileName := some build.newDeleteFile
  func := some (ascii "operator new")
  line := 31

/-- A label and a value are put out. -/
def putField (label : String) (value : List (BitVec 8)) : List ConsoleOp :=
  [.putString (ascii label), .putString value]

/-- What `PanicEx` puts out after the `Reset`. -/
def panicReport (args : PanicArgs) : List ConsoleOp :=
  List.flatten
    [putField "Panic! Status:" (ulongToHexString (args.status.setWidth 64)),
      (args.fileName.map (putField "\nIn file:")).getD [],
      if 0 ≤ args.line.toInt then
        putField "\nLine:" (ulongToHexString (args.line.signExtend 64))
      else [],
      (args.func.map (putField "\nFunction:")).getD [],
      putField "\nParam1:" (ulongToHexString args.param1),
      putField "\nParam2:" (ulongToHexString args.param2),
      putField "\nParam3:" (ulongToHexString args.param3),
      putField "\nParam4:" (ulongToHexString args.param4),
      [.flush]]

/-- The calls that `PanicEx` makes on its output device. -/
def panicOutput (args : PanicArgs) : List ConsoleOp := .reset :: panicReport args

/-- `GetBootstrapConsole`: the new object and the heap, or the heap in which `operator new`
panics. -/
def getBootstrapConsole (heap : Heap) : Except Heap (Nat × Heap) :=
  match operatorNew heap Object.redundantOutput.size with
  | some result => .ok result
  | none => .error { heap with
      bitmap := (allocatePageSize heap.bitmap (sizeAlloc Object.redundantOutput.size)).2 }

/-- `HaltProcessor`: the machine stops with interrupts off. -/
def haltProcessor (m : Machine) : Machine := { m with cpu := m.cpu.cli }

/-- `PanicEx` with at most `depth` calls nested in each other: the machine when it halts, or none
if there are more. -/
def panicEx (build : Build) : (depth : Nat) → Machine → PanicArgs → Option Machine
  | 0, _, _ => none
  | depth + 1, m, args =>
      let m := { m with cpu := m.cpu.startCriticalSection }
      match getBootstrapConsole m.heap with
      | .error heap => panicEx build depth { m with heap := heap } (operatorNewPanic build)
      | .ok (con, heap) =>
          if con = 0 then some (haltProcessor { m with heap := heap })
          else
            some (haltProcessor
              ((panicOutput args).foldl (Machine.redundantOutput build) { m with heap := heap }))

/-- A page other than page 0 is free. -/
def HasPage (bitmap : PageBitmap) : Prop :=
  ∃ k, 0 < k ∧ k < pageTotal ∧ bitAt bitmap k = unusedBit

/-! ## Nested panics -/

/-- `GetBootstrapConsole` gets a page, or `operator new` panics. Then page 0 is used and the other
pages are as they were, and if page 0 was used before, no page was free. -/
theorem getBootstrapConsole_cases (heap : Heap) :
    (∃ con heap', con ≠ 0 ∧ HasPage heap.bitmap ∧ getBootstrapConsole heap = .ok (con, heap')) ∨
      ∃ heap', getBootstrapConsole heap = .error heap' ∧ bitAt heap'.bitmap 0 = usedBit ∧
        (∀ k, 0 < k → bitAt heap'.bitmap k = bitAt heap.bitmap k) ∧
        (bitAt heap.bitmap 0 = usedBit → ¬ HasPage heap.bitmap) := by
  have hone : allocatePageSize heap.bitmap (sizeAlloc Object.redundantOutput.size) =
      allocatePage heap.bitmap := allocatePageSize_one Object.redundantOutput.pageCount
  by_cases hnull : (allocatePage heap.bitmap).1 = 0
  · have hnone : operatorNew heap Object.redundantOutput.size = none := if_pos (hone ▸ hnull)
    refine .inr ⟨{ heap with bitmap := (allocatePage heap.bitmap).2 }, ?_, ?_⟩
    · rw [getBootstrapConsole, hnone, hone]
    · rcases allocatePage_cases heap.bitmap with ⟨k, -, hfirst, haddress, hbits⟩ | ⟨hused, hsame⟩
      · -- the first free page is page 0, which is marked and returned as null
        have hk : k = 0 := by omega
        rw [hk] at hbits hfirst
        refine ⟨(hbits 0).trans (if_pos rfl), ?_, ?_⟩
        · intro j hj
          exact (hbits j).trans (if_neg (Nat.ne_of_gt hj))
        · intro hzero
          have hfree := isUnused_iff.1 (hfirst.run 0 (Nat.le_refl 0) Nat.one_pos)
          rw [hzero] at hfree
          cases hfree
      · rw [hsame]
        refine ⟨hused 0 (by rw [pageTotal_eq]; norm_num), fun _ _ => rfl, ?_⟩
        rintro - ⟨k, -, hk, hfree⟩
        rw [hused k hk] at hfree
        cases hfree
  · have hsome := operatorNew_eq (hone.symm ▸ hnull)
    refine .inl ⟨_, _, hone.symm ▸ hnull, ?_, by rw [getBootstrapConsole, hsome]⟩
    obtain ⟨s, hs, -, hgrant⟩ := allocatePage_grant hnull
    exact ⟨s, hgrant.start_pos, hs, hgrant.unused (Nat.le_refl s) (Nat.lt_succ_self s)⟩

variable (build : Build) (m : Machine) (args : PanicArgs)

/-- With a console, `PanicEx` writes its report and halts. -/
theorem panicEx_ok {m : Machine} {con : Nat} {heap : Heap} (hcon : con ≠ 0)
    (h : getBootstrapConsole m.heap = .ok (con, heap)) (depth : Nat) :
    panicEx build (depth + 1) m args =
      some (haltProcessor ((panicOutput args).foldl (Machine.redundantOutput build)
        { m with cpu := m.cpu.startCriticalSection, heap := heap })) := by
  simp only [panicEx, h, if_neg hcon]

/-- Without a console, `PanicEx` is called again. -/
theorem panicEx_error {m : Machine} {heap : Heap} (h : getBootstrapConsole m.heap = .error heap)
    (depth : Nat) :
    panicEx build (depth + 1) m args =
      panicEx build depth { m with cpu := m.cpu.startCriticalSection, heap := heap }
        (operatorNewPanic build) := by
  simp only [panicEx, h]

/-- Without a free page other than page 0, no depth is enough. -/
theorem panicEx_endless (depth : Nat) {m : Machine} (args : PanicArgs)
    (h : ¬ HasPage m.heap.bitmap) : panicEx build depth m args = none := by
  induction depth generalizing m args with
  | zero => rfl
  | succ depth ih =>
      rcases getBootstrapConsole_cases m.heap with ⟨-, -, -, hpage, -⟩ | ⟨heap, herror, -, hsame, -⟩
      · exact absurd hpage h
      · rw [panicEx_error build args herror]
        apply ih
        rintro ⟨k, hpos, hk, hfree⟩
        exact h ⟨k, hpos, hk, (hsame k hpos).symm.trans hfree⟩

/-- With page 0 used and another page free, no panic is nested. -/
theorem panicEx_one {m : Machine} (hzero : bitAt m.heap.bitmap 0 = usedBit)
    (h : HasPage m.heap.bitmap) :
    ∃ heap, panicEx build 1 m args =
      some (haltProcessor ((panicOutput args).foldl (Machine.redundantOutput build)
        { m with cpu := m.cpu.startCriticalSection, heap := heap })) := by
  rcases getBootstrapConsole_cases m.heap with ⟨con, heap, hcon, -, hok⟩ | ⟨-, -, -, -, hnone⟩
  · exact ⟨heap, panicEx_ok build args hcon hok 0⟩
  · exact absurd h (hnone hzero)

/-- With a free page other than page 0, at most one panic is nested. -/
theorem panicEx_two (h : HasPage m.heap.bitmap) :
    ∃ halted, panicEx build 2 m args = some halted := by
  rcases getBootstrapConsole_cases m.heap with
    ⟨con, heap, hcon, -, hok⟩ | ⟨heap, herror, hzero, hsame, -⟩
  · exact ⟨_, panicEx_ok build args hcon hok 1⟩
  · rw [panicEx_error build args herror]
    have hpage : HasPage heap.bitmap := by
      obtain ⟨k, hpos, hk, hfree⟩ := h
      exact ⟨k, hpos, hk, (hsame k hpos).trans hfree⟩
    obtain ⟨heap', hhalted⟩ := panicEx_one build (operatorNewPanic build)
      (m := { m with cpu := m.cpu.startCriticalSection, heap := heap }) hzero hpage
    exact ⟨_, hhalted⟩

/-- A panic reaches the halt with finitely many nested calls iff a page other than page 0 is
free. -/
theorem panic_halts_iff :
    (∃ depth halted, panicEx build depth m args = some halted) ↔ HasPage m.heap.bitmap := by
  constructor
  · rintro ⟨depth, halted, hhalted⟩
    by_contra hpage
    rw [panicEx_endless build depth args hpage] at hhalted
    cases hhalted
  · intro hpage
    exact ⟨2, panicEx_two build m args hpage⟩

/-- Every page is used. -/
def fullBitmap : PageBitmap := fun _ => 0xFF

theorem fullBitmap_no_page : ¬ HasPage fullBitmap := by
  rintro ⟨k, -, -, hfree⟩
  have hused : bitAt fullBitmap k = usedBit := bitAt_full rfl
  rw [hused] at hfree
  cases hfree

/-- A machine without output devices that has used up its memory. -/
def exhausted : Machine where
  cpu := ⟨0, false, fun _ => ⟨0, 0⟩⟩
  heap := ⟨fullBitmap, fun _ => 0⟩
  serial := none
  console := none

/-- With every page used, a panic never halts. -/
theorem panic_without_page_endless :
    ¬ ∃ depth halted, panicEx ⟨oneCell, fun _ _ => 0, []⟩ depth exhausted
      (operatorNewPanic ⟨oneCell, fun _ _ => 0, []⟩) = some halted := by
  rintro ⟨depth, halted, hhalted⟩
  have hnone : ¬ HasPage exhausted.heap.bitmap := fullBitmap_no_page
  rw [panicEx_endless _ depth _ hnone] at hhalted
  cases hhalted

/-! ## The report -/

/-- Calls go to both devices. -/
theorem redundantOutput_run (ops : List ConsoleOp) :
    ops.foldl (Machine.redundantOutput build) m =
      { m with
        serial := m.serial.map fun serial => ops.foldl SerialConsole.exec serial
        console := m.console.map fun con =>
          ops.foldl (KernelConsole.exec build.info build.font) con } := by
  induction ops generalizing m with
  | nil => simp
  | cons op ops ih =>
      rw [List.foldl_cons, ih]
      simp [Machine.redundantOutput, Function.comp_def]

/-- With page 0 used and another page free, a panic halts with interrupts off, and the screen, if
there is one, shows its report. -/
theorem panic_reports {page : Page (BitVec 8)} {con : KernelConsole} (hinfo : build.info.Valid)
    (hzero : bitAt m.heap.bitmap 0 = usedBit) (h : HasPage m.heap.bitmap)
    (hconsole : m.console = some con) (hshows : Shows build.info build.font con page) :
    ∃ halted con', panicEx build 1 m args = some halted ∧
      interruptsOn halted.cpu.rflags = false ∧ halted.console = some con' ∧
      Shows build.info build.font con' (layout charKind build.info.cols
        ((panicReport args).foldl (ConsoleOp.output build.info) [])) := by
  obtain ⟨heap, hhalted⟩ := panicEx_one build args hzero h
  rw [redundantOutput_run] at hhalted
  refine ⟨_, (panicOutput args).foldl (KernelConsole.exec build.info build.font) con, hhalted,
    interruptsOn_cli _, ?_, ?_⟩
  · show m.console.map _ = _
    rw [hconsole]
    rfl
  · have hblank : Shows build.info build.font (con.reset build.info)
        (layout charKind build.info.cols []) := Shows.reset hinfo hshows.frame
    rw [panicOutput, List.foldl_cons]
    exact hblank.run hinfo (panicReport args)

end HailOS.ErrorHandling
