import HailOS.Memory.MemoryUtility

/-!
# The kernel console

`KernelConsole` draws text into the frame buffer, after `Core/KernelConsole/KernelConsole.cpp`.
The coordinates are machine words of 32 bits, as in the source, and addresses are natural
numbers. Beside the memory, a frame buffer records what was written to it, the latest first.
-/

namespace HailOS.Console

open Lib Kernel

/-- `struct GraphicInfo`. -/
structure GraphicInfo where
  frameBufferBase : Nat
  frameBufferSize : Nat
  pixelsPerScanLine : BitVec 32
  horizontalResolution : BitVec 32
  verticalResolution : BitVec 32

/-- `struct FrameBufferColor`, four bytes. -/
structure FrameBufferColor where
  color1 : BitVec 8
  color2 : BitVec 8
  color3 : BitVec 8
  color4 : BitVec 8
deriving DecidableEq, Repr

/-- `COLOR_BACKGROUND`. -/
def colorBackground : FrameBufferColor := ⟨0, 0, 0, 0⟩

/-- `COLOR_FOREGROUND`. -/
def colorForeground : FrameBufferColor := ⟨255, 255, 255, 0⟩

/-- `struct Point`. -/
structure Point where
  x : BitVec 32
  y : BitVec 32
deriving DecidableEq, Repr

/-- `FONT_HEIGHT`. -/
def fontHeight : Nat := 16

/-- `FONT_WIDTH`. -/
def fontWidth : Nat := 8

/-- A table like `gConsoleFont`: 16 lines of 8 bits for every character. -/
abbrev Font := Nat → Nat → BitVec 8

/-- A write to memory by the console. -/
inductive Access where
  /-- `FillMemory` of `size` bytes from `address` on. -/
  | fill (address size : Nat)
  /-- The color of a pixel is stored at `address`. -/
  | pixel (address : Nat)
deriving DecidableEq, Repr

/-- The memory that holds the frame buffer, and what was written to it. -/
structure FrameBuffer where
  memory : Memory
  accesses : List Access

namespace FrameBuffer

/-- `FillMemory(address, size, 0x00)`. -/
def fill (frame : FrameBuffer) (address size : Nat) : FrameBuffer :=
  ⟨fillMemory frame.memory address size 0, .fill address size :: frame.accesses⟩

/-- `*p = color`. -/
def write (frame : FrameBuffer) (p : Nat) (color : FrameBufferColor) : FrameBuffer where
  memory :=
    Function.update (Function.update (Function.update (Function.update frame.memory
      p color.color1) (p + 1) color.color2) (p + 2) color.color3) (p + 3) color.color4
  accesses := .pixel p :: frame.accesses

end FrameBuffer

/-- `KernelConsole`. -/
structure KernelConsole where
  cursorPosition : Point
  frame : FrameBuffer

/-- `IsVisibleChar`. -/
def isVisibleChar (ch : BitVec 8) : Bool := decide (0x19 < ch.toInt ∧ ch.toInt < 0x7f)

/-- The character `' '`. -/
def space : BitVec 8 := 0x20

/-- The character `'\n'`. -/
def newline : BitVec 8 := 0x0A

section Functions

variable (info : GraphicInfo) (font : Font)

/-- `CalcPixelOffset`: the index of the pixel is computed in 32 bits. -/
def calcPixelOffset (point : Point) : Nat :=
  (point.y * info.pixelsPerScanLine + point.x).toNat * 4

/-- `DrawPixel`. -/
def drawPixel (frame : FrameBuffer) (location : Point) (color : FrameBufferColor) : FrameBuffer :=
  if location.x ≥ info.horizontalResolution ∨ location.y ≥ info.verticalResolution then frame
  else frame.write (info.frameBufferBase + calcPixelOffset info location) color

/-- The color of column `k` of a line of a glyph. -/
def lineColor (line : BitVec 8) (k : Nat) : FrameBufferColor :=
  if line &&& (1#8 <<< (7 - k)) ≠ 0 then colorForeground else colorBackground

/-- The two loops of `PutChar` that draw a glyph at `position`. -/
def drawGlyph (frame : FrameBuffer) (position : Point) (ch : BitVec 8) : FrameBuffer :=
  (List.range fontHeight).foldl (fun frame i =>
    (List.range fontWidth).foldl (fun frame k =>
      drawPixel info frame
        ⟨position.x + BitVec.ofNat 32 k, position.y + BitVec.ofNat 32 i⟩
        (lineColor (font ch.toNat i) k)) frame) frame

namespace KernelConsole

/-- The constructor. -/
def new (memory : Memory) : KernelConsole :=
  ⟨⟨0, 0⟩, FrameBuffer.fill ⟨memory, []⟩ info.frameBufferBase info.frameBufferSize⟩

/-- `IsNewLineRequired`. -/
def isNewLineRequired (con : KernelConsole) : Bool :=
  decide (con.cursorPosition.x > info.horizontalResolution - BitVec.ofNat 32 fontWidth)

/-- `IsEndOfScreen`. -/
def isEndOfScreen (con : KernelConsole) : Bool :=
  decide (con.cursorPosition.y > info.verticalResolution - BitVec.ofNat 32 fontHeight)

/-- `Reset`. -/
def reset (con : KernelConsole) : KernelConsole :=
  ⟨⟨0, 0⟩, con.frame.fill info.frameBufferBase info.frameBufferSize⟩

/-- The cursor goes to the start of the next line. -/
def nextLine (con : KernelConsole) : KernelConsole :=
  { con with cursorPosition := ⟨0, con.cursorPosition.y + BitVec.ofNat 32 fontHeight⟩ }

/-- `if (IsEndOfScreen()) Reset();`. -/
def resetAtEnd (con : KernelConsole) : KernelConsole :=
  if con.isEndOfScreen info then con.reset info else con

/-- `if (IsNewLineRequired())` the cursor goes to the next line. -/
def wrapLine (con : KernelConsole) : KernelConsole :=
  if con.isNewLineRequired info then con.nextLine else con

/-- `m_CursorPosition.X += FONT_WIDTH`. -/
def advance (con : KernelConsole) : KernelConsole :=
  { con with
    cursorPosition :=
      ⟨con.cursorPosition.x + BitVec.ofNat 32 fontWidth, con.cursorPosition.y⟩ }

/-- A visible character is drawn at the cursor, unless it is a space. -/
def drawChar (con : KernelConsole) (ch : BitVec 8) : KernelConsole :=
  if ch = space then con.advance
  else advance { con with frame := drawGlyph info font con.frame con.cursorPosition ch }

/-- `PutChar`. -/
def putChar (con : KernelConsole) (ch : BitVec 8) : KernelConsole :=
  if isVisibleChar ch then ((con.wrapLine info).resetAtEnd info).drawChar info font ch
  else if ch = newline then con.nextLine.resetAtEnd info
  else con

/-- `PutString`: the characters of `str` up to a NUL. -/
def putString (con : KernelConsole) : List (BitVec 8) → KernelConsole
  | [] => con
  | ch :: str => if ch = 0 then con else putString (con.putChar info font ch) str

/-- `Flush`. -/
def flush (con : KernelConsole) : KernelConsole := con.putChar info font newline

end KernelConsole

/-- A call of a function of the console. -/
inductive ConsoleOp where
  | putChar (ch : BitVec 8)
  | putString (str : List (BitVec 8))
  | flush
  | reset
deriving DecidableEq, Repr

/-- The effect of a call. -/
def KernelConsole.exec (con : KernelConsole) : ConsoleOp → KernelConsole
  | .putChar ch => con.putChar info font ch
  | .putString str => con.putString info font str
  | .flush => con.flush info font
  | .reset => con.reset info

end Functions

end HailOS.Console
