import HailOS.Lib.StackMachine

/-!
# The context switch

`ArchSwitchContext` saves the callee-saved registers of the running thread on its stack, stores
the stack pointer in the thread object, and restores the registers of the next thread, after
`Arch/x86_64/CPU/SwitchContext.S`. The instructions run on a machine with the stack in byte
memory. Thread objects are kept apart from the byte memory, so the word `[rdi]` that receives
the stack pointer is a component of its own.

A call leaves a frame of seven words for the caller, by `switch_saves`, and continues from the
frame of the next thread, by `switch_restores`.
-/

namespace HailOS.Arch

open Lib

/-- The registers that `ArchSwitchContext` uses besides `rsp` and `rdi`. -/
inductive Reg where
  | rbp
  | rbx
  | r12
  | r13
  | r14
  | r15
  | rsi
  deriving DecidableEq, Repr

/-- The instructions of `ArchSwitchContext`. -/
inductive Instruction where
  | push (r : Reg)
  | pop (r : Reg)
  /-- `mov QWORD PTR [rdi], rsp`. -/
  | movSlotRsp
  /-- `mov rsp, rsi`. -/
  | movRspRsi
  | ret
  deriving DecidableEq, Repr

/-- One instruction, on the machine and the word at `[rdi]`. -/
def Instruction.exec : Machine Reg × BitVec 64 → Instruction → Machine Reg × BitVec 64
  | (m, slot), .push r => (m.push (m.regs r), slot)
  | (m, slot), .pop r => (m.pop r, slot)
  | (m, _), .movSlotRsp => (m, m.sp)
  | (m, slot), .movRspRsi => ({ m with sp := m.regs .rsi }, slot)
  | (m, slot), .ret => (m.ret, slot)

/-- `ArchSwitchContext`. -/
def archSwitchContext : List Instruction :=
  [.push .rbp, .push .rbx, .push .r12, .push .r13, .push .r14, .push .r15, .movSlotRsp,
    .movRspRsi, .pop .r15, .pop .r14, .pop .r13, .pop .r12, .pop .rbx, .pop .rbp, .ret]

/-- The call `ArchSwitchContext(&curr->Ctx.RSP, rsp)`: the return address is pushed, and the
result has the value written to `curr->Ctx.RSP`. -/
def callArchSwitchContext (m : Machine Reg) (slot rsp : BitVec 64) : Machine Reg × BitVec 64 :=
  archSwitchContext.foldl Instruction.exec
    ({ m with regs := Function.update m.regs .rsi rsp }.push m.ip, slot)

/-- The callee-saved registers, in the order in which they lie on the stack. -/
def calleeSaved : List Reg := [.r15, .r14, .r13, .r12, .rbx, .rbp]

/-- A frame that `ArchSwitchContext` can continue from: the callee-saved registers and the
address to return to. -/
def SwitchFrame (memory : Memory) (sp : Nat) (regs : Reg → BitVec 64) (ip : BitVec 64) : Prop :=
  Words memory sp (calleeSaved.map regs ++ [ip])

/-- A frame depends only on its 56 bytes. -/
theorem SwitchFrame.congr {memory memory' : Memory} {sp : Nat} {regs : Reg → BitVec 64}
    {ip : BitVec 64} (h : SwitchFrame memory sp regs ip)
    (hsame : ∀ x, sp ≤ x → x < sp + 56 → memory' x = memory x) :
    SwitchFrame memory' sp regs ip :=
  Words.congr h hsame

/-- The first half of `ArchSwitchContext`, with the call before it: save the registers. -/
def saveContext (m : Machine Reg) : Machine Reg :=
  m.pushAll (calleeSaved.map m.regs ++ [m.ip]).reverse

/-- The second half of `ArchSwitchContext`: restore the registers and return. -/
def restoreContext (m : Machine Reg) : Machine Reg := (m.popAll calleeSaved).ret

/-- The call in terms of its two halves. -/
theorem callArchSwitchContext_eq (m : Machine Reg) (slot rsp : BitVec 64) :
    callArchSwitchContext m slot rsp =
      (restoreContext
          { saveContext { m with regs := Function.update m.regs .rsi rsp } with sp := rsp },
        (saveContext { m with regs := Function.update m.regs .rsi rsp }).sp) := rfl

/-- Saving leaves a frame below the stack pointer. -/
theorem saveContext_spec (m : Machine Reg) (hroom : 56 ≤ m.sp.toNat) :
    (saveContext m).sp.toNat = m.sp.toNat - 56 ∧
      SwitchFrame (saveContext m).memory (m.sp.toNat - 56) m.regs m.ip ∧
      ∀ x, x < m.sp.toNat - 56 ∨ m.sp.toNat ≤ x → (saveContext m).memory x = m.memory x := by
  have hlength : (calleeSaved.map m.regs ++ [m.ip]).reverse.length = 7 := rfl
  obtain ⟨_, _, hsp, hwords, houtside⟩ := Machine.pushAll_spec m
    (calleeSaved.map m.regs ++ [m.ip]).reverse (by rw [hlength]; exact hroom)
  rw [hlength] at hsp hwords houtside
  rw [List.reverse_reverse] at hwords
  exact ⟨hsp, hwords, houtside⟩

/-- Restoring continues from a frame at the stack pointer. -/
theorem restoreContext_spec (m : Machine Reg) {regs : Reg → BitVec 64} {ip : BitVec 64}
    (hframe : SwitchFrame m.memory m.sp.toNat regs ip) (hbound : m.sp.toNat + 56 < 2 ^ 64) :
    (∀ r ∈ calleeSaved, (restoreContext m).regs r = regs r) ∧ (restoreContext m).ip = ip ∧
      (restoreContext m).sp.toNat = m.sp.toNat + 56 := by
  have hlength : calleeSaved.length = 6 := rfl
  obtain ⟨hregs, hip⟩ := words_append.mp hframe
  rw [List.length_map, hlength] at hip
  obtain ⟨hpopped, _, _, hmemory, hsp⟩ := Machine.popAll_spec m
    (show calleeSaved.Nodup by decide) hregs (by rw [hlength]; omega)
  rw [hlength] at hsp
  refine ⟨hpopped, ?_, ?_⟩
  · show Memory.load64 (m.popAll calleeSaved).memory (m.popAll calleeSaved).sp.toNat = ip
    rw [hmemory, hsp]
    exact hip.1
  · show ((m.popAll calleeSaved).sp + 8#64).toNat = m.sp.toNat + 56
    rw [Machine.toNat_add_word (by omega), hsp]

/-- Restoring writes no memory. -/
theorem restoreContext_memory (m : Machine Reg) : (restoreContext m).memory = m.memory := rfl

/-- A call of `ArchSwitchContext` leaves a frame of the caller's registers and return address
below its stack pointer, stores the address of the frame, and writes nothing else. -/
theorem switch_saves (m : Machine Reg) (slot rsp : BitVec 64) (hroom : 56 ≤ m.sp.toNat) :
    (callArchSwitchContext m slot rsp).2.toNat = m.sp.toNat - 56 ∧
      SwitchFrame (callArchSwitchContext m slot rsp).1.memory (m.sp.toNat - 56) m.regs m.ip ∧
      ∀ x, x < m.sp.toNat - 56 ∨ m.sp.toNat ≤ x →
        (callArchSwitchContext m slot rsp).1.memory x = m.memory x := by
  rw [callArchSwitchContext_eq, restoreContext_memory]
  exact saveContext_spec { m with regs := Function.update m.regs .rsi rsp } hroom

/-- A call of `ArchSwitchContext` continues from the frame at `rsp`, if the caller's frame does not
overlap it. -/
theorem switch_restores (m : Machine Reg) (slot : BitVec 64) {rsp ip : BitVec 64}
    {regs : Reg → BitVec 64} (hroom : 56 ≤ m.sp.toNat) (hbound : rsp.toNat + 56 < 2 ^ 64)
    (hframe : SwitchFrame m.memory rsp.toNat regs ip)
    (hapart : rsp.toNat + 56 ≤ m.sp.toNat - 56 ∨ m.sp.toNat ≤ rsp.toNat) :
    (∀ r ∈ calleeSaved, (callArchSwitchContext m slot rsp).1.regs r = regs r) ∧
      (callArchSwitchContext m slot rsp).1.ip = ip ∧
      (callArchSwitchContext m slot rsp).1.sp.toNat = rsp.toNat + 56 := by
  obtain ⟨_, _, houtside⟩ := switch_saves m slot rsp hroom
  rw [callArchSwitchContext_eq] at houtside ⊢
  refine restoreContext_spec _ (hframe.congr fun x hlow hhigh => houtside x ?_) hbound
  omega

end HailOS.Arch
