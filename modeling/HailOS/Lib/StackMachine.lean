import HailOS.Lib.ByteMemory

/-!
# Machines with a downward stack

A machine has registers, a stack pointer, an instruction pointer and a byte memory. Pushing
moves the stack pointer down by one word, popping moves it up. `Words memory address values` says
that the words from `address` on are `values`. `pushAll_spec` and `popAll_spec` are the two
halves of saving registers on a stack: pushing leaves the words in reverse order below the old
stack pointer, and popping words gives them to the registers.
-/

namespace HailOS.Lib

/-- The words from `address` on are the given values. -/
def Words (memory : Memory) : Nat → List (BitVec 64) → Prop
  | _, [] => True
  | address, word :: rest =>
      Memory.load64 memory address = word ∧ Words memory (address + 8) rest

/-- Words depend only on their bytes. -/
theorem Words.congr {memory memory' : Memory} {address : Nat} {values : List (BitVec 64)}
    (h : Words memory address values)
    (hsame : ∀ x, address ≤ x → x < address + 8 * values.length → memory' x = memory x) :
    Words memory' address values := by
  induction values generalizing address with
  | nil => trivial
  | cons word rest ih =>
      rw [List.length_cons] at hsame
      refine ⟨?_, ih h.2 fun x hlow hhigh => hsame x (by omega) (by omega)⟩
      rw [Memory.load64_congr fun i hi => hsame _ (by omega) (by omega)]
      exact h.1

/-- Words of a concatenation. -/
theorem words_append {memory : Memory} {address : Nat} {first second : List (BitVec 64)} :
    Words memory address (first ++ second) ↔
      Words memory address first ∧ Words memory (address + 8 * first.length) second := by
  induction first generalizing address with
  | nil => simp [Words]
  | cons word rest ih =>
      have hnext : address + 8 + 8 * rest.length = address + 8 * (word :: rest).length := by
        rw [List.length_cons]
        omega
      rw [List.cons_append, Words, Words, ih, hnext, and_assoc]

/-- A machine with registers named by `Reg`. -/
structure Machine (Reg : Type) where
  regs : Reg → BitVec 64
  sp : BitVec 64
  ip : BitVec 64
  memory : Memory

namespace Machine

variable {Reg : Type}

/-- Push a word. -/
def push (m : Machine Reg) (word : BitVec 64) : Machine Reg :=
  { m with sp := m.sp - 8#64, memory := Memory.store64 m.memory (m.sp - 8#64).toNat word }

/-- Push words, the first one first. -/
def pushAll (m : Machine Reg) (words : List (BitVec 64)) : Machine Reg :=
  words.foldl push m

/-- Pop a word into a register. -/
def pop [DecidableEq Reg] (m : Machine Reg) (r : Reg) : Machine Reg :=
  { m with
    regs := Function.update m.regs r (Memory.load64 m.memory m.sp.toNat), sp := m.sp + 8#64 }

/-- Pop words into registers, the first one first. -/
def popAll [DecidableEq Reg] (m : Machine Reg) (rs : List Reg) : Machine Reg :=
  rs.foldl pop m

/-- Return: pop the instruction pointer. -/
def ret (m : Machine Reg) : Machine Reg :=
  { m with ip := Memory.load64 m.memory m.sp.toNat, sp := m.sp + 8#64 }

theorem toNat_sub_word {sp : BitVec 64} (h : 8 ≤ sp.toNat) : (sp - 8#64).toNat = sp.toNat - 8 :=
  BitVec.toNat_sub_of_le h

theorem toNat_add_word {sp : BitVec 64} (h : sp.toNat + 8 < 2 ^ 64) :
    (sp + 8#64).toNat = sp.toNat + 8 :=
  BitVec.toNat_add_of_lt h

/-- Pushing words leaves them in reverse order below the old stack pointer, and changes nothing
else. -/
theorem pushAll_spec (m : Machine Reg) (words : List (BitVec 64))
    (h : 8 * words.length ≤ m.sp.toNat) :
    (m.pushAll words).regs = m.regs ∧ (m.pushAll words).ip = m.ip ∧
      (m.pushAll words).sp.toNat = m.sp.toNat - 8 * words.length ∧
      Words (m.pushAll words).memory (m.sp.toNat - 8 * words.length) words.reverse ∧
      ∀ x, x < m.sp.toNat - 8 * words.length ∨ m.sp.toNat ≤ x →
        (m.pushAll words).memory x = m.memory x := by
  induction words generalizing m with
  | nil => exact ⟨rfl, rfl, rfl, trivial, fun _ _ => rfl⟩
  | cons word rest ih =>
      rw [List.length_cons] at h
      have hsp : (m.push word).sp.toNat = m.sp.toNat - 8 := toNat_sub_word (by omega)
      obtain ⟨hregs, hip, hfinal, hwords, houtside⟩ := ih (m.push word) (by omega)
      rw [hsp] at hfinal hwords houtside
      have hlow : m.sp.toNat - 8 - 8 * rest.length = m.sp.toNat - 8 * (rest.length + 1) := by
        omega
      rw [hlow] at hfinal hwords houtside
      refine ⟨hregs, hip, hfinal, ?_, fun x hx => ?_⟩
      · rw [List.reverse_cons]
        refine words_append.mpr ⟨hwords, ?_, trivial⟩
        rw [List.length_reverse, List.length_cons,
          show m.sp.toNat - 8 * (rest.length + 1) + 8 * rest.length = m.sp.toNat - 8 by omega]
        have hkept : ∀ i < 8, (pushAll (m.push word) rest).memory (m.sp.toNat - 8 + i) =
            (m.push word).memory (m.sp.toNat - 8 + i) := fun i hi => houtside _ (by omega)
        rw [show m.pushAll (word :: rest) = (m.push word).pushAll rest from rfl,
          Memory.load64_congr hkept, ← hsp]
        exact Memory.load64_store64_same
      · rw [List.length_cons] at hx
        have hrest := houtside x (by omega)
        refine hrest.trans ?_
        show Memory.store64 m.memory (m.sp - 8#64).toNat word x = m.memory x
        rw [toNat_sub_word (by omega), Memory.store64_outside (by omega)]

/-- Popping words gives them to the registers, and changes nothing else. -/
theorem popAll_spec [DecidableEq Reg] (m : Machine Reg) {rs : List Reg} (hnodup : rs.Nodup)
    {values : Reg → BitVec 64} (hwords : Words m.memory m.sp.toNat (rs.map values))
    (h : m.sp.toNat + 8 * rs.length < 2 ^ 64) :
    (∀ r ∈ rs, (m.popAll rs).regs r = values r) ∧
      (∀ r, r ∉ rs → (m.popAll rs).regs r = m.regs r) ∧ (m.popAll rs).ip = m.ip ∧
      (m.popAll rs).memory = m.memory ∧
      (m.popAll rs).sp.toNat = m.sp.toNat + 8 * rs.length := by
  induction rs generalizing m with
  | nil => exact ⟨by simp, fun _ _ => rfl, rfl, rfl, rfl⟩
  | cons first rest ih =>
      rw [List.length_cons] at h
      obtain ⟨hfirst, hrestNodup⟩ := List.nodup_cons.mp hnodup
      have hsp : (m.pop first).sp.toNat = m.sp.toNat + 8 := toNat_add_word (by omega)
      obtain ⟨hin, hout, hip, hmemory, hfinal⟩ :=
        ih (m.pop first) hrestNodup (by rw [hsp]; exact hwords.2) (by omega)
      have heq : m.popAll (first :: rest) = (m.pop first).popAll rest := rfl
      rw [heq]
      refine ⟨fun r hr => ?_, fun r hr => ?_, hip, hmemory, ?_⟩
      · rcases List.mem_cons.mp hr with rfl | hr
        · rw [hout r hfirst]
          exact (Function.update_self ..).trans hwords.1
        · exact hin r hr
      · rw [List.mem_cons, not_or] at hr
        rw [hout r hr.2]
        exact Function.update_of_ne hr.1 ..
      · rw [hfinal, hsp, List.length_cons]
        omega

end Machine

end HailOS.Lib
