import HailOS.Lib.Steps
import HailOS.Sync.SpinLock

/-!
# Critical sections and interrupt-saving locks

`StartCriticalSection` and `EndCriticalSection` bracket code with `cli` and `sti`, and so do
`LockIRQSave` and `UnlockIRQRestore`, which also save and restore the flag. On one CPU the
brackets are nested. `EndCriticalSection` turns interrupts on whatever is still open around it:
`interrupts_off_iff` says that interrupts stay off inside all brackets exactly if no
`EndCriticalSection` closes a bracket inside another.
-/

namespace HailOS.Sync

open Lib

/-- The bit `1ull << 9` of RFLAGS. -/
def interruptBit : BitVec 64 := BitVec.twoPow 64 9

/-- Interrupts are on. -/
def interruptsOn (rflags : BitVec 64) : Bool := rflags &&& interruptBit != 0

/-- The CPU, the static `InCritical` and the locks. -/
structure CPUState where
  rflags : BitVec 64
  inCritical : Bool
  locks : Nat → TicketSpinLock

namespace CPUState

/-- The instruction `cli`. -/
def cli (s : CPUState) : CPUState := { s with rflags := s.rflags &&& ~~~interruptBit }

/-- The instruction `sti`. -/
def sti (s : CPUState) : CPUState := { s with rflags := s.rflags ||| interruptBit }

/-- `StartCriticalSection`. -/
def startCriticalSection (s : CPUState) : CPUState := { s with inCritical := true }.cli

/-- `EndCriticalSection`. -/
def endCriticalSection (s : CPUState) : CPUState := { s with inCritical := false }.sti

/-- `EnableInterrupt`. -/
def enableInterrupt (s : CPUState) : CPUState := if !s.inCritical then s.sti else s

/-- `IRQSaveAndDisable`: the saved RFLAGS and the CPU after `cli`. -/
def irqSaveAndDisable (s : CPUState) : BitVec 64 × CPUState := (s.rflags, s.cli)

/-- `IRQRestore`. -/
def irqRestore (s : CPUState) (saved : BitVec 64) : CPUState :=
  if interruptsOn saved then s.sti else s

/-- `Lock` on a CPU that runs alone. Its loop never ends if the ticket is not up, since nobody
else writes `Owner`. -/
def lock (s : CPUState) (l : Nat) : Option CPUState :=
  let r := (s.locks l).fetchAddNext
  if r.2.owner = r.1 then some { s with locks := Function.update s.locks l r.2 } else none

/-- `Unlock`. -/
def unlock (s : CPUState) (l : Nat) : CPUState :=
  { s with locks := Function.update s.locks l (s.locks l).fetchAddOwner }

end CPUState

/-- `LockedWithIRQ`. -/
structure LockedWithIRQ where
  lockPtr : Nat
  state : BitVec 64
deriving DecidableEq, Repr

/-- `LockIRQSave`. -/
def CPUState.lockIRQSave (s : CPUState) (l : Nat) : Option (LockedWithIRQ × CPUState) := do
  let r := s.irqSaveAndDisable
  let s ← r.2.lock l
  return (⟨l, r.1⟩, s)

/-- `UnlockIRQRestore`. -/
def CPUState.unlockIRQRestore (s : CPUState) (ctx : LockedWithIRQ) : CPUState :=
  (s.unlock ctx.lockPtr).irqRestore ctx.state

/-! ## Nested brackets -/

/-- A call of the program. -/
inductive BracketOp where
  | startCriticalSection
  | endCriticalSection
  | lockIRQSave (l : Nat)
  | unlockIRQRestore
  | enableInterrupt
deriving DecidableEq, Repr

/-- An open bracket. -/
inductive Bracket where
  | critical
  | locked (l : Nat)
deriving DecidableEq, Repr

/-- A properly nested call and the open brackets before and after it, innermost first: an end
closes the innermost bracket, no lock is taken twice, and `EnableInterrupt` is called inside a
critical section. -/
inductive Nested : List Bracket → BracketOp → List Bracket → Prop where
  | start (brackets) : Nested brackets .startCriticalSection (.critical :: brackets)
  | finish (brackets) : Nested (.critical :: brackets) .endCriticalSection brackets
  | lock (brackets l) (h : .locked l ∉ brackets) :
      Nested brackets (.lockIRQSave l) (.locked l :: brackets)
  | unlock (brackets l) : Nested (.locked l :: brackets) .unlockIRQRestore brackets
  | enable (brackets) (h : .critical ∈ brackets) : Nested brackets .enableInterrupt brackets

/-- The open brackets are determined by the calls. -/
theorem nested_unique (brackets : List Bracket) (op : BracketOp) (after after' : List Bracket)
    (h : Nested brackets op after) (h' : Nested brackets op after') : after = after' := by
  cases h <;> cases h' <;> rfl

/-- The CPU, and the contexts of the locks that are held, the last one first. -/
structure BracketState where
  cpu : CPUState
  held : List LockedWithIRQ

/-- One call. The context of the last lock is the one that is restored. -/
def BracketState.exec (s : BracketState) : BracketOp → Option BracketState
  | .startCriticalSection => some { s with cpu := s.cpu.startCriticalSection }
  | .endCriticalSection => some { s with cpu := s.cpu.endCriticalSection }
  | .lockIRQSave l => do
      let r ← s.cpu.lockIRQSave l
      return ⟨r.2, r.1 :: s.held⟩
  | .unlockIRQRestore =>
      match s.held with
      | ctx :: rest => some ⟨s.cpu.unlockIRQRestore ctx, rest⟩
      | [] => none
  | .enableInterrupt => some { s with cpu := s.cpu.enableInterrupt }

/-- No bracket is open and every lock is free. -/
def BracketState.initial (rflags : BitVec 64) (tickets : Nat → BitVec 32) : BracketState where
  cpu := ⟨rflags, false, fun l => ⟨tickets l, tickets l⟩⟩
  held := []

/-! ## The flag -/

theorem interruptsOn_eq (rflags : BitVec 64) : interruptsOn rflags = rflags.getLsbD 9 := by
  rw [interruptsOn, interruptBit, BitVec.and_twoPow]
  cases rflags.getLsbD 9 with
  | true => rfl
  | false => rfl

@[simp] theorem interruptsOn_sti (s : CPUState) : interruptsOn s.sti.rflags = true := by
  rw [interruptsOn_eq]
  simp [CPUState.sti, interruptBit]

@[simp] theorem interruptsOn_cli (s : CPUState) : interruptsOn s.cli.rflags = false := by
  rw [interruptsOn_eq]
  simp [CPUState.cli, interruptBit]

/-! ## The locks -/

/-- The contexts belong to the locks of the open brackets. -/
def HeldFor : List Bracket → List LockedWithIRQ → Prop
  | [], held => held = []
  | .critical :: brackets, held => HeldFor brackets held
  | .locked l :: brackets, ctx :: held =>
      ctx.lockPtr = l ∧ .locked l ∉ brackets ∧ HeldFor brackets held
  | .locked _ :: _, [] => False

/-- The contexts belong to the open brackets, and exactly the locks of the open brackets are
taken. -/
structure LocksMatch (brackets : List Bracket) (s : BracketState) : Prop where
  held : HeldFor brackets s.held
  locks : ∀ l, (s.cpu.locks l).next =
    if .locked l ∈ brackets then (s.cpu.locks l).owner + 1 else (s.cpu.locks l).owner

theorem LocksMatch.initial (rflags : BitVec 64) (tickets : Nat → BitVec 32) :
    LocksMatch [] (BracketState.initial rflags tickets) where
  held := rfl
  locks := fun _ => (if_neg List.not_mem_nil).symm

/-- A free lock is taken at once. -/
theorem BracketState.exec_lockIRQSave (s : BracketState) {l : Nat}
    (h : (s.cpu.locks l).next = (s.cpu.locks l).owner) :
    s.exec (.lockIRQSave l) = some
      ⟨{ s.cpu.cli with
          locks := Function.update s.cpu.locks l
            ⟨(s.cpu.locks l).next + 1, (s.cpu.locks l).owner⟩ },
        ⟨l, s.cpu.rflags⟩ :: s.held⟩ := by
  have hlock : s.cpu.cli.lock l = some { s.cpu.cli with
      locks := Function.update s.cpu.locks l
        ⟨(s.cpu.locks l).next + 1, (s.cpu.locks l).owner⟩ } := if_pos h.symm
  simp only [BracketState.exec, CPUState.lockIRQSave, CPUState.irqSaveAndDisable, hlock]
  rfl

/-- The restore of the last context. -/
theorem BracketState.exec_unlockIRQRestore {s : BracketState} {ctx : LockedWithIRQ}
    {held : List LockedWithIRQ} (h : s.held = ctx :: held) :
    s.exec .unlockIRQRestore = some ⟨s.cpu.unlockIRQRestore ctx, held⟩ := by
  simp only [BracketState.exec, h]

/-- The innermost lock has the last context. -/
theorem HeldFor.locked {l : Nat} {brackets : List Bracket} {held : List LockedWithIRQ}
    (h : HeldFor (.locked l :: brackets) held) :
    ∃ ctx rest, held = ctx :: rest ∧ ctx.lockPtr = l ∧ .locked l ∉ brackets ∧
      HeldFor brackets rest := by
  cases held with
  | nil => exact absurd h id
  | cons ctx rest => exact ⟨ctx, rest, rfl, h.1, h.2.1, h.2.2⟩

@[simp] theorem CPUState.locks_startCriticalSection (s : CPUState) :
    s.startCriticalSection.locks = s.locks := rfl

@[simp] theorem CPUState.locks_endCriticalSection (s : CPUState) :
    s.endCriticalSection.locks = s.locks := rfl

@[simp] theorem CPUState.locks_irqRestore (s : CPUState) (saved : BitVec 64) :
    (s.irqRestore saved).locks = s.locks := by
  unfold CPUState.irqRestore
  split <;> rfl

@[simp] theorem CPUState.locks_enableInterrupt (s : CPUState) :
    s.enableInterrupt.locks = s.locks := by
  unfold CPUState.enableInterrupt
  split <;> rfl

/-- A properly nested call does not wait for a lock, and the locks match again. -/
theorem LocksMatch.exec {brackets brackets' : List Bracket} {s : BracketState} {op : BracketOp}
    (h : LocksMatch brackets s) (hnested : Nested brackets op brackets') :
    ∃ t, s.exec op = some t ∧ LocksMatch brackets' t := by
  cases hnested with
  | start => exact ⟨_, rfl, { held := h.held, locks := by simpa using h.locks }⟩
  | finish => exact ⟨_, rfl, { held := h.held, locks := by simpa using h.locks }⟩
  | lock _ l hl =>
      have hfree : (s.cpu.locks l).next = (s.cpu.locks l).owner := by rw [h.locks, if_neg hl]
      refine ⟨_, s.exec_lockIRQSave hfree, { held := ⟨rfl, hl, h.held⟩, locks := ?_ }⟩
      intro l'
      by_cases hsame : l' = l
      · subst hsame
        simp [hfree]
      · simpa [hsame] using h.locks l'
  | unlock _ l =>
      obtain ⟨ctx, rest, hheld, hptr, hl, hrest⟩ := h.held.locked
      refine ⟨_, BracketState.exec_unlockIRQRestore hheld, { held := hrest, locks := ?_ }⟩
      have htaken : (s.cpu.locks l).next = (s.cpu.locks l).owner + 1 := by
        rw [h.locks, if_pos List.mem_cons_self]
      intro l'
      rw [CPUState.unlockIRQRestore, CPUState.locks_irqRestore, CPUState.unlock, hptr]
      by_cases hsame : l' = l
      · subst hsame
        simp [TicketSpinLock.fetchAddOwner, htaken, hl]
      · simpa [hsame] using h.locks l'
  | enable =>
      refine ⟨_, rfl, { held := h.held, locks := ?_ }⟩
      intro l
      rw [CPUState.locks_enableInterrupt]
      exact h.locks l

/-! ## Interrupts inside the brackets -/

/-- Every context saved inside another bracket has interrupts off. -/
def SavedOff : List Bracket → List LockedWithIRQ → Prop
  | .critical :: brackets, held => SavedOff brackets held
  | .locked _ :: brackets, ctx :: held =>
      (brackets ≠ [] → interruptsOn ctx.state = false) ∧ SavedOff brackets held
  | _, _ => True

/-- Interrupts are off inside the brackets, and no restore inside them will turn them on. -/
structure Quiet (brackets : List Bracket) (s : BracketState) : Prop where
  off : brackets ≠ [] → interruptsOn s.cpu.rflags = false
  inCritical : .critical ∈ brackets → s.cpu.inCritical = true
  saved : SavedOff brackets s.held

theorem Quiet.initial (rflags : BitVec 64) (tickets : Nat → BitVec 32) :
    Quiet [] (BracketState.initial rflags tickets) where
  off := fun h => absurd rfl h
  inCritical := fun h => absurd h List.not_mem_nil
  saved := trivial

/-- A properly nested call keeps interrupts off, unless it ends a critical section inside another
bracket. -/
theorem Quiet.exec {brackets brackets' : List Bracket} {s t : BracketState} {op : BracketOp}
    (h : Quiet brackets s) (hmatch : LocksMatch brackets s) (hnested : Nested brackets op brackets')
    (hend : op = .endCriticalSection → brackets = [.critical]) (hexec : s.exec op = some t) :
    Quiet brackets' t := by
  cases hnested with
  | start =>
      cases hexec
      exact { off := fun _ => interruptsOn_cli _, inCritical := fun _ => rfl, saved := h.saved }
  | finish =>
      cases hexec
      cases hend rfl
      exact
        { off := fun hopen => absurd rfl hopen
          inCritical := fun hmem => absurd hmem List.not_mem_nil
          saved := trivial }
  | lock _ l hl =>
      have hfree : (s.cpu.locks l).next = (s.cpu.locks l).owner := by
        rw [hmatch.locks, if_neg hl]
      rw [s.exec_lockIRQSave hfree] at hexec
      cases hexec
      refine { off := fun _ => interruptsOn_cli s.cpu, inCritical := ?_, saved := ⟨h.off, h.saved⟩ }
      intro hmem
      exact h.inCritical (by simpa using hmem)
  | unlock _ l =>
      obtain ⟨ctx, rest, hheld, -, -, -⟩ := hmatch.held.locked
      rw [BracketState.exec_unlockIRQRestore hheld] at hexec
      cases hexec
      have hsaved := h.saved
      rw [hheld] at hsaved
      refine { off := ?_, inCritical := ?_, saved := hsaved.2 }
      · intro hopen
        have hrestore : s.cpu.unlockIRQRestore ctx = s.cpu.unlock ctx.lockPtr := by
          rw [CPUState.unlockIRQRestore, CPUState.irqRestore, hsaved.1 hopen]
          rfl
        rw [hrestore]
        exact h.off (List.cons_ne_nil _ _)
      · intro hmem
        have hcritical := h.inCritical (List.mem_cons_of_mem _ hmem)
        show (s.cpu.unlockIRQRestore ctx).inCritical = true
        rw [CPUState.unlockIRQRestore, CPUState.irqRestore]
        split
        · exact hcritical
        · exact hcritical
  | enable _ hcritical =>
      cases hexec
      have hnone : s.cpu.enableInterrupt = s.cpu := by
        rw [CPUState.enableInterrupt, h.inCritical hcritical]
        rfl
      rw [hnone]
      exact h

/-- A properly nested program whose every `EndCriticalSection` closes the only open bracket keeps
interrupts off inside its brackets. -/
theorem quiet_run (rflags : BitVec 64) (tickets : Nat → BitVec 32) {ops : List BracketOp}
    {brackets : List Bracket} (h : Steps Nested [] ops brackets)
    (hend : ∀ before after brackets, ops = before ++ .endCriticalSection :: after →
      Steps Nested [] before brackets → brackets = [.critical]) :
    ∃ s, Steps (fun s op t => BracketState.exec s op = some t)
      (BracketState.initial rflags tickets) ops s ∧ LocksMatch brackets s ∧ Quiet brackets s := by
  induction ops using List.reverseRecOn generalizing brackets with
  | nil =>
      cases h
      exact ⟨_, .refl _, LocksMatch.initial rflags tickets, Quiet.initial rflags tickets⟩
  | append_singleton ops op ih =>
      obtain ⟨middle, hbefore, hlast⟩ := h.of_snoc
      obtain ⟨s, hrun, hmatch, hquiet⟩ := ih hbefore (by
        intro before after brackets hops
        exact hend before (after ++ [op]) brackets (by rw [hops, List.append_assoc]; rfl))
      obtain ⟨t, hexec, hmatch'⟩ := hmatch.exec hlast
      refine ⟨t, hrun.snoc hexec, hmatch', hquiet.exec hmatch hlast ?_ hexec⟩
      intro hop
      exact hend ops [] middle (by rw [hop]) hbefore

/-- Interrupts are off at every point of a properly nested program at which a bracket is open,
exactly if every `EndCriticalSection` of it closes the only open bracket. -/
theorem interrupts_off_iff (rflags : BitVec 64) (tickets : Nat → BitVec 32) {ops : List BracketOp}
    {brackets : List Bracket} (hops : Steps Nested [] ops brackets) :
    (∀ before after brackets, ops = before ++ after → Steps Nested [] before brackets →
      ∃ s, Steps (fun s op t => BracketState.exec s op = some t)
        (BracketState.initial rflags tickets) before s ∧
        (brackets ≠ [] → interruptsOn s.cpu.rflags = false)) ↔
      ∀ before after brackets, ops = before ++ .endCriticalSection :: after →
        Steps Nested [] before brackets → brackets = [.critical] := by
  constructor
  · intro hoff before after inside hsplit hbefore
    obtain ⟨middle, hbefore', hrest⟩ := (hsplit ▸ hops).of_append
    cases hbefore.unique nested_unique hbefore'
    cases hrest with
    | @cons _ rest _ _ _ hcall _ =>
        -- a bracket that is left open sees interrupts on right after the call
        obtain ⟨s, hrun, hoff'⟩ := hoff (before ++ [.endCriticalSection]) after rest
          (by rw [hsplit, List.append_assoc]; rfl) (hbefore.snoc hcall)
        obtain ⟨u, -, hexec⟩ := hrun.of_snoc
        have hon : interruptsOn s.cpu.rflags = true := by
          cases hexec
          exact interruptsOn_sti _
        have hclosed : rest = [] := by
          by_contra hopen
          rw [hoff' hopen] at hon
          cases hon
        cases hcall
        rw [hclosed]
  · intro hend before after inside hsplit hbefore
    obtain ⟨s, hrun, -, hquiet⟩ := quiet_run rflags tickets hbefore (by
      intro first second brackets hfirst
      exact hend first (second ++ after) brackets (by rw [hsplit, hfirst, List.append_assoc]; rfl))
    exact ⟨s, hrun, hquiet.off⟩

/-- A lock inside a critical section, with interrupts on at the start. -/
theorem interrupts_off_lock_inside :
    ∃ s, Steps (fun s op t => BracketState.exec s op = some t)
        (BracketState.initial interruptBit fun _ => 0)
        [.startCriticalSection, .lockIRQSave 0, .enableInterrupt] s ∧
      interruptsOn s.cpu.rflags = false := by
  have hnested : Steps Nested []
      [.startCriticalSection, .lockIRQSave 0, .enableInterrupt] [.locked 0, .critical] :=
    .cons (.start _) (.cons (.lock _ 0 (by simp)) (.cons (.enable _ (by simp)) (.refl _)))
  obtain ⟨s, hrun, hoff⟩ := (interrupts_off_iff interruptBit (fun _ => 0) hnested).2 (by
    intro before after brackets hsplit _
    have hmem : BracketOp.endCriticalSection ∈
        [BracketOp.startCriticalSection, .lockIRQSave 0, .enableInterrupt] := by
      rw [hsplit]
      simp
    simp at hmem) _ [] _ (List.append_nil _).symm hnested
  exact ⟨s, hrun, hoff (List.cons_ne_nil _ _)⟩

/-- A critical section inside another ends, and the outer one runs on with interrupts on. -/
theorem nested_critical_section_enables :
    Steps Nested [] [.startCriticalSection, .startCriticalSection, .endCriticalSection]
        [.critical] ∧
      ∃ s, Steps (fun s op t => BracketState.exec s op = some t)
          (BracketState.initial 0 fun _ => 0)
          [.startCriticalSection, .startCriticalSection, .endCriticalSection] s ∧
        interruptsOn s.cpu.rflags = true :=
  ⟨.cons (.start _) (.cons (.start _) (.cons (.finish _) (.refl _))),
    _, .cons rfl (.cons rfl (.cons rfl (.refl _))), interruptsOn_sti _⟩

end HailOS.Sync
