import HailOS.Lib.Steps
import HailOS.Scheduler.Scheduler

/-!
# Context switches

Threads take turns on the processor by calls of `SwitchTo`. In between, the running thread computes
on its own stack and creates threads. A thread that is switched out is suspended: its stack holds
a frame of the registers and the return address that it had. `Suspended.step` says that no
operation disturbs a suspended thread, other than the switch to it, and
`context_switches_preserve` that this switch gives the thread its registers back. The frame of a
new thread is the one that `PrepareInitialStack` builds, and leads to `ThreadStartTrampoline`.
-/

namespace HailOS.Sched

open Lib Kernel Early Arch

/-! ## The first frame -/

namespace SchedState

variable {s s' : SchedState} {t : ThreadPtr}

/-- `PrepareInitialStack` builds a frame that returns to the trampoline with zero in every
callee-saved register. It writes the 64 bytes at the top of the stack only. -/
theorem prepareInitialStack_spec (s : SchedState) (t : ThreadPtr)
    (hroom : 64 ≤ (s.threads t).kStack.top) (hbound : (s.threads t).kStack.top < 2 ^ 64) :
    ((s.prepareInitialStack t).threads t).ctx.rsp.toNat = (s.threads t).kStack.top - 64 ∧
      SwitchFrame (s.prepareInitialStack t).machine.memory ((s.threads t).kStack.top - 64)
        (fun _ => 0) s.trampoline ∧
      ∀ x, x < (s.threads t).kStack.top - 64 ∨ (s.threads t).kStack.top ≤ x →
        (s.prepareInitialStack t).machine.memory x = s.machine.memory x := by
  have htop : (BitVec.ofNat 64 (s.threads t).kStack.top).toNat = (s.threads t).kStack.top := by
    rw [BitVec.toNat_ofNat, Nat.mod_eq_of_lt hbound]
  obtain ⟨_, _, hsp, hwords, houtside⟩ := Machine.pushAll_spec
    ({ s.machine with sp := BitVec.ofNat 64 (s.threads t).kStack.top } : Machine Reg)
    [0, s.trampoline, 0, 0, 0, 0, 0, 0] (by rw [htop]; exact hroom)
  rw [htop] at hsp hwords houtside
  refine ⟨?_, ?_, houtside⟩
  · rw [← show _ = (s.threads t).kStack.top - 64 from hsp]
    simp [prepareInitialStack, modify]
  · -- the last of the eight words is the one above the frame
    have hsplit : Words _ _ ([0, 0, 0, 0, 0, 0, s.trampoline] ++ [0]) := hwords
    exact (words_append.mp hsplit).1

/-- What `CreateKernel` leaves behind for a new thread `t`: a stack of whole pages, and the frame
at its top. Besides it writes the header of the thread object. -/
structure FirstFrame (s s' : SchedState) (t : ThreadPtr) : Prop where
  pages : ∃ first count, 0 < count ∧ first + count ≤ scanTotal ∧
    (s'.threads t).kStack.base = 4096 * first ∧
    (s'.threads t).kStack.top = 4096 * (first + count)
  rsp : (s'.threads t).ctx.rsp.toNat = (s'.threads t).kStack.top - 64
  frame : SwitchFrame s'.machine.memory ((s'.threads t).kStack.top - 64) (fun _ => 0) s.trampoline
  outside : ∀ x, x < t - 8 ∨ t ≤ x →
    x < (s'.threads t).kStack.top - 64 ∨ (s'.threads t).kStack.top ≤ x →
    s'.machine.memory x = s.machine.memory x

/-- The stack of a new thread has at least one page, and its top is aligned. -/
theorem FirstFrame.room (h : FirstFrame s s' t) :
    (s'.threads t).kStack.base + 4096 ≤ (s'.threads t).kStack.top ∧
      (s'.threads t).kStack.top < 2 ^ 64 ∧ (s'.threads t).kStack.top % 16 = 0 := by
  obtain ⟨first, count, hcount, hfits, hbase, htop⟩ := h.pages
  have hscan : scanTotal = 2 ^ 24 + 8 := by rw [scanTotal_eq, pageTotal_eq]
  rw [hbase, htop]
  omega

/-- `new Thread()` writes the header before the object only. -/
theorem newThread_outside {s₁ : SchedState} (h : s.newThread = some (t, s₁)) {x : Nat}
    (hx : x < t - 8 ∨ t ≤ x) : s₁.machine.memory x = s.machine.memory x := by
  obtain ⟨hconstructed, _, hmemory⟩ := newThread_spec h
  obtain ⟨k, hpos, _, haddress, _⟩ := hconstructed.page
  rw [hmemory]
  exact writeAllocatedMemoryInfo_before _ _ haddress hpos hx

/-- `CreateKernel` builds the first frame of the thread that it returns. -/
theorem createKernel_frame {name : String} {entry : ThreadEntry} {arg stackSize : Nat}
    (h : s.createKernel name entry arg stackSize = some (some t, s')) : FirstFrame s s' t := by
  obtain ⟨t', s₁, hnew, hcases⟩ := createKernel_cases h
  obtain ⟨hconstructed, _, _⟩ := newThread_spec hnew
  rcases hcases with ⟨stack, bitmap, halloc, hresult, rfl⟩ | ⟨_, _, _, hresult, _⟩
  · obtain rfl : t = t' := Option.some.inj hresult
    generalize hfilled : ({ s₁ with
        bitmap := bitmap
        threads := Function.update s₁.threads t
          { kernelThread name entry arg s₁.cpuIndex with kStack := stack } } : SchedState) = s₂
    have hstack : (s₂.threads t).kStack = stack := by
      rw [← hfilled]
      simp
    have hmemory : s₂.machine.memory = s₁.machine.memory := by rw [← hfilled]
    have htrampoline : s₂.trampoline = s.trampoline := by
      rw [← hfilled]
      exact hconstructed.globals.trampoline
    have hstack' : (((s₂.prepareInitialStack t).modify t
        fun thread => { thread with state := .ready }).threads t).kStack = stack := by
      simp [modify, prepareInitialStack, hstack]
    obtain ⟨first, count, hfirst, hcount, hfits, hbase, htop⟩ := KernelStack.allocate_pages halloc
    have hscan : scanTotal = 2 ^ 24 + 8 := by rw [scanTotal_eq, pageTotal_eq]
    obtain ⟨hrsp, hframe, houtside⟩ := prepareInitialStack_spec s₂ t (by rw [hstack]; omega)
      (by rw [hstack]; omega)
    rw [hstack] at hrsp hframe houtside
    rw [htrampoline] at hframe
    refine ⟨⟨first, count, hcount, hfits, ?_, ?_⟩, ?_, ?_, fun x hx hxs => ?_⟩
    · rw [hstack', hbase]
    · rw [hstack', htop]
    · rw [hstack', ← hrsp]
      simp [modify]
    · rw [hstack']
      exact hframe
    · rw [hstack'] at hxs
      rw [← newThread_outside hnew hx, ← hmemory]
      exact houtside x hxs
  · cases hresult

/-- A `CreateKernel` that returns null writes the header of the object only. -/
theorem createKernel_null_outside {name : String} {entry : ThreadEntry} {arg stackSize : Nat}
    (h : s.createKernel name entry arg stackSize = some (none, s')) :
    ∃ t s₁, s.newThread = some (t, s₁) ∧
      ∀ x, x < t - 8 ∨ t ≤ x → s'.machine.memory x = s.machine.memory x := by
  obtain ⟨t, s₁, hnew, hcases⟩ := createKernel_cases h
  rcases hcases with ⟨_, _, _, hresult, _⟩ | ⟨stack, bitmap, _, _, rfl⟩
  · cases hresult
  · exact ⟨t, s₁, hnew, fun x hx => newThread_outside hnew hx⟩

end SchedState

/-! ## Threads taking turns -/

/-- Two stacks do not overlap. -/
def KernelStack.Apart (a b : KernelStack) : Prop := a.top ≤ b.base ∨ b.top ≤ a.base

/-- A scheduler state with the threads in use and their stacks. The thread that was running at the
start has no `KStack` of its own, so the stacks are recorded here. -/
structure SwitchState where
  sched : SchedState
  stackOf : ThreadPtr → Option KernelStack

/-- What the running thread does. -/
inductive SwitchOp where
  | create (name : String) (entry : ThreadEntry) (arg stackSize : Nat)
  | compute (machine : Machine Reg) (bitmap : PageBitmap)
  | switchTo (next : ThreadPtr)

/-- The page of a thread object is outside all stacks. -/
def SwitchState.ObjectApart (st : SwitchState) (t : ThreadPtr) : Prop :=
  ∀ u stack, st.stackOf u = some stack → t + 4096 ≤ stack.base ∨ stack.top ≤ t

/-- The transitions. The pages of a new thread, for its object and for its stack, are apart from
the stacks in use. A computation leaves the stacks of the other threads alone, and does not free
the thread objects. At a call of `SwitchTo`, the stack pointer is within the stack of the running
thread, with room for the frame, and below the word that `PrepareInitialStack` left at the top. -/
inductive SwitchStep : SwitchState → SwitchOp → SwitchState → Prop where
  | create {st : SwitchState} {s' : SchedState} {name : String} {entry : ThreadEntry}
      {arg stackSize : Nat} {t : ThreadPtr}
      (hcreate : st.sched.createKernel name entry arg stackSize = some (some t, s'))
      (hobject : st.ObjectApart t)
      (hstack : ∀ u stack, st.stackOf u = some stack → (s'.threads t).kStack.Apart stack) :
      SwitchStep st (.create name entry arg stackSize)
        ⟨s', Function.update st.stackOf t (some (s'.threads t).kStack)⟩
  | createNull {st : SwitchState} {s' : SchedState} {name : String} {entry : ThreadEntry}
      {arg stackSize : Nat}
      (hcreate : st.sched.createKernel name entry arg stackSize = some (none, s'))
      (hobject : ∀ t s₁, st.sched.newThread = some (t, s₁) → st.ObjectApart t) :
      SwitchStep st (.create name entry arg stackSize) ⟨s', st.stackOf⟩
  | compute {st : SwitchState} {machine : Machine Reg} {bitmap : PageBitmap}
      (hmemory : ∀ t stack, st.stackOf t = some stack → st.sched.currentThread ≠ some t →
        ∀ x, stack.base ≤ x → x < stack.top → machine.memory x = st.sched.machine.memory x)
      (hbitmap : ∀ t stack, st.stackOf t = some stack →
        SchedState.Allocated { st.sched with machine := machine, bitmap := bitmap } t) :
      SwitchStep st (.compute machine bitmap)
        ⟨{ st.sched with machine := machine, bitmap := bitmap }, st.stackOf⟩
  | switchTo {st : SwitchState} {s' : SchedState} {next : ThreadPtr}
      (hnext : st.stackOf next ≠ none)
      (hroom : ∀ c stack, st.sched.currentThread = some c → st.stackOf c = some stack →
        stack.base + 56 ≤ st.sched.machine.sp.toNat ∧
          st.sched.machine.sp.toNat + 8 ≤ stack.top)
      (hswitch : st.sched.switchTo (some next) = some s') :
      SwitchStep st (.switchTo next) ⟨s', st.stackOf⟩

/-- The invariant of threads taking turns. -/
structure SwitchState.WellFormed (st : SwitchState) : Prop where
  current : ∃ c stack, st.sched.currentThread = some c ∧ st.stackOf c = some stack
  apart : ∀ t u a b, t ≠ u → st.stackOf t = some a → st.stackOf u = some b → a.Apart b
  allocated : ∀ t stack, st.stackOf t = some stack → st.sched.Allocated t

variable {st st' : SwitchState} {op : SwitchOp} {t : ThreadPtr} {stack : KernelStack}

theorem KernelStack.Apart.symm {a b : KernelStack} (h : a.Apart b) : b.Apart a :=
  Or.symm h

/-- A switch to another thread goes from the current thread to it. -/
theorem switchTo_cases {s s' : SchedState} {c next : ThreadPtr}
    (hcurrent : s.currentThread = some c) (h : s.switchTo (some next) = some s') :
    next = c ∧ s' = s ∨ next ≠ c ∧ s' = s.switched c next := by
  by_cases hne : next = c
  · rw [hne, ← hcurrent, SchedState.switchTo_self] at h
    exact .inl ⟨hne, (Option.some.inj h).symm⟩
  · rw [SchedState.switchTo_other hcurrent hne] at h
    exact .inr ⟨hne, (Option.some.inj h).symm⟩

/-- A thread that was just constructed is not yet in use. -/
theorem SwitchState.WellFormed.ne_new (h : st.WellFormed) {s' : SchedState} {new : ThreadPtr}
    (hnew : SchedState.Constructed st.sched s' new) (ht : st.stackOf t = some stack) : t ≠ new :=
  fun heq => hnew.fresh (heq ▸ h.allocated t stack ht)

/-- A new thread with a stack of its own keeps the invariant. -/
theorem SwitchState.WellFormed.created (h : st.WellFormed) {s' : SchedState} {new : ThreadPtr}
    (hnew : SchedState.Constructed st.sched s' new)
    (hstack : ∀ u b, st.stackOf u = some b → stack.Apart b) :
    SwitchState.WellFormed ⟨s', Function.update st.stackOf new (some stack)⟩ := by
  -- a thread in use is the new one with its stack or an old one
  have hcases : ∀ t a, Function.update st.stackOf new (some stack) t = some a →
      t = new ∧ a = stack ∨ t ≠ new ∧ st.stackOf t = some a := by
    intro t a ht
    by_cases hne : t = new
    · rw [hne, Function.update_self] at ht
      exact .inl ⟨hne, (Option.some.inj ht).symm⟩
    · rw [Function.update_of_ne hne] at ht
      exact .inr ⟨hne, ht⟩
  obtain ⟨c, own, hcurrent, hown⟩ := h.current
  refine ⟨⟨c, own, hnew.globals.currentThread.trans hcurrent, ?_⟩, fun t u a b hne ha hb => ?_,
    fun t a ha => ?_⟩
  · exact (Function.update_of_ne (h.ne_new hnew hown) ..).trans hown
  · rcases hcases t a ha with ⟨rfl, rfl⟩ | ⟨_, hold⟩
    · rcases hcases u b hb with ⟨rfl, _⟩ | ⟨_, hold⟩
      · exact absurd rfl hne
      · exact hstack u b hold
    · rcases hcases u b hb with ⟨_, rfl⟩ | ⟨_, hold'⟩
      · exact (hstack t a hold).symm
      · exact h.apart t u a b hne hold hold'
  · rcases hcases t a ha with ⟨rfl, _⟩ | ⟨_, hold⟩
    · exact hnew.allocated
    · exact hnew.allocated_mono (h.allocated t a hold)

/-- Every transition keeps the invariant. -/
theorem SwitchState.WellFormed.step (h : st.WellFormed) (hstep : SwitchStep st op st') :
    st'.WellFormed := by
  obtain ⟨c, own, hcurrent, hown⟩ := h.current
  cases hstep with
  | create hcreate hobject hstack =>
      exact h.created (SchedState.createKernel_constructed hcreate) hstack
  | createNull hcreate hobject =>
      obtain ⟨t, hnew, _⟩ := SchedState.createKernel_spec hcreate
      refine ⟨⟨c, own, hnew.globals.currentThread.trans hcurrent, hown⟩, h.apart,
        fun u stack hu => hnew.allocated_mono (h.allocated u stack hu)⟩
  | compute hmemory hbitmap => exact ⟨h.current, h.apart, hbitmap⟩
  | switchTo hnext hroom hswitch =>
      obtain ⟨stack, hstack⟩ := Option.ne_none_iff_exists'.mp hnext
      rcases switchTo_cases hcurrent hswitch with ⟨_, rfl⟩ | ⟨_, rfl⟩
      · exact h
      · exact ⟨⟨_, stack, rfl, hstack⟩, h.apart, h.allocated⟩

/-! ## Suspended threads -/

/-- The thread `t` is suspended with the given callee-saved registers, return address and stack
pointer: its stack holds the frame, and `Ctx.RSP` points to it. -/
structure Suspended (st : SwitchState) (t : ThreadPtr) (stack : KernelStack)
    (regs : Reg → BitVec 64) (ip : BitVec 64) (sp : Nat) : Prop where
  not_current : st.sched.currentThread ≠ some t
  owns : st.stackOf t = some stack
  rsp : (st.sched.threads t).ctx.rsp.toNat + 56 = sp
  base_le : stack.base + 56 ≤ sp
  le_top : sp + 8 ≤ stack.top
  bound : sp < 2 ^ 64
  frame : SwitchFrame st.sched.machine.memory (st.sched.threads t).ctx.rsp.toNat regs ip

variable {regs : Reg → BitVec 64} {ip : BitVec 64} {sp : Nat}

/-- A suspended thread stays suspended if its context and the bytes of its stack below the top
word are left alone. -/
theorem Suspended.of_unchanged (h : Suspended st t stack regs ip sp)
    (hcurrent : st'.sched.currentThread ≠ some t) (howns : st'.stackOf t = some stack)
    (hctx : (st'.sched.threads t).ctx = (st.sched.threads t).ctx)
    (hmemory : ∀ x, stack.base ≤ x → x + 8 < stack.top →
      st'.sched.machine.memory x = st.sched.machine.memory x) :
    Suspended st' t stack regs ip sp := by
  have hrsp := h.rsp
  have hbase := h.base_le
  have htop := h.le_top
  refine ⟨hcurrent, howns, by rw [hctx, hrsp], hbase, htop, h.bound, ?_⟩
  rw [hctx]
  exact h.frame.congr fun x hlow hhigh => hmemory x (by omega) (by omega)

/-- A byte of a stack below its top word is no byte of the header of an object in another page. -/
theorem outside_header {p base top x : Nat} (hobject : p + 4096 ≤ base ∨ top ≤ p)
    (hlow : base ≤ x) (hhigh : x + 8 < top) : x < p - 8 ∨ p ≤ x := by
  omega

/-- A byte of one stack is in no frame at the top of a stack apart from it. -/
theorem outside_apart {a b : KernelStack} (h : a.Apart b) {x low high : Nat}
    (hlow : b.base ≤ x) (hhigh : x < b.top) (hbase : a.base ≤ low) (htop : high ≤ a.top) :
    x < low ∨ high ≤ x := by
  unfold KernelStack.Apart at h
  omega

/-- No operation disturbs a suspended thread, other than a switch to it. -/
theorem Suspended.step (h : Suspended st t stack regs ip sp) (hwf : st.WellFormed)
    (hstep : SwitchStep st op st') (hop : op ≠ .switchTo t) : Suspended st' t stack regs ip sp := by
  have hcurrent := h.not_current
  have howns := h.owns
  cases hstep with
  | create hcreate hobject hstack =>
      have hfirst := SchedState.createKernel_frame hcreate
      have hnew := SchedState.createKernel_constructed hcreate
      have hne := hwf.ne_new hnew howns
      refine h.of_unchanged (by rw [hnew.globals.currentThread]; exact hcurrent)
        ((Function.update_of_ne hne ..).trans howns) (by rw [hnew.others t hne])
        fun x hlow hhigh => ?_
      -- the header may reach into the top word of the stack, which is above the frame
      refine hfirst.outside x (outside_header (hobject t stack howns) hlow hhigh) ?_
      have hroom := hfirst.room.1
      exact outside_apart (hstack t stack howns) hlow (by omega) (by omega) (Nat.le_refl _)
  | createNull hcreate hobject =>
      obtain ⟨new, s₁, hnewThread, houtside⟩ := SchedState.createKernel_null_outside hcreate
      obtain ⟨t', hnew, _, _⟩ := SchedState.createKernel_spec hcreate
      have hne := hwf.ne_new hnew howns
      refine h.of_unchanged (by rw [hnew.globals.currentThread]; exact hcurrent) howns
        (by rw [hnew.others t hne]) fun x hlow hhigh => ?_
      exact houtside x (outside_header (hobject new s₁ hnewThread t stack howns) hlow hhigh)
  | compute hmemory hbitmap =>
      exact h.of_unchanged hcurrent howns rfl fun x hlow hhigh =>
        hmemory t stack howns hcurrent x hlow (by omega)
  | switchTo hnext hroom hswitch =>
      obtain ⟨c, own, hc, hown⟩ := hwf.current
      obtain ⟨hlowSp, hhighSp⟩ := hroom c own hc hown
      have htc : t ≠ c := fun heq => hcurrent (heq ▸ hc)
      rcases switchTo_cases hc hswitch with ⟨_, rfl⟩ | ⟨_, rfl⟩
      · exact h
      · refine h.of_unchanged (fun heq => hop (congrArg _ (Option.some.inj heq))) howns
          (if_neg htc) fun x hlow hhigh => ?_
        refine (switch_saves st.sched.machine (st.sched.threads c).ctx.rsp _ (by omega)).2.2 x ?_
        exact outside_apart (hwf.apart c t own stack htc.symm hown howns) hlow (by omega)
          (by omega) (by omega)

/-- `SwitchTo` suspends the running thread with its registers, return address and stack
pointer. -/
theorem Suspended.of_switchTo (hwf : st.WellFormed) {c next : ThreadPtr}
    (hcurrent : st.sched.currentThread = some c) (hne : next ≠ c)
    (hstep : SwitchStep st (.switchTo next) st') :
    ∃ stack, Suspended st' c stack st.sched.machine.regs st.sched.machine.ip
      st.sched.machine.sp.toNat := by
  obtain ⟨c', stack, hc', howns⟩ := hwf.current
  obtain rfl : c = c' := Option.some.inj (hcurrent.symm.trans hc')
  cases hstep with
  | switchTo hnext hroom hswitch =>
      obtain ⟨hlow, hhigh⟩ := hroom c stack hcurrent howns
      rcases switchTo_cases hcurrent hswitch with ⟨heq, _⟩ | ⟨_, rfl⟩
      · exact absurd heq hne
      · obtain ⟨hslot, hframe, _⟩ := switch_saves st.sched.machine
          (st.sched.threads c).ctx.rsp (st.sched.threads next).ctx.rsp (by omega)
        have hctx : ((st.sched.switched c next).threads c).ctx.rsp.toNat =
            st.sched.machine.sp.toNat - 56 := by
          rw [← hslot]
          simp [SchedState.switched]
        refine ⟨stack, fun heq => hne (Option.some.inj heq), howns, ?_, hlow, hhigh,
          st.sched.machine.sp.isLt, ?_⟩
        · rw [hctx]
          omega
        · rw [hctx]
          exact hframe

/-- `CreateKernel` leaves the new thread suspended at the trampoline. -/
theorem Suspended.of_create (hwf : st.WellFormed) {name : String} {entry : ThreadEntry}
    {arg stackSize : Nat} (hstep : SwitchStep st (.create name entry arg stackSize) st')
    (hold : st.stackOf t = none) (hnew : st'.stackOf t = some stack) :
    stack = (st'.sched.threads t).kStack ∧ stack.top % 16 = 0 ∧
      Suspended st' t stack (fun _ => 0) st.sched.trampoline (stack.top - 8) := by
  cases hstep with
  | create hcreate hobject hstack =>
      rename_i s' new
      have hconstructed := SchedState.createKernel_constructed hcreate
      have hupdate : Function.update st.stackOf new (some (s'.threads new).kStack) t =
          some stack := hnew
      obtain rfl : t = new := by
        by_contra hne
        rw [Function.update_of_ne hne, hold] at hupdate
        cases hupdate
      rw [Function.update_self] at hupdate
      obtain rfl : (s'.threads t).kStack = stack := Option.some.inj hupdate
      have hfirst := SchedState.createKernel_frame hcreate
      obtain ⟨hroom, hbound, haligned⟩ := hfirst.room
      obtain ⟨c, own, hc, hown⟩ := hwf.current
      refine ⟨rfl, haligned, ⟨?_, hnew, ?_, by omega, by omega, by omega, ?_⟩⟩
      · rw [hconstructed.globals.currentThread, hc]
        exact fun heq => hwf.ne_new hconstructed hown (Option.some.inj heq)
      · rw [hfirst.rsp]
        omega
      · rw [hfirst.rsp]
        exact hfirst.frame
  | createNull hcreate hobject =>
      cases hold.symm.trans hnew

/-- Switching to a suspended thread gives it its registers, return address and stack pointer
back. -/
theorem Suspended.resume (h : Suspended st t stack regs ip sp) (hwf : st.WellFormed)
    (hstep : SwitchStep st (.switchTo t) st') :
    st'.sched.machine.ip = ip ∧ st'.sched.machine.sp.toNat = sp ∧
      ∀ r ∈ calleeSaved, st'.sched.machine.regs r = regs r := by
  obtain ⟨c, own, hc, hown⟩ := hwf.current
  have htc : t ≠ c := fun heq => h.not_current (heq ▸ hc)
  have hrsp := h.rsp
  have hbase := h.base_le
  have htop := h.le_top
  have hbound := h.bound
  cases hstep with
  | switchTo hnext hroom hswitch =>
      obtain ⟨hlow, hhigh⟩ := hroom c own hc hown
      rcases switchTo_cases hc hswitch with ⟨heq, _⟩ | ⟨_, rfl⟩
      · exact absurd heq htc
      · -- the frame that the caller pushes is on its own stack
        have hapart := hwf.apart c t own stack htc.symm hown h.owns
        unfold KernelStack.Apart at hapart
        obtain ⟨hregs, hip, hsp⟩ := switch_restores st.sched.machine
          (st.sched.threads c).ctx.rsp (by omega) (by omega) h.frame (by omega)
        exact ⟨hip, hsp.trans hrsp, hregs⟩

/-- A suspended thread stays suspended until the next switch to it. -/
theorem Suspended.steps (h : Suspended st t stack regs ip sp) (hwf : st.WellFormed)
    {ops : List SwitchOp} (hsteps : Steps SwitchStep st ops st') (hops : .switchTo t ∉ ops) :
    Suspended st' t stack regs ip sp ∧ st'.WellFormed := by
  induction hsteps with
  | refl => exact ⟨h, hwf⟩
  | cons hstep _ ih =>
      rw [List.mem_cons, not_or] at hops
      exact ih (h.step hwf hstep (Ne.symm hops.1)) (hwf.step hstep) hops.2

/-- The start: one thread runs, on a stack that it brought along. -/
def SwitchState.start (s : SchedState) (c : ThreadPtr) (stack : KernelStack) : SwitchState :=
  ⟨s, fun t => if t = c then some stack else none⟩

/-- The invariant holds at the start. -/
theorem SwitchState.wellFormed_start {s : SchedState} {c : ThreadPtr}
    (hcurrent : s.currentThread = some c) (hallocated : s.Allocated c) (stack : KernelStack) :
    (SwitchState.start s c stack).WellFormed := by
  have honly : ∀ t a, (SwitchState.start s c stack).stackOf t = some a → t = c := by
    intro t a ht
    by_contra hne
    cases (if_neg hne).symm.trans ht
  refine ⟨⟨c, stack, hcurrent, if_pos rfl⟩, fun t u a b hne ha hb => ?_,
    fun t a ha => ?_⟩
  · exact absurd ((honly t a ha).trans (honly u b hb).symm) hne
  · rw [honly t a ha]
    exact hallocated

/-- Context switches preserve the registers and the stack of every thread. In any run of threads
taking turns, a thread that was switched out and is switched in again continues at its own return
address, with the stack pointer and the callee-saved registers of its last call of
`ArchSwitchContext`. The first switch to a new thread enters the trampoline with the stack pointer
one word below the top of its stack, which is aligned as at the entry of a function. All writes of
`PrepareInitialStack` lie in the stack. -/
theorem context_switches_preserve {s : SchedState} {first : ThreadPtr} {bootStack : KernelStack}
    {ops : List SwitchOp} {st : SwitchState} (hfirst : s.currentThread = some first)
    (hallocated : s.Allocated first)
    (hrun : Steps SwitchStep (SwitchState.start s first bootStack) ops st) :
    (∀ c next st₁ between st₂ st₃, st.sched.currentThread = some c → next ≠ c →
      SwitchStep st (.switchTo next) st₁ → Steps SwitchStep st₁ between st₂ →
      .switchTo c ∉ between → SwitchStep st₂ (.switchTo c) st₃ →
      st₃.sched.machine.ip = st.sched.machine.ip ∧ st₃.sched.machine.sp = st.sched.machine.sp ∧
        ∀ r ∈ calleeSaved, st₃.sched.machine.regs r = st.sched.machine.regs r) ∧
    (∀ name entry arg stackSize t stack st₁ between st₂ st₃,
      SwitchStep st (.create name entry arg stackSize) st₁ →
      st.stackOf t = none → st₁.stackOf t = some stack → Steps SwitchStep st₁ between st₂ →
      .switchTo t ∉ between → SwitchStep st₂ (.switchTo t) st₃ →
      stack = (st₁.sched.threads t).kStack ∧ st₃.sched.machine.ip = st.sched.trampoline ∧
        st₃.sched.machine.sp.toNat = stack.top - 8 ∧
        (st₃.sched.machine.sp.toNat + 8) % 16 = 0) ∧
    (∀ (s : SchedState) (t : ThreadPtr) (bitmap bitmap' : PageBitmap) (stackSize : Nat),
      KernelStack.allocate {} bitmap stackSize = (true, (s.threads t).kStack, bitmap') →
      ∀ x, x < (s.threads t).kStack.base ∨ (s.threads t).kStack.top ≤ x →
        (s.prepareInitialStack t).machine.memory x = s.machine.memory x) := by
  have hwf : st.WellFormed := hrun.invariant (fun _ _ _ hinv hstep => hinv.step hstep)
    (SwitchState.wellFormed_start hfirst hallocated bootStack)
  refine ⟨fun c next st₁ between st₂ st₃ hcurrent hne hout hbetween hnot hin => ?_,
    fun name entry arg stackSize t stack st₁ between st₂ st₃ hcreate hold hnew hbetween hnot hin =>
      ?_, fun s t bitmap bitmap' stackSize halloc x hx => ?_⟩
  · obtain ⟨stack, hsuspended⟩ := Suspended.of_switchTo hwf hcurrent hne hout
    obtain ⟨hsuspended', hwf'⟩ := hsuspended.steps (hwf.step hout) hbetween hnot
    obtain ⟨hip, hsp, hregs⟩ := hsuspended'.resume hwf' hin
    exact ⟨hip, BitVec.eq_of_toNat_eq hsp, hregs⟩
  · obtain ⟨hstack, haligned, hsuspended⟩ := Suspended.of_create hwf hcreate hold hnew
    obtain ⟨hsuspended', hwf'⟩ := hsuspended.steps (hwf.step hcreate) hbetween hnot
    obtain ⟨hip, hsp, _⟩ := hsuspended'.resume hwf' hin
    have hbase := hsuspended.base_le
    refine ⟨hstack, hip, hsp, ?_⟩
    rw [hsp, show stack.top - 8 + 8 = stack.top by omega, haligned]
  · obtain ⟨page, count, hpage, hcount, hfits, hbase, htop⟩ := KernelStack.allocate_pages halloc
    have hscan : scanTotal = 2 ^ 24 + 8 := by rw [scanTotal_eq, pageTotal_eq]
    refine (SchedState.prepareInitialStack_spec s t (by omega) (by omega)).2.2 x ?_
    omega

/-- A thread with its object in page 1 runs on a stack below address `0xA0000`, and the pages 2
to 31 are unused. -/
def bootState : SchedState where
  bitmap := fun i => if i = 0 then 0x03 else if i < 4 then 0x00 else 0xFF
  machine := ⟨fun _ => 7, 0x90000, 0x200000, fun _ => 0⟩
  threads := fun _ => {}
  currentThread := some 4096
  trampoline := 0x201000

/-- The stack of the first thread of `bootState`. -/
def bootStack : KernelStack := { base := 0x80000, size := 0x20000 }

theorem bootState_allocated : bootState.Allocated 4096 := ⟨1, rfl, by decide⟩

/-- A worker is created in `bootState`. Its object is page 2, its stack the pages 3 to 6. -/
theorem bootState_create : ∃ s', SwitchStep (SwitchState.start bootState 4096 bootStack)
      (.create "worker" (.function 0x202000) 0 0)
      ⟨s', Function.update (SwitchState.start bootState 4096 bootStack).stackOf 8192
        (some (s'.threads 8192).kStack)⟩ ∧
    (s'.threads 8192).kStack = ⟨12288, 16384⟩ ∧ s'.currentThread = some 4096 ∧
      s'.machine.sp = 0x90000 ∧ s'.machine.ip = 0x200000 := by
  have heval : (bootState.createKernel "worker" (.function 0x202000) 0 0).map (fun created =>
      (created.1, (created.2.threads 8192).kStack, created.2.currentThread,
        created.2.machine.sp, created.2.machine.ip)) =
      some (some 8192, ⟨12288, 16384⟩, some 4096, 0x90000, 0x200000) := by decide +kernel
  obtain ⟨⟨result, s'⟩, hcreate, hvalues⟩ := Option.map_eq_some_iff.mp heval
  simp only [Prod.mk.injEq] at hvalues
  obtain ⟨rfl, hstack, hcurrent, hsp, hip⟩ := hvalues
  have honly : ∀ u stack, (SwitchState.start bootState 4096 bootStack).stackOf u = some stack →
      stack = bootStack := by
    intro u stack hu
    by_cases hfirst : u = 4096
    · exact (Option.some.inj ((if_pos hfirst).symm.trans hu)).symm
    · cases (if_neg hfirst).symm.trans hu
  refine ⟨s', .create hcreate (fun u stack hu => ?_) (fun u stack hu => ?_), hstack, hcurrent,
    hsp, hip⟩
  · rw [honly u stack hu]
    exact .inl (by decide)
  · rw [honly u stack hu, hstack]
    exact .inl (by decide)

/-- The first thread of `bootState` creates a worker and switches to it. The worker enters the
trampoline and switches back, and the first thread continues where it was. -/
theorem context_switches_preserve_round_trip :
    ∃ st st₁ st₂, Steps SwitchStep (SwitchState.start bootState 4096 bootStack)
        [.create "worker" (.function 0x202000) 0 0] st ∧
      SwitchStep st (.switchTo 8192) st₁ ∧ SwitchStep st₁ (.switchTo 4096) st₂ ∧
      (st₁.sched.machine.ip = 0x201000 ∧ st₁.sched.machine.sp.toNat = 28664) ∧
      st₂.sched.machine.ip = 0x200000 ∧ st₂.sched.machine.sp = 0x90000 := by
  obtain ⟨s', hcreate, hstack, hcurrent, hsp, hip⟩ := bootState_create
  generalize hst : (⟨s', Function.update (SwitchState.start bootState 4096 bootStack).stackOf 8192
    (some (s'.threads 8192).kStack)⟩ : SwitchState) = st at hcreate
  have hsched : st.sched = s' := by rw [← hst]
  have hworker : st.stackOf 8192 = some ⟨12288, 16384⟩ := by
    rw [← hst]
    simp [hstack]
  have hfirst : st.stackOf 4096 = some bootStack := by
    rw [← hst]
    simp [SwitchState.start]
  rw [← hsched] at hcurrent hsp hip
  have hout : SwitchStep st (.switchTo 8192) ⟨st.sched.switched 4096 8192, st.stackOf⟩ := by
    refine .switchTo (by rw [hworker]; exact Option.some_ne_none _) (fun c stack hc hs => ?_)
      (SchedState.switchTo_other hcurrent (by decide))
    obtain rfl : c = 4096 := Option.some.inj (hc.symm.trans hcurrent)
    obtain rfl : stack = bootStack := Option.some.inj (hs.symm.trans hfirst)
    rw [hsp]
    decide
  obtain ⟨_, hip₁, hsp₁, _⟩ :=
    (context_switches_preserve rfl bootState_allocated (.refl _)).2.1 "worker"
      (.function 0x202000) 0 0 8192 ⟨12288, 16384⟩ st [] st _ hcreate rfl hworker
      (.refl _) List.not_mem_nil hout
  have hin : SwitchStep ⟨st.sched.switched 4096 8192, st.stackOf⟩ (.switchTo 4096)
      ⟨(st.sched.switched 4096 8192).switched 8192 4096, st.stackOf⟩ := by
    refine .switchTo (by rw [hfirst]; exact Option.some_ne_none _) (fun c stack hc hs => ?_)
      (SchedState.switchTo_other rfl (by decide))
    obtain rfl : c = 8192 := (Option.some.inj hc).symm
    obtain rfl : stack = ⟨12288, 16384⟩ := Option.some.inj (hs.symm.trans hworker)
    rw [hsp₁]
    decide
  have hrun := Steps.cons hcreate (.refl st)
  obtain ⟨hip₂, hsp₂, _⟩ := (context_switches_preserve rfl bootState_allocated hrun).1 4096 8192
    _ [] _ _ hcurrent (by decide) hout (.refl _) List.not_mem_nil hin
  exact ⟨st, _, _, hrun, hout, hin, ⟨hip₁, hsp₁⟩, hip₂.trans hip, hsp₂.trans hsp⟩

end HailOS.Sched
