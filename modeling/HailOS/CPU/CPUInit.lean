import HailOS.CPU.Descriptors
import HailOS.Memory.MemoryUtility

/-!
# Initialization of the processor tables

`InitGDTAndTSS` and `InitIDT`, after `CPU/Initialization/CPUInit.cpp`: they fill the descriptor
tables and load the registers that point at them. What the tables are for is said by `deliver`, the
way of the processor from an interrupt vector over the gate and its code segment to the address of
the handler, and by `privilegedStack`, its way over the task state to the stack for interrupts from
user mode. `initCPU_ready` says that after the initialization every vector leads to its handler, and
the task state to the stack that was given.

The processor marks the descriptors that it loads as accessed or busy; no field that is read here
holds these marks. The two words that the far return takes from the stack are left out.
-/

namespace HailOS.CPU

open Lib Kernel

/-! ## The static variables -/

/-- The static variables of `CPUInit.cpp`. -/
inductive Static where
  | gdt
  | gdtPtr
  | tss
  | idt
  | idtPtr
  deriving DecidableEq, Repr

/-- Where the static variables stand: each one is aligned to a page, and none is larger than a
page. -/
structure Statics where
  address : Static → Nat
  aligned : ∀ s, 4096 ∣ address s
  distinct : Function.Injective address
  fits : ∀ s, address s + 4096 ≤ 2 ^ 64

/-- Different variables stand on different pages. -/
theorem Statics.separate (statics : Statics) (s s' : Static) (h : s ≠ s') :
    statics.address s + 4096 ≤ statics.address s' ∨
      statics.address s' + 4096 ≤ statics.address s := by
  obtain ⟨page, hpage⟩ := statics.aligned s
  obtain ⟨page', hpage'⟩ := statics.aligned s'
  have hne : statics.address s ≠ statics.address s' := fun heq => h (statics.distinct heq)
  omega

theorem Statics.address_lt (statics : Statics) (s : Static) : statics.address s < 2 ^ 64 := by
  have hfits := statics.fits s
  omega

/-! ## The processor -/

/-- A register with the limit and the base of a table. -/
structure TableRegister where
  limit : Nat
  base : Nat
  deriving DecidableEq, Repr

/-- The registers that the initialization loads, and the memory. -/
structure Processor where
  memory : Memory
  gdtr : TableRegister
  idtr : TableRegister
  cs : BitVec 16
  ds : BitVec 16
  es : BitVec 16
  ss : BitVec 16
  fs : BitVec 16
  gs : BitVec 16
  tr : BitVec 16

/-- The `GDTR` or `IDTR` structure at `ptr`. -/
def tableAt (memory : Memory) (ptr : Nat) : TableRegister :=
  ⟨memory.load 2 ptr, memory.load 8 (ptr + 2)⟩

namespace Processor

/-- `LoadGDT`. -/
def loadGDT (p : Processor) (gdtr : Nat) : Processor := { p with gdtr := tableAt p.memory gdtr }

/-- The instruction `lidt`. -/
def lidt (p : Processor) (idtr : Nat) : Processor := { p with idtr := tableAt p.memory idtr }

/-- `ReloadSegmentsAndLoadTSS`. The selectors for user mode are not used. -/
def reloadSegmentsAndLoadTSS (p : Processor)
    (kernelDS kernelCS _userDSRPL3 _userCSRPL3 tssSel : BitVec 16) : Processor :=
  { p with
    ds := kernelDS
    es := kernelDS
    ss := kernelDS
    fs := kernelDS
    gs := kernelDS
    cs := kernelCS
    tr := tssSel }

end Processor

/-- `GDT_KERNEL_DS`. -/
def gdtKernelDS : BitVec 16 := 0x10#16

/-- `GDT_USER_CS`. -/
def gdtUserCS : BitVec 16 := 0x18#16

/-- `GDT_USER_DS`. -/
def gdtUserDS : BitVec 16 := 0x20#16

/-- `GDT_TSS_SEL`. -/
def gdtTSSSel : BitVec 16 := 0x28#16

/-- `IDT_TYPE_INTERRUPT_GATE`. -/
def idtTypeInterruptGate : BitVec 8 := 0x8E#8

/-- `sizeof(TSS)`. -/
def tssSize : Nat := 104

/-- The address of `Rsp0` in the `TSS` at `tss`. -/
def TSS.rsp0 (tss : Nat) : Nat := tss + 4

/-- The address of `IoMapBase`. -/
def TSS.ioMapBase (tss : Nat) : Nat := tss + 102

/-- The part of `InitGDTAndTSS` that writes the segments into the table at `gGDT`. -/
def setSegments (memory : Memory) (gGDT : Nat) : Memory :=
  let memory := setGDTEntry memory (gdtSlot gGDT 1) 0#32 0#32 0x9A#8 0xA0#8
  let memory := setGDTEntry memory (gdtSlot gGDT 2) 0#32 0#32 0x92#8 0x00#8
  let memory := setGDTEntry memory (gdtSlot gGDT 3) 0#32 0#32 0xFA#8 0xA0#8
  setGDTEntry memory (gdtSlot gGDT 4) 0#32 0#32 0xF2#8 0x00#8

/-- The part that writes the descriptor of the task state at `gTSS`. -/
def setTask (memory : Memory) (gGDT gTSS : Nat) : Memory :=
  let tssBase := BitVec.ofNat 64 gTSS
  let tssLimit := BitVec.ofNat 32 (tssSize - 1)
  setTSSDescriptor memory (gdtSlot gGDT 5) tssBase tssLimit 0x89#8 0x00#8

/-- `InitGDTAndTSS`. -/
def initGDTAndTSS (statics : Statics) (p : Processor) (kernelStackTop : BitVec 64) : Processor :=
  let gGDT := statics.address .gdt
  let gTSS := statics.address .tss
  let gGDTPtr := statics.address .gdtPtr
  let memory := fillMemory p.memory gGDT gdtSize 0
  let memory := fillMemory memory gTSS tssSize 0
  let memory := setSegments memory gGDT
  let memory := setTask memory gGDT gTSS
  let memory := memory.store 8 (TSS.rsp0 gTSS) kernelStackTop.toNat
  let memory := memory.store 2 (TSS.ioMapBase gTSS) tssSize
  let memory := memory.store 2 gGDTPtr (gdtSize - 1)
  let memory := memory.store 8 (gGDTPtr + 2) gGDT
  let p := { p with memory := memory }
  let p := p.loadGDT gGDTPtr
  p.reloadSegmentsAndLoadTSS gdtKernelDS gdtKernelCS (gdtUserDS ||| 3#16) (gdtUserCS ||| 3#16)
    gdtTSSSel

/-- The first `n` lines `SET_VECTOR` of `InitIDT`, where `handlers` are the addresses of
`Handler0`, `Handler1` and so on. -/
def setVectors (memory : Memory) (gIDT : Nat) (handlers : Nat → BitVec 64) : Nat → Memory
  | 0 => memory
  | n + 1 =>
      setIDTEntry (setVectors memory gIDT handlers n) gIDT n (handlers n) idtTypeInterruptGate

/-- `InitIDT`. -/
def initIDT (statics : Statics) (p : Processor) (handlers : Nat → BitVec 64) : Processor :=
  let gIDT := statics.address .idt
  let gIDTPtr := statics.address .idtPtr
  let memory := setVectors p.memory gIDT handlers idtEntries
  let memory := memory.store 8 (gIDTPtr + 2) gIDT
  let memory := memory.store 2 gIDTPtr (idtEntrySize * idtEntries - 1)
  { p with memory := memory }.lidt gIDTPtr

/-- `InitCPU`. -/
def initCPU (statics : Statics) (p : Processor) (kernelStackTop : BitVec 64)
    (handlers : Nat → BitVec 64) : Processor :=
  initIDT statics (initGDTAndTSS statics p kernelStackTop) handlers

/-! ## What the tables are for -/

/-- The access byte of a descriptor, and the attribute byte of a gate. -/
def accessByte (word : Nat) : Nat := gather word [(40, 8)]

/-- The flags of a descriptor. -/
def descriptorFlags (word : Nat) : Nat := gather word [(52, 4)]

/-- The selector in a gate. -/
def gateSelector (word : Nat) : Nat := gather word [(16, 16)]

/-- The descriptor is one of a present segment with 64-bit code: the bits for present, for code or
data, and for code are set, and so is the flag for 64-bit code, without the one for 32-bit code. -/
def isLongCode (word : Nat) : Bool :=
  accessByte word &&& 0x98 == 0x98 && descriptorFlags word &&& 0x6 == 0x2

namespace Processor

/-- The address of the descriptor of `size` bytes that a selector names. -/
def descriptor (p : Processor) (selector size : Nat) : Option Nat :=
  let offset := selector / 8 * 8
  if offset ≠ 0 ∧ offset + size ≤ p.gdtr.limit + 1 then some (p.gdtr.base + offset) else none

/-- The address at which the processor goes on after an interrupt with the given vector. Nothing
stands for a fault: a gate outside the table, no present interrupt gate, or no segment with 64-bit
code. -/
def deliver (p : Processor) (vec : Nat) : Option Nat :=
  if idtEntrySize * vec + idtEntrySize ≤ p.idtr.limit + 1 then
    let gate := p.memory.load idtEntrySize (p.idtr.base + idtEntrySize * vec)
    if accessByte gate = idtTypeInterruptGate.toNat then
      match p.descriptor (gateSelector gate) gdtEntrySize with
      | some desc =>
          if isLongCode (p.memory.load gdtEntrySize desc) then some (gateOffset gate) else none
      | none => none
    else none
  else none

/-- The stack for interrupts from user mode: the field `Rsp0` of the task state, if its descriptor
is present and the task state is long enough. -/
def privilegedStack (p : Processor) : Option Nat :=
  match p.descriptor p.tr.toNat tssDescriptorSize with
  | some desc =>
      let word := p.memory.load tssDescriptorSize desc
      if accessByte word &&& 0x80 = 0x80 ∧ tssSize ≤ descriptorLimit word + 1 then
        some (p.memory.load 8 (TSS.rsp0 (systemBase word)))
      else none
  | none => none

end Processor

/-! ## The tables after the initialization -/

section Frames

variable {memory : Memory}

theorem load_setGDTEntry_slot (gGDT : Nat) {i j : Nat} (h : i ≠ j) (base limit : BitVec 32)
    (access gran : BitVec 8) :
    (setGDTEntry memory (gdtSlot gGDT j) base limit access gran).load gdtEntrySize
        (gdtSlot gGDT i) = memory.load gdtEntrySize (gdtSlot gGDT i) := by
  apply Memory.load_congr
  intro k hk
  apply setGDTEntry_outside
  simp only [gdtSlot, gdtEntrySize] at hk ⊢
  omega

theorem load_setIDTEntry_other (gIDT : Nat) {vec i : Nat} (h : i ≠ vec) (handler : BitVec 64)
    (typeAttribute : BitVec 8) :
    (setIDTEntry memory gIDT vec handler typeAttribute).load idtEntrySize
        (idtEntryAddress gIDT i) = memory.load idtEntrySize (idtEntryAddress gIDT i) := by
  have hdisjoint := idtEntryAddress_disjoint gIDT h
  exact Memory.load_congr fun k hk => setIDTEntry_outside handler typeAttribute (by omega)

end Frames

/-- The segments of the table: the slot, the access byte and the flags. -/
def kernelSegments : List (Nat × BitVec 8 × BitVec 8) :=
  [(1, 0x9A#8, 0xA0#8), (2, 0x92#8, 0x00#8), (3, 0xFA#8, 0xA0#8), (4, 0xF2#8, 0x00#8)]

/-- The memory holds the segments and the task state of `InitGDTAndTSS`. -/
structure TablesFilled (statics : Statics) (memory : Memory) (kernelStackTop : BitVec 64) :
    Prop where
  segments : ∀ s ∈ kernelSegments,
    memory.load gdtEntrySize (gdtSlot (statics.address .gdt) s.1) =
      joinFields (segmentFields 0 0 s.2.1.toNat s.2.2.toNat)
  task : memory.load tssDescriptorSize (gdtSlot (statics.address .gdt) 5) =
    joinFields (segmentFields (statics.address .tss) (tssSize - 1) 0x89 0x00 ++
      [(32, statics.address .tss / 2 ^ 32), (32, 0)])
  stack : memory.load 8 (TSS.rsp0 (statics.address .tss)) = kernelStackTop.toNat

section Filled

variable {memory memory' : Memory} {statics : Statics} {kernelStackTop : BitVec 64}

/-- A segment is not overwritten by the segments that are written after it. -/
theorem load_setSegments (gGDT : Nat) {s : Nat × BitVec 8 × BitVec 8} (hs : s ∈ kernelSegments) :
    (setSegments memory gGDT).load gdtEntrySize (gdtSlot gGDT s.1) =
      joinFields (segmentFields 0 0 s.2.1.toNat s.2.2.toNat) := by
  simp only [kernelSegments, List.mem_cons, List.not_mem_nil, or_false] at hs
  rw [setSegments]
  rcases hs with rfl | rfl | rfl | rfl
  · rw [load_setGDTEntry_slot gGDT (by decide), load_setGDTEntry_slot gGDT (by decide),
      load_setGDTEntry_slot gGDT (by decide)]
    exact load_setGDTEntry _ _ _ _ _ _
  · rw [load_setGDTEntry_slot gGDT (by decide), load_setGDTEntry_slot gGDT (by decide)]
    exact load_setGDTEntry _ _ _ _ _ _
  · rw [load_setGDTEntry_slot gGDT (by decide)]
    exact load_setGDTEntry _ _ _ _ _ _
  · exact load_setGDTEntry _ _ _ _ _ _

theorem slot_lt_of_mem {s : Nat × BitVec 8 × BitVec 8} (hs : s ∈ kernelSegments) : s.1 < 5 := by
  simp only [kernelSegments, List.mem_cons, List.not_mem_nil, or_false] at hs
  rcases hs with rfl | rfl | rfl | rfl <;> decide

/-- Nor is it overwritten by the descriptor of the task state. -/
theorem load_setTask_segment (gGDT gTSS : Nat) {i : Nat} (hi : i < 5) :
    (setTask memory gGDT gTSS).load gdtEntrySize (gdtSlot gGDT i) =
      memory.load gdtEntrySize (gdtSlot gGDT i) :=
  Memory.load_congr fun k hk => (setTSSDescriptor_slotFive gGDT _).slots i hi k hk

theorem load_setTask (gGDT : Nat) {gTSS : Nat} (hfits : gTSS < 2 ^ 64) :
    (setTask memory gGDT gTSS).load tssDescriptorSize (gdtSlot gGDT 5) =
      joinFields (segmentFields gTSS (tssSize - 1) 0x89 0x00 ++
        [(32, gTSS / 2 ^ 32), (32, 0)]) := by
  have hbase : (BitVec.ofNat 64 gTSS).toNat = gTSS := by
    rw [BitVec.toNat_ofNat, Nat.mod_eq_of_lt hfits]
  have hload := load_setTSSDescriptor memory (BitVec.ofNat 32 (tssSize - 1)) 0x89#8 0x00#8
    (gdtSlot gGDT 5) (BitVec.ofNat 64 gTSS)
  rw [hbase] at hload
  exact hload

/-- The tables depend only on their own pages. -/
theorem TablesFilled.congr (h : TablesFilled statics memory kernelStackTop)
    (hgdt : ∀ x, statics.address .gdt ≤ x → x < statics.address .gdt + 4096 →
      memory' x = memory x)
    (htss : ∀ x, statics.address .tss ≤ x → x < statics.address .tss + 4096 →
      memory' x = memory x) :
    TablesFilled statics memory' kernelStackTop where
  segments := by
    intro s hs
    have hslot := slot_lt_of_mem hs
    rw [← h.segments s hs]
    apply Memory.load_congr
    intro k hk
    simp only [gdtSlot, gdtEntrySize] at hk ⊢
    exact hgdt _ (by omega) (by omega)
  task := by
    rw [← h.task]
    apply Memory.load_congr
    intro k hk
    simp only [gdtSlot, gdtEntrySize, tssDescriptorSize] at hk ⊢
    exact hgdt _ (by omega) (by omega)
  stack := by
    rw [← h.stack]
    apply Memory.load_congr
    intro k hk
    rw [TSS.rsp0]
    exact htss _ (by omega) (by omega)

/-- The table and the two fields of the task state that `InitGDTAndTSS` assigns. -/
theorem tablesFilled_setTask (statics : Statics) (memory : Memory) (kernelStackTop : BitVec 64) :
    TablesFilled statics
      (((setTask (setSegments memory (statics.address .gdt)) (statics.address .gdt)
          (statics.address .tss)).store 8 (TSS.rsp0 (statics.address .tss))
            kernelStackTop.toNat).store 2 (TSS.ioMapBase (statics.address .tss)) tssSize)
      kernelStackTop := by
  have hseparate := statics.separate .gdt .tss nofun
  -- the two assignments are to the page of the task state
  have hother : ∀ {width address : Nat} (memory : Memory), statics.address .gdt ≤ address →
      address + width ≤ statics.address .gdt + 4096 →
      ((memory.store 8 (TSS.rsp0 (statics.address .tss)) kernelStackTop.toNat).store 2
          (TSS.ioMapBase (statics.address .tss)) tssSize).load width address =
        memory.load width address := by
    intro width address memory hlow hhigh
    rw [TSS.rsp0, TSS.ioMapBase, Memory.load_store_other _ _ _ _ (by omega),
      Memory.load_store_other _ _ _ _ (by omega)]
  refine ⟨?_, ?_, ?_⟩
  · intro s hs
    have hslot := slot_lt_of_mem hs
    have hbounds : s.1 * gdtEntrySize + gdtEntrySize ≤ 4096 := by
      rw [gdtEntrySize]
      omega
    rw [hother _ (by rw [gdtSlot]; omega) (by rw [gdtSlot]; omega), load_setTask_segment _ _ hslot,
      load_setSegments _ hs]
  · have hbounds : 5 * gdtEntrySize + tssDescriptorSize ≤ 4096 := by decide
    rw [hother _ (by rw [gdtSlot]; omega) (by rw [gdtSlot]; omega),
      load_setTask _ (statics.address_lt .tss)]
  · rw [TSS.rsp0, TSS.ioMapBase, Memory.load_store_other _ _ _ _ (by omega),
      Memory.load_store_same]
    exact Nat.mod_eq_of_lt kernelStackTop.isLt

theorem initGDTAndTSS_filled (statics : Statics) (p : Processor) (kernelStackTop : BitVec 64) :
    TablesFilled statics (initGDTAndTSS statics p kernelStackTop).memory kernelStackTop := by
  have hgdt := statics.separate .gdtPtr .gdt nofun
  have htss := statics.separate .gdtPtr .tss nofun
  have houtside : ∀ (memory : Memory) (x limit base : Nat), x < statics.address .gdtPtr ∨
      statics.address .gdtPtr + 4096 ≤ x →
      ((memory.store 2 (statics.address .gdtPtr) limit).store 8 (statics.address .gdtPtr + 2)
        base) x = memory x := by
    intro memory x limit base hx
    rw [Memory.store_outside _ _ _ _ (by omega), Memory.store_outside _ _ _ _ (by omega)]
  refine (tablesFilled_setTask statics
    (fillMemory (fillMemory p.memory (statics.address .gdt) gdtSize 0) (statics.address .tss)
      tssSize 0) kernelStackTop).congr ?_ ?_
  · intro x hlow hhigh
    exact houtside _ _ _ _ (by omega)
  · intro x hlow hhigh
    exact houtside _ _ _ _ (by omega)

/-- The register that `LoadGDT` loads. -/
theorem initGDTAndTSS_gdtr (statics : Statics) (p : Processor) (kernelStackTop : BitVec 64) :
    (initGDTAndTSS statics p kernelStackTop).gdtr = ⟨gdtSize - 1, statics.address .gdt⟩ := by
  refine congrArg₂ TableRegister.mk ?_ ?_
  · refine (Memory.load_store_other _ _ _ _ (Or.inl (Nat.le_refl _))).trans ?_
    exact Memory.load_store_same _ _ _ _
  · refine (Memory.load_store_same _ _ _ _).trans ?_
    exact Nat.mod_eq_of_lt (statics.address_lt .gdt)

end Filled

/-! ## The interrupt table -/

section Vectors

variable {memory : Memory} {gIDT : Nat} {handlers : Nat → BitVec 64}

/-- The lines `SET_VECTOR` write only into the table. -/
theorem setVectors_outside {n x : Nat} (hn : n ≤ idtEntries)
    (hx : x < gIDT ∨ gIDT + idtEntrySize * idtEntries ≤ x) :
    setVectors memory gIDT handlers n x = memory x := by
  induction n with
  | zero => rfl
  | succ n ih =>
      have hinside : idtEntryAddress gIDT n + idtEntrySize ≤ gIDT + idtEntrySize * idtEntries := by
        simp only [idtEntryAddress, idtEntrySize]
        omega
      have hstart : gIDT ≤ idtEntryAddress gIDT n := Nat.le_add_right _ _
      rw [setVectors, setIDTEntry_outside _ _ (by omega), ih (by omega)]

/-- Each of the lines that were executed has left its gate. -/
theorem load_setVectors {n vec : Nat} (hvec : vec < n) :
    (setVectors memory gIDT handlers n).load idtEntrySize (idtEntryAddress gIDT vec) =
      joinFields (gateFields (handlers vec).toNat gdtKernelCS.toNat
        idtTypeInterruptGate.toNat) := by
  induction n with
  | zero => exact absurd hvec (Nat.not_lt_zero vec)
  | succ n ih =>
      rw [setVectors]
      by_cases hlast : vec = n
      · rw [hlast]
        exact load_setIDTEntry _ _ _ _ _
      · rw [load_setIDTEntry_other gIDT hlast, ih (by omega)]

end Vectors

/-- The state that the initialization leaves. -/
structure Initialized (statics : Statics) (p : Processor) (kernelStackTop : BitVec 64)
    (handlers : Nat → BitVec 64) : Prop where
  filled : TablesFilled statics p.memory kernelStackTop
  gates : ∀ vec < idtEntries,
    p.memory.load idtEntrySize (idtEntryAddress (statics.address .idt) vec) =
      joinFields (gateFields (handlers vec).toNat gdtKernelCS.toNat idtTypeInterruptGate.toNat)
  gdtr : p.gdtr = ⟨gdtSize - 1, statics.address .gdt⟩
  idtr : p.idtr = ⟨idtEntrySize * idtEntries - 1, statics.address .idt⟩
  tr : p.tr = gdtTSSSel

/-- `InitIDT` writes only into the table and its pointer. -/
theorem initIDT_outside (statics : Statics) (p : Processor) (handlers : Nat → BitVec 64) {x : Nat}
    (hidt : x < statics.address .idt ∨ statics.address .idt + 4096 ≤ x)
    (hptr : x < statics.address .idtPtr ∨ statics.address .idtPtr + 4096 ≤ x) :
    (initIDT statics p handlers).memory x = p.memory x := by
  refine (Memory.store_outside _ _ _ _ (by omega)).trans ?_
  refine (Memory.store_outside _ _ _ _ (by omega)).trans ?_
  exact setVectors_outside (Nat.le_refl _) hidt

theorem initCPU_initialized (statics : Statics) (p : Processor) (kernelStackTop : BitVec 64)
    (handlers : Nat → BitVec 64) :
    Initialized statics (initCPU statics p kernelStackTop handlers) kernelStackTop handlers where
  filled := by
    have hgdt := statics.separate .gdt .idt nofun
    have hgdtPtr := statics.separate .gdt .idtPtr nofun
    have htss := statics.separate .tss .idt nofun
    have htssPtr := statics.separate .tss .idtPtr nofun
    refine (initGDTAndTSS_filled statics p kernelStackTop).congr ?_ ?_
    · intro x hlow hhigh
      exact initIDT_outside _ _ _ (by omega) (by omega)
    · intro x hlow hhigh
      exact initIDT_outside _ _ _ (by omega) (by omega)
  gates := by
    intro vec hvec
    have hseparate := statics.separate .idt .idtPtr nofun
    have hinside : idtEntryAddress (statics.address .idt) vec + idtEntrySize ≤
        statics.address .idt + 4096 := by
      simp only [idtEntryAddress, idtEntrySize, idtEntries] at hvec ⊢
      omega
    have hstart : statics.address .idt ≤ idtEntryAddress (statics.address .idt) vec :=
      Nat.le_add_right _ _
    refine (Memory.load_store_other _ _ _ _ (by omega)).trans ?_
    refine (Memory.load_store_other _ _ _ _ (by omega)).trans ?_
    exact load_setVectors hvec
  gdtr := initGDTAndTSS_gdtr statics p kernelStackTop
  idtr := by
    refine congrArg₂ TableRegister.mk ?_ ?_
    · exact Memory.load_store_same _ _ _ _
    · refine (Memory.load_store_other _ _ _ _ (Or.inr (Nat.le_refl _))).trans ?_
      refine (Memory.load_store_same _ _ _ _).trans ?_
      exact Nat.mod_eq_of_lt (statics.address_lt .idt)
  tr := rfl

/-! ## The way of the processor through the tables -/

theorem accessByte_gate (offset selector typeAttribute : Nat) :
    accessByte (joinFields (gateFields offset selector typeAttribute)) = typeAttribute % 2 ^ 8 :=
  gather_joinFields (gateFields offset selector typeAttribute) [3]

theorem gateSelector_gate (offset selector typeAttribute : Nat) :
    gateSelector (joinFields (gateFields offset selector typeAttribute)) = selector % 2 ^ 16 :=
  gather_joinFields (gateFields offset selector typeAttribute) [1]

theorem accessByte_segment (base limit access gran : Nat) (after : List (Nat × Nat)) :
    accessByte (joinFields (segmentFields base limit access gran ++ after)) = access % 2 ^ 8 :=
  gather_joinFields (segmentFields base limit access gran ++ after) [3]

section Ready

variable {statics : Statics} {p : Processor} {kernelStackTop : BitVec 64}
  {handlers : Nat → BitVec 64}

/-- A selector of the table with its size leads to its slot. -/
theorem Initialized.descriptor_slot (h : Initialized statics p kernelStackTop handlers)
    (i size : Nat) (hi : i ≠ 0) (hsize : i * gdtEntrySize + size ≤ gdtSize) :
    p.descriptor (i * gdtEntrySize) size = some (gdtSlot (statics.address .gdt) i) := by
  have hoffset : i * gdtEntrySize / 8 * 8 = i * gdtEntrySize := by
    rw [gdtEntrySize]
    omega
  have hpresent : i * gdtEntrySize ≠ 0 ∧ i * gdtEntrySize + size ≤ gdtSize - 1 + 1 := by
    rw [gdtEntrySize] at hsize ⊢
    omega
  simp only [Processor.descriptor, h.gdtr, hoffset, if_pos hpresent, gdtSlot]

/-- Every vector leads to its handler. -/
theorem Initialized.deliver (h : Initialized statics p kernelStackTop handlers) {vec : Nat}
    (hvec : vec < idtEntries) : p.deliver vec = some (handlers vec).toNat := by
  have hinside : idtEntrySize * vec + idtEntrySize ≤ idtEntrySize * idtEntries - 1 + 1 := by
    simp only [idtEntrySize, idtEntries] at hvec ⊢
    omega
  have hgate : p.memory.load idtEntrySize (statics.address .idt + idtEntrySize * vec) =
      joinFields (gateFields (handlers vec).toNat gdtKernelCS.toNat idtTypeInterruptGate.toNat) :=
    h.gates vec hvec
  have hcode : p.memory.load gdtEntrySize (gdtSlot (statics.address .gdt) 1) =
      joinFields (segmentFields 0 0 0x9A 0xA0) :=
    h.filled.segments (1, 0x9A#8, 0xA0#8) (List.mem_cons_self ..)
  have hselector : p.descriptor (gdtKernelCS.toNat % 2 ^ 16) gdtEntrySize =
      some (gdtSlot (statics.address .gdt) 1) :=
    h.descriptor_slot 1 gdtEntrySize Nat.one_ne_zero (by decide)
  have hlong : isLongCode (joinFields (segmentFields 0 0 0x9A 0xA0)) = true := by decide
  rw [Processor.deliver, h.idtr, if_pos hinside]
  simp only [hgate, accessByte_gate, gateSelector_gate, hselector, hcode, hlong,
    gateOffset_joinFields, Nat.mod_eq_of_lt (handlers vec).isLt]
  rfl

/-- The task register leads to the stack that was given. -/
theorem Initialized.privilegedStack (h : Initialized statics p kernelStackTop handlers) :
    p.privilegedStack = some kernelStackTop.toNat := by
  have hselector : p.descriptor gdtTSSSel.toNat tssDescriptorSize =
      some (gdtSlot (statics.address .gdt) 5) :=
    h.descriptor_slot 5 tssDescriptorSize (Nat.succ_ne_zero 4) (by decide)
  have hpresent : 0x89 % 2 ^ 8 &&& 0x80 = 0x80 ∧ tssSize ≤ (tssSize - 1) % 2 ^ 20 + 1 := by decide
  rw [Processor.privilegedStack, h.tr, hselector]
  simp only [h.filled.task, accessByte_segment, descriptorLimit_joinFields, if_pos hpresent,
    systemBase_joinFields, Nat.mod_eq_of_lt (statics.address_lt .tss), h.filled.stack]

end Ready

/-- The processor finds the handler of every vector and the stack for interrupts from user mode. -/
structure Ready (p : Processor) (kernelStackTop : BitVec 64) (handlers : Nat → BitVec 64) :
    Prop where
  deliver : ∀ vec < idtEntries, p.deliver vec = some (handlers vec).toNat
  stack : p.privilegedStack = some kernelStackTop.toNat

/-- After `InitCPU` the processor is ready, whatever the memory held before. -/
theorem initCPU_ready (statics : Statics) (p : Processor) (kernelStackTop : BitVec 64)
    (handlers : Nat → BitVec 64) :
    Ready (initCPU statics p kernelStackTop handlers) kernelStackTop handlers := by
  have hinitialized := initCPU_initialized statics p kernelStackTop handlers
  exact ⟨fun _ hvec => hinitialized.deliver hvec, hinitialized.privilegedStack⟩

end HailOS.CPU
