import HailOS.Memory.AllocatorRuns
import HailOS.Memory.UsablePages

/-!
# Calling the initialisation again

The bitmap is initialised by `ParseMemoryInfo`, which the kernel calls itself and once more
through `InitEarlyPageAllocator`. Each of the two functions has a static variable that is to make
a second call harmless, but only `InitEarlyPageAllocator` sets its own. `reinit_harmless_iff` is
about runs in which the initialisation is called at any time among allocations and frees. A later
call leaves the bitmap alone exactly if it is one of `InitEarlyPageAllocator` after another one,
or if the bitmap happens to be what the call would build.
-/

namespace HailOS.Early

open Lib Kernel

/-- The static variables of the initialisation, `gEarlyPageAllocatorPtr` being non-null, and the
pages with the outstanding blocks. -/
structure BootState where
  called : Bool
  isInitialized : Bool
  hasAllocator : Bool
  pages : AllocatorState

/-- `ParseMemoryInfo`, as a step of the boot state. -/
def BootState.parse (st : BootState) (info : MemoryInfo) : BootState :=
  let parsed := parseMemoryInfo ⟨st.called, st.pages.bitmap⟩ info
  { st with called := parsed.called, pages := { st.pages with bitmap := parsed.bitmap } }

/-- `InitEarlyPageAllocator`. -/
def initEarlyPageAllocator (st : BootState) (info : MemoryInfo) : BootState :=
  let st := if !st.isInitialized then { st.parse info with hasAllocator := true } else st
  { st with isInitialized := true }

/-- A call of the allocator with any arguments. A free drops the blocks at its address. -/
def AllocatorState.exec (st : AllocatorState) : Call → AllocatorState
  | .allocatePage => st.receive pageSize (allocatePage st.bitmap)
  | .allocatePageSize minSize => st.receive minSize (allocatePageSize st.bitmap minSize)
  | .freePage ptr =>
      { bitmap := freePage st.bitmap ptr
        outstanding := st.outstanding.filter (·.address ≠ ptr) }
  | .freePageSize ptr allocatedSize =>
      { bitmap := freePageSize st.bitmap ptr allocatedSize
        outstanding := st.outstanding.filter (·.address ≠ ptr) }

/-- A call of the initialisation. -/
inductive InitCall where
  | parseMemoryInfo (info : MemoryInfo)
  | initEarlyPageAllocator (info : MemoryInfo)

/-- The memory map that is passed. -/
def InitCall.info : InitCall → MemoryInfo
  | .parseMemoryInfo info => info
  | .initEarlyPageAllocator info => info

/-- What happens in a run. -/
inductive BootOp where
  | init (call : InitCall)
  | call (call : Call)

/-- One operation of a run. -/
def BootState.exec (st : BootState) : BootOp → BootState
  | .init (.parseMemoryInfo info) => st.parse info
  | .init (.initEarlyPageAllocator info) => Early.initEarlyPageAllocator st info
  | .call call => { st with pages := st.pages.exec call }

/-- The operations of a run, one after the other. -/
def BootState.run (st : BootState) (ops : List BootOp) : BootState := ops.foldl BootState.exec st

/-! ## The static variables in a run -/

section Statics

variable (st : BootState)

/-- `called` is never set. -/
theorem called_exec (op : BootOp) : (st.exec op).called = st.called := by
  have hparse : ∀ info, (st.parse info).called = st.called := by
    intro info
    show (parseMemoryInfo ⟨st.called, st.pages.bitmap⟩ info).called = st.called
    unfold parseMemoryInfo parseMemoryInfoLogged
    split <;> rfl
  cases op with
  | init call =>
      cases call with
      | parseMemoryInfo info => exact hparse info
      | initEarlyPageAllocator info =>
          show (if !st.isInitialized then { st.parse info with hasAllocator := true }
            else st).called = st.called
          split
          · exact hparse info
          · rfl
  | call call => rfl

theorem called_run (ops : List BootOp) : (st.run ops).called = st.called := by
  induction ops generalizing st with
  | nil => rfl
  | cons op ops ih => exact (ih (st.exec op)).trans (called_exec st op)

/-- `isInitialized` is set by `InitEarlyPageAllocator` only. -/
theorem isInitialized_exec (op : BootOp) :
    (st.exec op).isInitialized = true ↔
      st.isInitialized = true ∨ ∃ info, op = .init (.initEarlyPageAllocator info) := by
  cases op with
  | init call =>
      cases call with
      | parseMemoryInfo info => exact ⟨.inl, fun h => h.resolve_right (by simp)⟩
      | initEarlyPageAllocator info => exact iff_of_true rfl (.inr ⟨info, rfl⟩)
  | call call => exact ⟨.inl, fun h => h.resolve_right (by simp)⟩

theorem isInitialized_run (ops : List BootOp) :
    (st.run ops).isInitialized = true ↔
      st.isInitialized = true ∨ ∃ info, .init (.initEarlyPageAllocator info) ∈ ops := by
  induction ops generalizing st with
  | nil => simp [BootState.run]
  | cons op ops ih =>
      show ((st.exec op).run ops).isInitialized = true ↔ _
      rw [ih, isInitialized_exec, or_assoc]
      simp only [List.mem_cons, exists_or, eq_comm]

variable {st}

/-- As `called` is not set, `ParseMemoryInfo` always builds the bitmap. -/
theorem parse_bitmap (hcalled : st.called = false) (info : MemoryInfo) :
    (st.parse info).pages.bitmap =
      (parseMemoryInfo { bitmap := st.pages.bitmap } info).bitmap := by
  rw [BootState.parse, hcalled]

/-- The first call of `InitEarlyPageAllocator` does so, too. -/
theorem initEarlyPageAllocator_bitmap (hinit : st.isInitialized = false) (info : MemoryInfo) :
    (initEarlyPageAllocator st info).pages.bitmap = (st.parse info).pages.bitmap := by
  rw [initEarlyPageAllocator, hinit]
  rfl

end Statics

/-! ## What a later call does -/

/-- The bitmap is what `ParseMemoryInfo` builds from the memory map: inside it exactly the pages
that a free region frees are unused, and the bits past it that a region frees are clear. -/
structure Describes (info : MemoryInfo) (bitmap : PageBitmap) : Prop where
  inside : ∀ k < pageTotal, bitAt bitmap k = unusedBit ↔
    ∃ i < info.freeRegionCount.toNat, (info.freeMemory i).Frees k
  past : ∀ k, pageTotal ≤ k →
    (∃ i < info.freeRegionCount.toNat, (info.freeMemory i).Frees k) → bitAt bitmap k = unusedBit

/-- `ParseMemoryInfo` leaves the bitmap alone exactly if it is what it would build. -/
theorem parse_unchanged_iff (bitmap : PageBitmap) (info : MemoryInfo) :
    (parseMemoryInfo { bitmap := bitmap } info).bitmap = bitmap ↔ Describes info bitmap := by
  have hbit := parseMemoryInfo_free_iff bitmap info
  constructor
  · intro heq
    rw [heq] at hbit
    refine ⟨fun k hk => ?_, fun k _ hfrees => (hbit k).2 (.inr hfrees)⟩
    rw [hbit k]
    exact or_iff_right fun h => Nat.not_le.2 hk h.1
  · intro h
    apply eq_of_bitAt_eq
    intro k
    have hiff : bitAt (parseMemoryInfo { bitmap := bitmap } info).bitmap k = unusedBit ↔
        bitAt bitmap k = unusedBit := by
      rw [hbit k]
      by_cases hk : k < pageTotal
      · rw [h.inside k hk]
        exact or_iff_right fun h => Nat.not_le.2 hk h.1
      · have hpast := Nat.le_of_not_lt hk
        rw [and_iff_right hpast]
        exact or_iff_left_of_imp (h.past k hpast)
    exact Bool.eq_iff_iff.2 (not_iff_not.1 (by simpa [unusedBit] using hiff))

/-- A later call that does no harm: it is one of `InitEarlyPageAllocator` after another one, or
the bitmap is what the call builds. -/
def InitCall.Harmless (call : InitCall) (history : List BootOp) (bitmap : PageBitmap) : Prop :=
  ((∃ info, call = .initEarlyPageAllocator info) ∧
      ∃ info, .init (.initEarlyPageAllocator info) ∈ history) ∨
    Describes call.info bitmap

/-- A call leaves the bitmap alone exactly if it is harmless. -/
theorem init_unchanged_iff {start : BootState} (hcalled : start.called = false)
    (hinit : start.isInitialized = false) (history : List BootOp) (call : InitCall) :
    ((start.run history).exec (.init call)).pages.bitmap = (start.run history).pages.bitmap ↔
      call.Harmless history (start.run history).pages.bitmap := by
  have hunset : (start.run history).called = false := (called_run start history).trans hcalled
  have hset := isInitialized_run start history
  rw [hinit] at hset
  generalize start.run history = st at *
  have hparse : ∀ info, (st.parse info).pages.bitmap = st.pages.bitmap ↔
      Describes info st.pages.bitmap := by
    intro info
    rw [parse_bitmap hunset, parse_unchanged_iff]
  unfold InitCall.Harmless
  cases call with
  | parseMemoryInfo info =>
      refine (hparse info).trans (or_iff_right ?_).symm
      rintro ⟨⟨_, hcall⟩, -⟩
      cases hcall
  | initEarlyPageAllocator info =>
      show (initEarlyPageAllocator st info).pages.bitmap = st.pages.bitmap ↔ _
      cases hinitialized : st.isInitialized with
      | true =>
          have hbefore := (hset.1 hinitialized).resolve_left (by simp)
          have hkept : (initEarlyPageAllocator st info).pages.bitmap = st.pages.bitmap := by
            rw [initEarlyPageAllocator, hinitialized]
            rfl
          exact iff_of_true hkept (.inl ⟨⟨info, rfl⟩, hbefore⟩)
      | false =>
          rw [initEarlyPageAllocator_bitmap hinitialized]
          refine (hparse info).trans (or_iff_right ?_).symm
          rintro ⟨-, hbefore⟩
          rw [hset.2 (.inr hbefore)] at hinitialized
          cases hinitialized

/-- In a run that starts with an initialisation, every later one leaves the bitmap unchanged, and
with it the marks of the outstanding blocks, exactly if every later one is harmless where it is
made. -/
theorem reinit_harmless_iff {start : BootState} (hcalled : start.called = false)
    (hinit : start.isInitialized = false) (first : InitCall) (ops : List BootOp) :
    (∀ before call after, ops = before ++ .init call :: after →
        let st := start.run (.init first :: before)
        (st.exec (.init call)).pages.bitmap = st.pages.bitmap ∧
          ∀ b ∈ st.pages.outstanding, ∀ k ∈ b.pages, bitAt st.pages.bitmap k = usedBit →
            bitAt (st.exec (.init call)).pages.bitmap k = usedBit) ↔
      ∀ before call after, ops = before ++ .init call :: after →
        call.Harmless (.init first :: before)
          (start.run (.init first :: before)).pages.bitmap := by
  constructor
  · intro hall before call after hops
    exact (init_unchanged_iff hcalled hinit _ call).1 (hall before call after hops).1
  · intro hall before call after hops st
    have hunchanged := (init_unchanged_iff hcalled hinit _ call).2 (hall before call after hops)
    refine ⟨hunchanged, fun b _ k _ hused => ?_⟩
    rw [hunchanged]
    exact hused

/-- One free region, from 1 MiB to 2 MiB. -/
def secondMegabyte : MemoryInfo := oneRegion ⟨0x100000#64, 0x100000#64⟩

/-- The state before the kernel runs. -/
def bootStart : BootState := ⟨false, false, false, ⟨fun _ => 0, []⟩⟩

/-- After `InitEarlyPageAllocator`, calling it again leaves an allocated page used. -/
theorem reinit_harmless_init_twice :
    let st := bootStart.run [.init (.initEarlyPageAllocator secondMegabyte), .call .allocatePage]
    (st.exec (.init (.initEarlyPageAllocator secondMegabyte))).pages.bitmap = st.pages.bitmap := by
  intro st
  have hharmless := @reinit_harmless_iff bootStart rfl rfl
    (.initEarlyPageAllocator secondMegabyte)
    [.call .allocatePage, .init (.initEarlyPageAllocator secondMegabyte)]
  refine (hharmless.2 ?_ [.call .allocatePage] (.initEarlyPageAllocator secondMegabyte) [] rfl).1
  intro before call after hops
  have hmem : BootOp.init call ∈
      [BootOp.call .allocatePage, .init (.initEarlyPageAllocator secondMegabyte)] := by
    rw [hops]
    exact List.mem_append_right before List.mem_cons_self
  have hcall : call = .initEarlyPageAllocator secondMegabyte := by simpa using hmem
  exact .inl ⟨⟨_, hcall⟩, _, List.mem_cons_self⟩

/-- The unused pages of a machine with the second megabyte free. -/
theorem secondMegabyte_unused (bitmap : PageBitmap) {k : Nat} (hk : k < pageTotal) :
    bitAt (parseMemoryInfo { bitmap := bitmap } secondMegabyte).bitmap k = unusedBit ↔
      256 ≤ k ∧ k < 512 := by
  have hstop : ∀ i, (secondMegabyte.freeMemory i).stop = 0x200000 :=
    fun _ => show 0x100000 + 0x100000 = _ by omega
  have hbase : ∀ i, (secondMegabyte.freeMemory i).base.toNat = 0x100000 := fun _ => rfl
  have hmax := maxMemorySizeBytes_eq
  have htotal := pageTotal_eq
  rw [parsed_free_iff bitmap (fun i _ => by rw [hstop]; omega) hk]
  simp only [MemoryRegion.HoldsPage, hstop, hbase]
  constructor
  · rintro ⟨_, _, _, _, hpage⟩
    omega
  · intro hpage
    exact ⟨0, show 0 < 1 by omega, by omega, by omega, by omega, by omega⟩

/-- The first page that is allocated then. -/
theorem secondMegabyte_first (bitmap : PageBitmap) :
    let parsed := (parseMemoryInfo { bitmap := bitmap } secondMegabyte).bitmap
    (allocatePage parsed).1 = 0x100000 ∧ bitAt (allocatePage parsed).2 256 = usedBit := by
  intro parsed
  have hunused : ∀ k < pageTotal, bitAt parsed k = unusedBit ↔ 256 ≤ k ∧ k < 512 :=
    fun k hk => secondMegabyte_unused bitmap hk
  have htotal := pageTotal_eq
  have hfirst : FirstRun (isUnused parsed) 1 scanTotal 256 := by
    refine ⟨by rw [scanTotal_eq]; omega, fun k hlow hhigh => ?_, fun s hs hrun => ?_⟩
    · rw [isUnused_iff, hunused k (by omega)]
      omega
    · have hfree := isUnused_iff.1 (hrun s (Nat.le_refl s) (by omega))
      rw [hunused s (by omega)] at hfree
      omega
  rcases allocatePage_cases parsed with ⟨k, -, hk, haddress, hbits⟩ | ⟨hused, -⟩
  · obtain rfl := hk.unique hfirst
    exact ⟨haddress, by rw [hbits, if_pos rfl]⟩
  · have hfree := (hunused 256 (by omega)).2 (by omega)
    rw [hused 256 (by omega)] at hfree
    cases hfree

theorem pages_init_allocate (info : MemoryInfo) :
    (bootStart.run [.init (.initEarlyPageAllocator info), .call .allocatePage]).pages =
      (bootStart.parse info).pages.receive pageSize
        (allocatePage (bootStart.parse info).pages.bitmap) := rfl

/-- After `InitEarlyPageAllocator` and an allocation, a call of `ParseMemoryInfo` marks the page
that is handed out unused again. -/
theorem parse_after_init_frees_block :
    let st := bootStart.run [.init (.initEarlyPageAllocator secondMegabyte), .call .allocatePage]
    st.hasAllocator = true ∧ st.pages.outstanding = [⟨0x100000, pageSize⟩] ∧
      bitAt st.pages.bitmap 256 = usedBit ∧
      bitAt (st.exec (.init (.parseMemoryInfo secondMegabyte))).pages.bitmap 256 = unusedBit := by
  intro st
  have hpages : st.pages = _ := pages_init_allocate secondMegabyte
  rw [parse_bitmap (show bootStart.called = false from rfl)] at hpages
  have hcalled : st.called = false := called_run bootStart _
  obtain ⟨haddress, hused⟩ := secondMegabyte_first bootStart.pages.bitmap
  have hempty : (bootStart.parse secondMegabyte).pages.outstanding = [] := rfl
  refine ⟨rfl, ?_, ?_, ?_⟩
  · rw [hpages, AllocatorState.receive, hempty, haddress, if_neg (by omega)]
  · rw [hpages, bitmap_receive, hused]
  · show bitAt (st.parse secondMegabyte).pages.bitmap 256 = unusedBit
    rw [parse_bitmap hcalled]
    exact (secondMegabyte_unused _ (by rw [pageTotal_eq]; omega)).2 (by omega)

end HailOS.Early
