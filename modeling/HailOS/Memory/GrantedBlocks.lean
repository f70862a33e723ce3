import HailOS.Memory.GiveBack

/-!
# Granted blocks

`AllocatePage(minSize)` is to hand out free pages that the bitmap describes, and to mark them
used. But the search for several pages reads a byte more than the bitmap has.
`managed_and_marked_iff` says that an allocation goes wrong exactly where no run of the pages
inside the bitmap is free and the clear bits of that byte complete one. The block that is then
returned is returned again by every later call (`run_past_granted_again`).

Where a run of the pages does lie inside the bitmap, `first_fit_exact` says that the lowest one is
returned and exactly its pages are marked. The exception is a run of several pages from page 0 on,
whose address is the null pointer that stands for failure.
-/

namespace HailOS.Early

open Lib Kernel

/-- The pages of a returned block lie below 64 GiB, were free and are marked used. Nothing is
returned or changed if no run of that many free pages lies inside the bitmap. -/
structure ManagedAndMarked (bitmap : PageBitmap) (minSize : Nat) : Prop where
  granted : (allocatePageSize bitmap minSize).1 ≠ 0 →
    ∃ s, (allocatePageSize bitmap minSize).1 = 4096 * s ∧
      ∀ k, s ≤ k → k < s + (minSize + 4095) / 4096 →
        4096 * (k + 1) ≤ maxMemorySizeBytes ∧ bitAt bitmap k = unusedBit ∧
          bitAt (allocatePageSize bitmap minSize).2 k = usedBit
  refused : (∀ s, s + (minSize + 4095) / 4096 ≤ pageTotal →
      ¬ FreeRun (isUnused bitmap) ((minSize + 4095) / 4096) s) →
    allocatePageSize bitmap minSize = (0, bitmap)

/-- No run of `pageCount` free pages, of which there are several, lies inside the bitmap, but one
lies inside the bitmap and the byte behind it and does not start at page 0. -/
def RunPastBitmap (bitmap : PageBitmap) (pageCount : Nat) : Prop :=
  1 < pageCount ∧
    (∀ s, s + pageCount ≤ pageTotal → ¬ FreeRun (isUnused bitmap) pageCount s) ∧
    ¬ FreeRun (isUnused bitmap) pageCount 0 ∧
    ∃ s, s + pageCount ≤ pageTotal + 8 ∧ FreeRun (isUnused bitmap) pageCount s

variable {bitmap : PageBitmap} {minSize : Nat}

/-- The first run of the search, if it goes past the bitmap. -/
theorem RunPastBitmap.exists_first {pageCount : Nat} (h : RunPastBitmap bitmap pageCount) :
    ∃ s, 0 < s ∧ pageTotal < s + pageCount ∧
      FirstRun (isUnused bitmap) pageCount scanTotal s := by
  obtain ⟨-, hinside, hzero, s, hfits, hrun⟩ := h
  rw [← scanTotal_eq] at hfits
  obtain ⟨t, hfirst⟩ := exists_firstRun hfits hrun
  refine ⟨t, Nat.pos_of_ne_zero ?_, Nat.lt_of_not_le ?_, hfirst⟩
  · intro ht
    rw [ht] at hfirst
    exact hzero hfirst.run
  · intro hle
    exact hinside t hle hfirst.run

/-- The run past the bitmap is returned and not marked. -/
theorem RunPastBitmap.granted (h : RunPastBitmap bitmap (pageCountOf minSize)) :
    ∃ s, 0 < s ∧ pageTotal < s + pageCountOf minSize ∧
      allocatePageSize bitmap minSize = (4096 * s, bitmap) := by
  obtain ⟨s, hs, hover, hfirst⟩ := h.exists_first
  have haddress := allocatePageSize_address h.1 hfirst hs
  have hsome : (allocatePageSize bitmap minSize).1 ≠ 0 := by omega
  obtain ⟨s', haddress', hgrant⟩ := allocatePageSize_grant hsome
  have hsame : s' = s := by omega
  rw [hsame] at hgrant
  exact ⟨s, hs, hover, Prod.ext haddress (hgrant.overrun hover)⟩

/-- The run past the bitmap has a page that is not managed. -/
theorem RunPastBitmap.not_managed (h : RunPastBitmap bitmap (pageCountOf minSize)) :
    ¬ ManagedAndMarked bitmap minSize := by
  intro hmanaged
  obtain ⟨s, hs, hover, hresult⟩ := h.granted
  have haddress : (allocatePageSize bitmap minSize).1 = 4096 * s := congrArg Prod.fst hresult
  obtain ⟨s', haddress', hpages⟩ := hmanaged.granted (by omega)
  have hsame : s' = s := by omega
  have hcount := pageCountOf_eq minSize
  have hlast := (hpages (s + pageCountOf minSize - 1) (by have := h.1; omega) (by omega)).1
  rw [maxMemorySizeBytes_eq] at hlast
  omega

/-- The run past the bitmap is returned by any number of calls. -/
theorem run_past_granted_again (h : RunPastBitmap bitmap (pageCountOf minSize)) (n : Nat) :
    ((fun result => allocatePageSize result.2 minSize)^[n + 1] (0, bitmap)) =
      allocatePageSize bitmap minSize := by
  obtain ⟨s, -, -, hresult⟩ := h.granted
  induction n with
  | zero => rfl
  | succ n ih => rw [Function.iterate_succ_apply', ih, hresult, hresult]

/-- A granted block lies inside the bitmap or is the run past it. -/
theorem Grant.inside_or_past {bitmap' : PageBitmap} {pageCount s : Nat}
    (h : Grant bitmap bitmap' pageCount s) (hcount : 1 < pageCount) :
    s + pageCount ≤ pageTotal ∨ RunPastBitmap bitmap pageCount := by
  by_cases hinside : s + pageCount ≤ pageTotal
  · exact .inl hinside
  · have hfits := h.first.fits
    rw [scanTotal_eq] at hfits
    refine .inr ⟨hcount, ?_, h.first.first 0 h.start_pos, s, hfits, h.first.run⟩
    intro s' hs'
    exact h.first.first s' (by omega)

/-- A block that is not the run past the bitmap lies inside it. -/
theorem granted_inside (hpast : ¬ RunPastBitmap bitmap (pageCountOf minSize))
    (h : (allocatePageSize bitmap minSize).1 ≠ 0) :
    ∃ s, (allocatePageSize bitmap minSize).1 = 4096 * s ∧ s + pageCountOf minSize ≤ pageTotal ∧
      Grant bitmap (allocatePageSize bitmap minSize).2 (pageCountOf minSize) s := by
  by_cases hone : pageCountOf minSize = 1
  · rw [allocatePageSize_one hone, hone] at *
    obtain ⟨s, hs, haddress, hgrant⟩ := allocatePage_grant h
    exact ⟨s, haddress, hs, hgrant⟩
  · obtain ⟨s, haddress, hgrant⟩ := allocatePageSize_grant h
    have hpos := hgrant.count_pos
    exact ⟨s, haddress, (hgrant.inside_or_past (by omega)).resolve_right hpast, hgrant⟩

/-- Where null is returned and no page is free to be lost, nothing changes. -/
theorem refused_unchanged
    (hnone : ∀ s, s + pageCountOf minSize ≤ pageTotal →
      ¬ FreeRun (isUnused bitmap) (pageCountOf minSize) s)
    (h : (allocatePageSize bitmap minSize).1 = 0) :
    allocatePageSize bitmap minSize = (0, bitmap) := by
  by_cases hone : pageCountOf minSize = 1
  · rw [allocatePageSize_one hone]
    rw [hone] at hnone
    rcases allocatePage_cases bitmap with ⟨k, hk, hfirst, -⟩ | ⟨-, heq⟩
    · exact absurd hfirst.run (hnone k hk)
    · exact heq
  · simp only [allocatePageSize, if_neg hone] at h ⊢
    by_cases hnull : findAvailableAddress bitmap (pageCountOf minSize) = 0
    · rw [if_pos hnull]
    · rw [if_neg hnull] at h
      exact absurd h hnull

/-- An allocation returns managed pages and marks them, and fails without a change if there are
none, iff it does not come upon a run past the bitmap. -/
theorem managed_and_marked_iff (bitmap : PageBitmap) (minSize : Nat) :
    ManagedAndMarked bitmap minSize ↔
      ¬ RunPastBitmap bitmap ((minSize + 4095) / 4096) := by
  have hcount := pageCountOf_eq minSize
  constructor
  · intro hmanaged hpast
    rw [← hcount] at hpast
    exact hpast.not_managed hmanaged
  · intro hpast
    rw [← hcount] at hpast
    refine { granted := ?_, refused := ?_ }
    · intro hsome
      obtain ⟨s, haddress, hinside, hgrant⟩ := granted_inside hpast hsome
      refine ⟨s, haddress, ?_⟩
      intro k hlow hhigh
      rw [← hcount] at hhigh
      refine ⟨?_, hgrant.unused hlow hhigh, ?_⟩
      · rw [maxMemorySizeBytes_eq]
        omega
      · rw [hgrant.marked hinside, if_pos ⟨hlow, hhigh⟩]
    · rw [← hcount]
      intro hnone
      by_cases hsome : (allocatePageSize bitmap minSize).1 = 0
      · exact refused_unchanged hnone hsome
      · obtain ⟨s, -, hinside, hgrant⟩ := granted_inside hpast hsome
        exact absurd hgrant.first.run (hnone s hinside)

theorem onlyPastPages_run : RunPastBitmap onlyPastPages 2 := by
  have hstart : ∀ s, FreeRun (isUnused onlyPastPages) 2 s → s = 2 ^ 24 + 1 := by
    intro s hrun
    have hlow := onlyPastPages_unused.1 (hrun s (Nat.le_refl s) (by omega))
    have hhigh := onlyPastPages_unused.1 (hrun (s + 1) (by omega) (by omega))
    omega
  have htotal := pageTotal_eq
  refine ⟨by omega, ?_, ?_, 2 ^ 24 + 1, by omega, ?_⟩
  · intro s hs hrun
    have := hstart s hrun
    omega
  · intro hrun
    have := hstart 0 hrun
    omega
  · intro k hlow hhigh
    exact onlyPastPages_unused.2 (by omega)

/-- With every page of the bitmap used and two bits clear in the byte behind it, two pages past
64 GiB are returned and not marked. -/
theorem pages_past_bitmap_granted :
    ∃ s, pageTotal < s + 2 ∧
      allocatePageSize onlyPastPages 8192 = (4096 * s, onlyPastPages) ∧
      ¬ ManagedAndMarked onlyPastPages 8192 := by
  have hpast : RunPastBitmap onlyPastPages (pageCountOf 8192) := onlyPastPages_run
  obtain ⟨s, -, hover, hresult⟩ := hpast.granted
  exact ⟨s, hover, hresult, hpast.not_managed⟩

/-! ## First fit -/

/-- `AllocatePage(minSize)` returns the lowest run of the pages it needs, from page `s` on, marks
its pages used and leaves every other page as it was. -/
structure FirstFit (bitmap : PageBitmap) (minSize s : Nat) : Prop where
  lowest : FirstRun (isUnused bitmap) ((minSize + 4095) / 4096) pageTotal s
  address : (allocatePageSize bitmap minSize).1 = 4096 * s
  marked : ∀ k, bitAt (allocatePageSize bitmap minSize).2 k =
    if s ≤ k ∧ k < s + (minSize + 4095) / 4096 then usedBit else bitAt bitmap k

/-- The lowest run inside the bitmap is also the one that the longer scan comes upon first. -/
theorem firstRun_scanTotal {pageCount s : Nat}
    (h : FirstRun (isUnused bitmap) pageCount pageTotal s) :
    FirstRun (isUnused bitmap) pageCount scanTotal s := by
  have hfits := h.fits
  exact ⟨by rw [scanTotal_eq]; omega, h.run, h.first⟩

/-- One page is taken by `AllocatePage()`, which also finds page 0. -/
theorem first_fit_one {s : Nat} (hone : pageCountOf minSize = 1)
    (hfirst : FirstRun (isUnused bitmap) (pageCountOf minSize) pageTotal s) :
    FirstFit bitmap minSize s := by
  have hcount := pageCountOf_eq minSize
  have hscan := firstRun_scanTotal hfirst
  rw [hcount] at hfirst
  rw [hone] at hscan
  rcases allocatePage_cases bitmap with ⟨k, -, hk, haddress, hbits⟩ | ⟨hused, -⟩
  · obtain rfl := hk.unique hscan
    refine ⟨hfirst, ?_, ?_⟩
    · rw [allocatePageSize_one hone]
      exact haddress
    · intro j
      have hiff : k ≤ j ∧ j < k + (minSize + 4095) / 4096 ↔ j = k := by omega
      rw [allocatePageSize_one hone, hbits j]
      simp only [hiff]
  · have hfree := isUnused_iff.1 (hfirst.run s (Nat.le_refl s) (by omega))
    have hs := hfirst.fits
    rw [hused s (by omega)] at hfree
    cases hfree

/-- Several pages are found by `FindAvailableAddress` and marked by `SetBitRange`. -/
theorem first_fit_several {s : Nat} (hseveral : 1 < pageCountOf minSize) (hs : 0 < s)
    (hfirst : FirstRun (isUnused bitmap) (pageCountOf minSize) pageTotal s) :
    FirstFit bitmap minSize s := by
  have hcount := pageCountOf_eq minSize
  have haddress := allocatePageSize_address hseveral (firstRun_scanTotal hfirst) hs
  obtain ⟨s', haddress', hgrant⟩ := allocatePageSize_grant (show _ ≠ 0 by rw [haddress]; omega)
  obtain rfl : s' = s := by omega
  have hmarked := hgrant.marked hfirst.fits
  rw [hcount] at hfirst hmarked
  exact ⟨hfirst, haddress, hmarked⟩

/-- The run of several pages from page 0 on is reported as null and not marked. -/
theorem first_fit_null (hseveral : 1 < pageCountOf minSize)
    (hrun : FreeRun (isUnused bitmap) (pageCountOf minSize) 0) :
    allocatePageSize bitmap minSize = (0, bitmap) := by
  have hone : pageCountOf minSize ≠ 1 := by omega
  have hnull : findAvailableAddress bitmap (pageCountOf minSize) = 0 := by
    rcases findAvailableAddress_cases bitmap (Nat.zero_lt_of_lt hseveral) with
      ⟨s, hfirst, haddress⟩ | ⟨-, hnone⟩
    · have hs : s = 0 := Nat.eq_zero_of_not_pos fun hs => hfirst.first 0 hs hrun
      rw [haddress, hs]
    · exact hnone
  simp only [allocatePageSize, if_neg hone, hnull, if_true]

/-- Where a run of free pages lies inside the bitmap, `AllocatePage(minSize)` returns the lowest
one and marks exactly its pages. The one exception is a run of several pages from page 0 on: its
address is null, and nothing is marked. -/
theorem first_fit_exact (bitmap : PageBitmap) {minSize start : Nat} (hsize : 1 ≤ minSize)
    (hfits : start + (minSize + 4095) / 4096 ≤ pageTotal)
    (hrun : FreeRun (isUnused bitmap) ((minSize + 4095) / 4096) start) :
    (((minSize + 4095) / 4096 = 1 ∨ ¬ FreeRun (isUnused bitmap) ((minSize + 4095) / 4096) 0) →
        ∃ s, FirstFit bitmap minSize s) ∧
      ((minSize + 4095) / 4096 ≠ 1 → FreeRun (isUnused bitmap) ((minSize + 4095) / 4096) 0 →
        allocatePageSize bitmap minSize = (0, bitmap)) := by
  have hpos : 1 ≤ (minSize + 4095) / 4096 := by omega
  rw [← pageCountOf_eq minSize] at *
  refine ⟨?_, fun hne hzero => first_fit_null (by omega) hzero⟩
  intro hcase
  obtain ⟨s, hfirst⟩ := exists_firstRun hfits hrun
  by_cases hone : pageCountOf minSize = 1
  · exact ⟨s, first_fit_one hone hfirst⟩
  · have hs : s ≠ 0 := by
      intro hzero
      rw [hzero] at hfirst
      exact (hcase.resolve_left hone) hfirst.run
    exact ⟨s, first_fit_several (by omega) (Nat.pos_of_ne_zero hs) hfirst⟩

theorem first_fit_exact_seven_pages : ∃ s, FirstFit sevenPages 5000 s := by
  have hunused : ∀ k, 1 ≤ k → k < 1 + (5000 + 4095) / 4096 → isUnused sevenPages k = true := by
    intro k hlow hhigh
    obtain rfl | rfl : k = 1 ∨ k = 2 := by omega
    · rfl
    · rfl
  refine (first_fit_exact sevenPages (by omega) (show 1 + _ ≤ _ by decide) hunused).1 (.inr ?_)
  intro hrun
  exact absurd (hrun 0 (Nat.le_refl 0) (by omega)) (by decide)

/-- With every page free, a request for two pages is refused. -/
theorem free_run_at_null_refused :
    0 + (8192 + 4095) / 4096 ≤ pageTotal ∧
      FreeRun (isUnused fun _ => 0#8) ((8192 + 4095) / 4096) 0 ∧
      allocatePageSize (fun _ => 0#8) 8192 = (0, fun _ => 0#8) ∧
      ¬ ∃ s, FirstFit (fun _ => 0#8) 8192 s := by
  have hunused : ∀ k, isUnused (fun _ => 0#8) k = true := by
    intro k
    rw [isUnused_iff]
    show bit 0#8 (k % 8) = unusedBit
    rw [bit_eq_getLsbD, BitVec.getLsbD_zero]
    rfl
  have hrun : FreeRun (isUnused fun _ => 0#8) (pageCountOf 8192) 0 := fun k _ _ => hunused k
  have hresult := first_fit_null (show 1 < pageCountOf 8192 by decide) hrun
  refine ⟨by decide, hrun, hresult, ?_⟩
  rintro ⟨s, hfit⟩
  have hmarked := hfit.marked s
  rw [if_pos ⟨Nat.le_refl s, by omega⟩, hresult, isUnused_iff.1 (hunused s)] at hmarked
  cases hmarked

end HailOS.Early
