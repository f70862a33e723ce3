import Mathlib.Algebra.GroupWithZero.Nat
import Mathlib.Data.Finset.Card
import Mathlib.Data.Set.Basic
import Mathlib.Tactic.Tauto

/-!
# Ledgers of disjoint blocks

An allocator takes blocks out of a pool of units and puts them back. `Ledger pages initial free
blocks` relates the pool it started from, the units that are free now and the blocks that are
out: together they account for every unit exactly once. Taking a block of free units and giving
one back both keep the ledger, in any order, and the ledger gives the number of free units.
-/

namespace HailOS.Lib

variable {α β : Type}

/-- The units `initial` are now either `free` or in exactly one of the `blocks`. -/
structure Ledger (pages : β → Finset α) (initial free : Set α) (blocks : List β) : Prop where
  accounted : ∀ a, a ∈ initial ↔ a ∈ free ∨ ∃ b ∈ blocks, a ∈ pages b
  reserved : ∀ b ∈ blocks, ∀ a ∈ pages b, a ∉ free
  disjoint : blocks.Pairwise fun b c => Disjoint (pages b) (pages c)

variable {pages : β → Finset α} {initial free free' : Set α} {blocks rest : List β} {b : β}

/-- Before any block is taken. -/
theorem Ledger.empty (pages : β → Finset α) (initial : Set α) :
    Ledger pages initial initial [] :=
  ⟨by simp, by simp, .nil⟩

/-- The order of the blocks does not matter. -/
theorem Ledger.perm (h : Ledger pages initial free blocks) (hperm : blocks.Perm rest) :
    Ledger pages initial free rest := by
  refine ⟨fun a => ?_, fun c hc => h.reserved c (hperm.mem_iff.mpr hc), ?_⟩
  · simp only [h.accounted a, hperm.mem_iff]
  · exact (hperm.pairwise_iff fun hdisjoint => hdisjoint.symm).mp h.disjoint

/-- A block of free units is taken. -/
theorem Ledger.take (h : Ledger pages initial free blocks) (hsub : ∀ a ∈ pages b, a ∈ free)
    (hfree : ∀ a, a ∈ free' ↔ a ∈ free ∧ a ∉ pages b) :
    Ledger pages initial free' (b :: blocks) := by
  refine ⟨fun a => ?_, fun c hc a ha => ?_, List.pairwise_cons.mpr ⟨fun c hc => ?_, h.disjoint⟩⟩
  · rw [h.accounted a, hfree a]
    simp only [List.mem_cons, exists_eq_or_imp]
    have hunit := hsub a
    tauto
  · rw [hfree a]
    rcases List.mem_cons.mp hc with rfl | hc
    · exact fun hnew => hnew.2 ha
    · exact fun hnew => h.reserved c hc a ha hnew.1
  · exact Finset.disjoint_left.mpr fun a hb hcmem => h.reserved c hc a hcmem (hsub a hb)

/-- The first block is given back. -/
theorem Ledger.give_head (h : Ledger pages initial free (b :: rest))
    (hfree : ∀ a, a ∈ free' ↔ a ∈ free ∨ a ∈ pages b) : Ledger pages initial free' rest := by
  obtain ⟨hhead, htail⟩ := List.pairwise_cons.mp h.disjoint
  refine ⟨fun a => ?_, fun c hc a ha => ?_, htail⟩
  · rw [h.accounted a, hfree a]
    simp only [List.mem_cons, exists_eq_or_imp, or_assoc]
  · rw [hfree a]
    rintro (hold | hb)
    · exact h.reserved c (List.mem_cons_of_mem b hc) a ha hold
    · exact Finset.disjoint_left.mp (hhead c hc) hb ha

/-- Any block is given back. -/
theorem Ledger.give [DecidableEq β] (h : Ledger pages initial free blocks) (hb : b ∈ blocks)
    (hfree : ∀ a, a ∈ free' ↔ a ∈ free ∨ a ∈ pages b) :
    Ledger pages initial free' (blocks.erase b) :=
  (h.perm (List.perm_cons_erase hb)).give_head hfree

/-- Blocks consist of units of the initial pool. -/
theorem Ledger.mem_initial (h : Ledger pages initial free blocks) (hb : b ∈ blocks) {a : α}
    (ha : a ∈ pages b) : a ∈ initial :=
  (h.accounted a).mpr (.inr ⟨b, hb, ha⟩)

/-- Inside a window that holds every block, the free units and the units of the blocks make up
the initial ones. -/
theorem Ledger.card [DecidableEq α] (window : Finset α) [DecidablePred (· ∈ initial)]
    [DecidablePred (· ∈ free)] (h : Ledger pages initial free blocks)
    (hwindow : ∀ b ∈ blocks, pages b ⊆ window) :
    (window.filter (· ∈ free)).card + (blocks.map fun b => (pages b).card).sum =
      (window.filter (· ∈ initial)).card := by
  classical
  induction blocks generalizing free with
  | nil =>
      have heq : ∀ a, a ∈ initial ↔ a ∈ free := by simpa using h.accounted
      simp only [heq, List.map_nil, List.sum_nil, Nat.add_zero]
  | cons b rest ih =>
      -- Give the first block back and compare the free units before and after.
      have hgiven : Ledger pages initial (free ∪ (pages b : Set α)) rest :=
        h.give_head fun a => by simp
      have hsplit : window.filter (· ∈ free ∪ (pages b : Set α)) =
          (window.filter (· ∈ free)).disjUnion (pages b)
            (Finset.disjoint_left.mpr fun a ha hb =>
              h.reserved b List.mem_cons_self a hb (Finset.mem_filter.mp ha).2) := by
        ext a
        have hin := @hwindow b List.mem_cons_self a
        simp only [Finset.mem_filter, Finset.mem_disjUnion, Set.mem_union, Finset.mem_coe]
        tauto
      rw [← ih hgiven fun c hc => hwindow c (List.mem_cons_of_mem b hc), hsplit,
        Finset.card_disjUnion, List.map_cons, List.sum_cons]
      omega

end HailOS.Lib
