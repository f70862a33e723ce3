import HailOS.Lib.Steps
import HailOS.Lib.Word
import HailOS.Sync.SpinLock
import Mathlib.Data.Fintype.Card
import Mathlib.Data.Fintype.List

/-!
# Interleavings of the ticket lock

Any number of CPUs below `2 ^ 32` call `Lock`, `TryLock` and `Unlock` on one lock, one atomic
operation at a time. `ticket_lock_exclusive_fifo` says that at most one CPU holds the lock and
that the CPUs acquire it in the order of their tickets.

`TryLock` reads `Owner` and then `Next`, and acts on what it read. The counters may come round in
between, so the theorem bounds the tickets of a `TryLock`: those that were outstanding when it
read `Owner` and those issued from then until its compare-exchange are fewer than `2 ^ 32`. A
bound on those issued since it read `Next` is not enough, as `tryLock_second_holder` shows.
-/

namespace HailOS.Sync

open Lib

/-- Where a CPU is in its calls on the lock. -/
inductive Phase where
  /-- It is in no call and does not hold the lock. -/
  | outside
  /-- In `Lock`, with its ticket, before a load of `Owner`. -/
  | spinning (t : BitVec 32)
  /-- In `TryLock`, after its load of `Owner`. -/
  | loadedOwner (o : BitVec 32)
  /-- In `TryLock`, after a load of `Next` that gave the same value. -/
  | loadedNext (n : BitVec 32)
  /-- It holds the lock. -/
  | holding
deriving DecidableEq, Repr

/-- The lock, where every CPU is, and what has happened so far. -/
structure LockState (CPU : Type) where
  lock : TicketSpinLock
  phase : CPU → Phase
  /-- The CPUs that took a ticket, in order. -/
  taken : List CPU
  /-- The CPUs that acquired the lock, in order. -/
  acquired : List CPU
  /-- How often the lock was released. -/
  released : Nat
  /-- The releases before a CPU's last load of `Owner` in `TryLock`. -/
  releasedAtLoad : CPU → Nat
  /-- The tickets taken before a CPU's last load of `Next` in `TryLock`. -/
  takenAtLoad : CPU → Nat

/-- The atomic steps of the calls. -/
inductive LockOp (CPU : Type) where
  /-- `Lock`: the fetch-add of `Next`. -/
  | lockTake (c : CPU)
  /-- `Lock`: a load of `Owner`, and the loop ends if it is the ticket. -/
  | lockLoad (c : CPU)
  /-- `TryLock`: the load of `Owner`. -/
  | tryLoadOwner (c : CPU)
  /-- `TryLock`: the load of `Next`, and the return of false if it differs. -/
  | tryLoadNext (c : CPU)
  /-- `TryLock`: the compare-exchange of `Next`, and the return of its result. -/
  | tryExchange (c : CPU)
  /-- `Unlock`: the fetch-add of `Owner`. -/
  | unlock (c : CPU)
deriving DecidableEq, Repr

section Model

variable {CPU : Type} [DecidableEq CPU]

/-- No CPU has called, and the lock is as its constructor leaves it. -/
def LockState.initial : LockState CPU where
  lock := {}
  phase := fun _ => .outside
  taken := []
  acquired := []
  released := 0
  releasedAtLoad := fun _ => 0
  takenAtLoad := fun _ => 0

/-- One atomic step, if the CPU is where the step is made. -/
def LockState.exec (s : LockState CPU) : LockOp CPU → Option (LockState CPU)
  | .lockTake c =>
      match s.phase c with
      | .outside =>
          let r := s.lock.fetchAddNext
          some { s with
            lock := r.2
            phase := Function.update s.phase c (.spinning r.1)
            taken := s.taken ++ [c] }
      | _ => none
  | .lockLoad c =>
      match s.phase c with
      | .spinning t =>
          if s.lock.owner = t then
            some { s with
              phase := Function.update s.phase c .holding
              acquired := s.acquired ++ [c] }
          else some s
      | _ => none
  | .tryLoadOwner c =>
      match s.phase c with
      | .outside =>
          some { s with
            phase := Function.update s.phase c (.loadedOwner s.lock.owner)
            releasedAtLoad := Function.update s.releasedAtLoad c s.released }
      | _ => none
  | .tryLoadNext c =>
      match s.phase c with
      | .loadedOwner o =>
          some { s with
            phase := Function.update s.phase c
              (if o ≠ s.lock.next then .outside else .loadedNext s.lock.next)
            takenAtLoad := Function.update s.takenAtLoad c s.taken.length }
      | _ => none
  | .tryExchange c =>
      match s.phase c with
      | .loadedNext n =>
          let r := s.lock.compareExchangeNext n
          if r.1 then
            some { s with
              lock := r.2
              phase := Function.update s.phase c .holding
              taken := s.taken ++ [c]
              acquired := s.acquired ++ [c] }
          else some { s with lock := r.2, phase := Function.update s.phase c .outside }
      | _ => none
  | .unlock c =>
      match s.phase c with
      | .holding =>
          some { s with
            lock := s.lock.fetchAddOwner
            phase := Function.update s.phase c .outside
            released := s.released + 1 }
      | _ => none

/-- The bound on the tickets of a `TryLock`: fewer than `2 ^ 32` of those outstanding when it
loaded `Owner` and of those issued from then until its compare-exchange. -/
def LockState.Timely (s : LockState CPU) : LockOp CPU → Prop
  | .tryExchange c => s.taken.length < s.releasedAtLoad c + 2 ^ 32
  | _ => True

/-- Fewer than `2 ^ 32` tickets are issued between the load of `Next` in a `TryLock` and its
compare-exchange. -/
def LockState.TimelyNext (s : LockState CPU) : LockOp CPU → Prop
  | .tryExchange c => s.taken.length < s.takenAtLoad c + 2 ^ 32
  | _ => True

/-- The CPU whose `TryLock` makes the step. -/
def LockOp.trying : LockOp CPU → Option CPU
  | .tryLoadOwner c | .tryLoadNext c | .tryExchange c => some c
  | _ => none

/-! ## The steps, one by one -/

/-- The outcomes of the atomic steps. -/
inductive LockStep (s : LockState CPU) : LockOp CPU → LockState CPU → Prop where
  | take (c : CPU) (h : s.phase c = .outside) :
      LockStep s (.lockTake c) { s with
        lock := { s.lock with next := s.lock.next + 1 }
        phase := Function.update s.phase c (.spinning s.lock.next)
        taken := s.taken ++ [c] }
  | enter (c : CPU) (h : s.phase c = .spinning s.lock.owner) :
      LockStep s (.lockLoad c) { s with
        phase := Function.update s.phase c .holding
        acquired := s.acquired ++ [c] }
  | spin (c : CPU) (t : BitVec 32) (h : s.phase c = .spinning t) (hne : s.lock.owner ≠ t) :
      LockStep s (.lockLoad c) s
  | loadOwner (c : CPU) (h : s.phase c = .outside) :
      LockStep s (.tryLoadOwner c) { s with
        phase := Function.update s.phase c (.loadedOwner s.lock.owner)
        releasedAtLoad := Function.update s.releasedAtLoad c s.released }
  | loadNext (c : CPU) (h : s.phase c = .loadedOwner s.lock.next) :
      LockStep s (.tryLoadNext c) { s with
        phase := Function.update s.phase c (.loadedNext s.lock.next)
        takenAtLoad := Function.update s.takenAtLoad c s.taken.length }
  | taken (c : CPU) (o : BitVec 32) (h : s.phase c = .loadedOwner o) (hne : o ≠ s.lock.next) :
      LockStep s (.tryLoadNext c) { s with
        phase := Function.update s.phase c .outside
        takenAtLoad := Function.update s.takenAtLoad c s.taken.length }
  | exchange (c : CPU) (h : s.phase c = .loadedNext s.lock.next) :
      LockStep s (.tryExchange c) { s with
        lock := { s.lock with next := s.lock.next + 1 }
        phase := Function.update s.phase c .holding
        taken := s.taken ++ [c]
        acquired := s.acquired ++ [c] }
  | lost (c : CPU) (n : BitVec 32) (h : s.phase c = .loadedNext n) (hne : s.lock.next ≠ n) :
      LockStep s (.tryExchange c) { s with phase := Function.update s.phase c .outside }
  | release (c : CPU) (h : s.phase c = .holding) :
      LockStep s (.unlock c) { s with
        lock := { s.lock with owner := s.lock.owner + 1 }
        phase := Function.update s.phase c .outside
        released := s.released + 1 }

/-- Every executed step has one of the outcomes. -/
theorem LockState.exec_step {s t : LockState CPU} {op : LockOp CPU} (h : s.exec op = some t) :
    LockStep s op t := by
  cases op with
  | lockTake c =>
      cases hphase : s.phase c <;> simp only [LockState.exec, hphase, reduceCtorEq] at h
      cases h
      exact .take c hphase
  | lockLoad c =>
      cases hphase : s.phase c <;> simp only [LockState.exec, hphase, reduceCtorEq] at h
      split at h
      · rename_i howner
        cases h
        rw [← howner] at hphase
        exact .enter c hphase
      · rename_i howner
        cases h
        exact .spin c _ hphase howner
  | tryLoadOwner c =>
      cases hphase : s.phase c <;> simp only [LockState.exec, hphase, reduceCtorEq] at h
      cases h
      exact .loadOwner c hphase
  | tryLoadNext c =>
      cases hphase : s.phase c with
      | loadedOwner o =>
          simp only [LockState.exec, hphase] at h
          cases h
          by_cases hsame : o = s.lock.next
          · rw [if_neg (not_not.2 hsame)]
            rw [hsame] at hphase
            exact .loadNext c hphase
          · rw [if_pos hsame]
            exact .taken c o hphase hsame
      | outside | spinning | loadedNext | holding =>
          simp only [LockState.exec, hphase, reduceCtorEq] at h
  | tryExchange c =>
      cases hphase : s.phase c <;>
        simp only [LockState.exec, hphase, reduceCtorEq, TicketSpinLock.compareExchangeNext] at h
      rename_i n
      by_cases hsame : s.lock.next = n
      · subst hsame
        simp only [if_true] at h
        cases h
        exact .exchange c hphase
      · simp only [if_neg hsame, Bool.false_eq_true, if_false] at h
        cases h
        exact .lost c n hphase hsame
  | unlock c =>
      cases hphase : s.phase c <;> simp only [LockState.exec, hphase, reduceCtorEq] at h
      cases h
      exact .release c hphase

/-- Every outcome is that of an executed step. -/
theorem LockStep.exec {s t : LockState CPU} {op : LockOp CPU} (h : LockStep s op t) :
    s.exec op = some t := by
  cases h with
  | take c h => simp only [LockState.exec, h, TicketSpinLock.fetchAddNext]
  | enter c h => simp only [LockState.exec, h, if_true]
  | spin c t h hne => simp only [LockState.exec, h, if_neg hne]
  | loadOwner c h => simp only [LockState.exec, h]
  | loadNext c h => simp only [LockState.exec, h, ne_eq, not_true_eq_false, if_false]
  | taken c o h hne => simp only [LockState.exec, h, if_pos hne]
  | exchange c h => simp only [LockState.exec, h, TicketSpinLock.compareExchangeNext, if_true]
  | lost c n h hne =>
      simp only [LockState.exec, h, TicketSpinLock.compareExchangeNext, if_neg hne,
        Bool.false_eq_true, if_false]
  | release c h => simp only [LockState.exec, h, TicketSpinLock.fetchAddOwner]

end Model

/-! ## The invariant -/

/-- The CPU has a ticket that is not released yet. -/
def Phase.HasTicket : Phase → Prop
  | .spinning _ | .holding => True
  | _ => False

section Invariant

variable {CPU : Type}

/-- The counters are the tickets taken and released. The tickets in between belong to different
CPUs, which wait for them, except that the CPU with the first of them may hold the lock. -/
structure LockInv (lock : TicketSpinLock) (phase : CPU → Phase) (taken acquired : List CPU)
    (released : Nat) (releasedAtLoad : CPU → Nat) : Prop where
  next_eq : lock.next = BitVec.ofNat 32 taken.length
  owner_eq : lock.owner = BitVec.ofNat 32 released
  released_le : released ≤ taken.length
  waiting : ∀ i c, released ≤ i → taken[i]? = some c →
    phase c = .spinning (BitVec.ofNat 32 i) ∨ (phase c = .holding ∧ i = released)
  ticket : ∀ c, (phase c).HasTicket → ∃ i, released ≤ i ∧ taken[i]? = some c
  distinct : (taken.drop released).Nodup
  acquired_held : ∀ c, phase c = .holding → acquired = taken.take (released + 1)
  acquired_free : (∀ c, phase c ≠ .holding) → acquired = taken.take released
  loaded : ∀ c o, phase c = .loadedOwner o ∨ phase c = .loadedNext o →
    o = BitVec.ofNat 32 (releasedAtLoad c) ∧ releasedAtLoad c ≤ released

/-- The invariant of a state. -/
def LockState.Inv (s : LockState CPU) : Prop :=
  LockInv s.lock s.phase s.taken s.acquired s.released s.releasedAtLoad

theorem LockState.Inv.initial : (LockState.initial : LockState CPU).Inv where
  next_eq := rfl
  owner_eq := rfl
  released_le := Nat.le_refl 0
  waiting := by
    intro i c _ htaken
    simp [LockState.initial] at htaken
  ticket := fun c h => absurd h id
  distinct := List.nodup_nil
  acquired_held := by
    intro c h
    simp [LockState.initial] at h
  acquired_free := fun _ => rfl
  loaded := by
    intro c o h
    simp [LockState.initial] at h

namespace LockInv

variable {lock : TicketSpinLock} {phase : CPU → Phase} {taken acquired : List CPU}
  {released : Nat} {releasedAtLoad : CPU → Nat}

/-- The holder has the first ticket that is not released. -/
theorem holder (h : LockInv lock phase taken acquired released releasedAtLoad) {c : CPU}
    (hc : phase c = .holding) : taken[released]? = some c := by
  have hticket : (phase c).HasTicket := by
    rw [hc]
    trivial
  obtain ⟨i, hi, htaken⟩ := h.ticket c hticket
  cases h.waiting i c hi htaken with
  | inl hspinning =>
      rw [hc] at hspinning
      cases hspinning
  | inr hholding => rw [← hholding.2, htaken]

/-- A CPU without a ticket owns none of the outstanding tickets. -/
theorem ne_of_taken (h : LockInv lock phase taken acquired released releasedAtLoad) {c c' : CPU}
    (hc : ¬ (phase c).HasTicket) {i : Nat} (hi : released ≤ i) (htaken : taken[i]? = some c') :
    c' ≠ c := by
  intro hsame
  subst hsame
  apply hc
  cases h.waiting i c' hi htaken with
  | inl hspinning =>
      rw [hspinning]
      trivial
  | inr hholding =>
      rw [hholding.1]
      trivial

/-- Fewer tickets are outstanding than the counters can tell apart. -/
theorem taken_lt [Fintype CPU] (h : LockInv lock phase taken acquired released releasedAtLoad)
    (hcpus : Fintype.card CPU < 2 ^ 32) : taken.length < released + 2 ^ 32 := by
  have hcount := h.distinct.length_le_card
  rw [List.length_drop] at hcount
  omega

/-- The tickets of a CPU that waits for the current value of `Owner`. -/
theorem turn [Fintype CPU] (h : LockInv lock phase taken acquired released releasedAtLoad)
    (hcpus : Fintype.card CPU < 2 ^ 32) {c : CPU} (hc : phase c = .spinning lock.owner) {i : Nat}
    (hi : released ≤ i) (htaken : taken[i]? = some c) : i = released := by
  have hlength : i < taken.length := (List.getElem?_eq_some_iff.1 htaken).1
  have hwindow := h.taken_lt hcpus
  cases h.waiting i c hi htaken with
  | inl hspinning =>
      rw [hc, h.owner_eq] at hspinning
      exact (eq_of_ofNat_eq hi (by omega) (Phase.spinning.inj hspinning)).symm
  | inr hholding => exact hholding.2

/-- The tickets after one more is taken. -/
theorem getElem?_taken {c c' : CPU} {i : Nat} (h : (taken ++ [c])[i]? = some c') :
    taken[i]? = some c' ∨ (i = taken.length ∧ c' = c) := by
  by_cases hi : i < taken.length
  · rw [List.getElem?_append_left hi] at h
    exact Or.inl h
  · rw [List.getElem?_append_right (by omega), List.getElem?_singleton] at h
    split at h
    · cases h
      exact Or.inr ⟨by omega, rfl⟩
    · cases h

variable [DecidableEq CPU]

/-- A CPU without a ticket steps, and then nobody holds the lock. -/
theorem free_of_update {c : CPU} {after : Phase} (hc : ¬ (phase c).HasTicket)
    (hfree : ∀ c', Function.update phase c after c' ≠ .holding) : ∀ c', phase c' ≠ .holding := by
  intro c' hholding
  by_cases hsame : c' = c
  · rw [hsame] at hholding
    rw [hholding] at hc
    exact hc trivial
  · apply hfree c'
    rw [Function.update_of_ne hsame, hholding]

/-- A CPU steps to a phase in which it has loaded nothing. -/
theorem loaded_of_update {c c' : CPU} {after : Phase} {o : BitVec 32}
    (hafter : ¬ (after = .loadedOwner o ∨ after = .loadedNext o))
    (h : Function.update phase c after c' = .loadedOwner o ∨
      Function.update phase c after c' = .loadedNext o) :
    phase c' = .loadedOwner o ∨ phase c' = .loadedNext o := by
  by_cases hsame : c' = c
  · rw [hsame, Function.update_self] at h
    exact absurd h hafter
  · rwa [Function.update_of_ne hsame] at h

/-- A CPU that steps from one phase without a ticket to another leaves the tickets alone. -/
theorem reposition (h : LockInv lock phase taken acquired released releasedAtLoad) (c : CPU)
    (after : Phase) (hold : ¬ (phase c).HasTicket) (hnew : ¬ after.HasTicket)
    {releasedAtLoad' : CPU → Nat} (hother : ∀ c', c' ≠ c → releasedAtLoad' c' = releasedAtLoad c')
    (hloaded : ∀ o, after = .loadedOwner o ∨ after = .loadedNext o →
      o = BitVec.ofNat 32 (releasedAtLoad' c) ∧ releasedAtLoad' c ≤ released) :
    LockInv lock (Function.update phase c after) taken acquired released releasedAtLoad' where
  next_eq := h.next_eq
  owner_eq := h.owner_eq
  released_le := h.released_le
  waiting := by
    intro i c' hi htaken
    rw [Function.update_of_ne (h.ne_of_taken hold hi htaken)]
    exact h.waiting i c' hi htaken
  ticket := by
    intro c' hticket
    by_cases hsame : c' = c
    · rw [hsame, Function.update_self] at hticket
      exact absurd hticket hnew
    · rw [Function.update_of_ne hsame] at hticket
      exact h.ticket c' hticket
  distinct := h.distinct
  acquired_held := by
    intro c' hholding
    by_cases hsame : c' = c
    · rw [hsame, Function.update_self] at hholding
      rw [hholding] at hnew
      exact absurd trivial hnew
    · rw [Function.update_of_ne hsame] at hholding
      exact h.acquired_held c' hholding
  acquired_free := by
    intro hfree
    exact h.acquired_free (free_of_update hold hfree)
  loaded := by
    intro c' o hphase
    by_cases hsame : c' = c
    · rw [hsame] at hphase ⊢
      rw [Function.update_self] at hphase
      exact hloaded o hphase
    · rw [Function.update_of_ne hsame] at hphase
      rw [hother c' hsame]
      exact h.loaded c' o hphase

/-- `TryLock` loads `Owner`. -/
theorem loadOwner (h : LockInv lock phase taken acquired released releasedAtLoad) {c : CPU}
    (hc : phase c = .outside) :
    LockInv lock (Function.update phase c (.loadedOwner lock.owner)) taken acquired released
      (Function.update releasedAtLoad c released) := by
  refine h.reposition c _ (by rw [hc]; exact id) id ?_ ?_
  · intro c' hne
    rw [Function.update_of_ne hne]
  · intro o hloaded
    rw [Function.update_self]
    cases hloaded with
    | inl howner =>
        rw [← Phase.loadedOwner.inj howner]
        exact ⟨h.owner_eq, Nat.le_refl _⟩
    | inr hnext => cases hnext

/-- `TryLock` loads a `Next` that is the `Owner` it loaded. -/
theorem loadNext (h : LockInv lock phase taken acquired released releasedAtLoad) {c : CPU}
    (hc : phase c = .loadedOwner lock.next) :
    LockInv lock (Function.update phase c (.loadedNext lock.next)) taken acquired released
      releasedAtLoad := by
  refine h.reposition c _ (by rw [hc]; exact id) id (fun _ _ => rfl) ?_
  intro o hloaded
  cases hloaded with
  | inl howner => cases howner
  | inr hnext =>
      rw [← Phase.loadedNext.inj hnext]
      exact h.loaded c _ (Or.inl hc)

/-- `TryLock` returns false. -/
theorem refuse (h : LockInv lock phase taken acquired released releasedAtLoad) {c : CPU}
    (hc : ¬ (phase c).HasTicket) :
    LockInv lock (Function.update phase c .outside) taken acquired released releasedAtLoad := by
  refine h.reposition c _ hc id (fun _ _ => rfl) ?_
  intro o hloaded
  cases hloaded with
  | inl howner => cases howner
  | inr hnext => cases hnext

/-- A CPU without a ticket takes the next one. -/
theorem take (h : LockInv lock phase taken acquired released releasedAtLoad) {c : CPU}
    (hc : ¬ (phase c).HasTicket) :
    LockInv { lock with next := lock.next + 1 }
      (Function.update phase c (.spinning lock.next)) (taken ++ [c]) acquired released
      releasedAtLoad where
  next_eq := by
    show lock.next + 1 = _
    rw [h.next_eq, List.length_append, List.length_singleton, BitVec.ofNat_add]
    rfl
  owner_eq := h.owner_eq
  released_le := by
    rw [List.length_append]
    exact Nat.le_add_right_of_le h.released_le
  waiting := by
    intro i c' hi htaken
    cases getElem?_taken htaken with
    | inl hold =>
        rw [Function.update_of_ne (h.ne_of_taken hc hi hold)]
        exact h.waiting i c' hi hold
    | inr hnew =>
        rw [hnew.1, hnew.2, Function.update_self, h.next_eq]
        exact Or.inl rfl
  ticket := by
    intro c' hticket
    by_cases hsame : c' = c
    · exact ⟨taken.length, h.released_le, by rw [hsame, List.getElem?_concat_length]⟩
    · rw [Function.update_of_ne hsame] at hticket
      obtain ⟨i, hi, htaken⟩ := h.ticket c' hticket
      refine ⟨i, hi, ?_⟩
      rw [List.getElem?_append_left (List.getElem?_eq_some_iff.1 htaken).1, htaken]
  distinct := by
    rw [List.drop_append_of_le_length h.released_le, List.nodup_append]
    refine ⟨h.distinct, List.nodup_singleton c, ?_⟩
    intro c' hmem c'' hnew hsame
    obtain ⟨i, hi⟩ := List.mem_iff_getElem?.1 hmem
    rw [List.getElem?_drop] at hi
    rw [List.mem_singleton.1 hnew] at hsame
    exact h.ne_of_taken hc (Nat.le_add_right _ _) hi hsame
  acquired_held := by
    intro c' hholding
    have hne : c' ≠ c := by
      intro hsame
      rw [hsame, Function.update_self] at hholding
      cases hholding
    rw [Function.update_of_ne hne] at hholding
    have hlength : released < taken.length := (List.getElem?_eq_some_iff.1 (h.holder hholding)).1
    rw [List.take_append_of_le_length hlength, h.acquired_held c' hholding]
  acquired_free := by
    intro hfree
    rw [List.take_append_of_le_length h.released_le]
    exact h.acquired_free (free_of_update hc hfree)
  loaded := by
    intro c' o hphase
    exact h.loaded c' o (loaded_of_update (by simp) hphase)

/-- The CPU whose ticket is up acquires the lock. -/
theorem enter [Fintype CPU] (h : LockInv lock phase taken acquired released releasedAtLoad)
    (hcpus : Fintype.card CPU < 2 ^ 32) {c : CPU} (hc : phase c = .spinning lock.owner) :
    LockInv lock (Function.update phase c .holding) taken (acquired ++ [c]) released
      releasedAtLoad := by
  have hticket : (phase c).HasTicket := by
    rw [hc]
    trivial
  obtain ⟨i, hi, htaken⟩ := h.ticket c hticket
  rw [h.turn hcpus hc hi htaken] at htaken
  -- nobody else holds the lock, since the first outstanding ticket belongs to `c`
  have hfree : ∀ c', phase c' ≠ .holding := by
    intro c' hholding
    have hsame : c' = c := Option.some.inj ((h.holder hholding).symm.trans htaken)
    rw [hsame, hc] at hholding
    cases hholding
  refine
    { next_eq := h.next_eq, owner_eq := h.owner_eq, released_le := h.released_le,
      distinct := h.distinct, waiting := ?_, ticket := ?_, acquired_held := ?_,
      acquired_free := ?_, loaded := ?_ }
  · intro i c' hi htaken'
    by_cases hsame : c' = c
    · rw [hsame] at htaken' ⊢
      rw [Function.update_self]
      exact Or.inr ⟨rfl, h.turn hcpus hc hi htaken'⟩
    · rw [Function.update_of_ne hsame]
      exact h.waiting i c' hi htaken'
  · intro c' hticket'
    by_cases hsame : c' = c
    · exact ⟨released, Nat.le_refl _, by rw [hsame, htaken]⟩
    · rw [Function.update_of_ne hsame] at hticket'
      exact h.ticket c' hticket'
  · intro c' _
    rw [h.acquired_free hfree, List.take_add_one, htaken, Option.toList_some]
  · intro hfree'
    exact absurd (Function.update_self c Phase.holding phase) (hfree' c)
  · intro c' o hphase
    exact h.loaded c' o (loaded_of_update (by simp) hphase)

/-- A timely compare-exchange that succeeds takes a ticket that is up at once. -/
theorem exchange [Fintype CPU] (h : LockInv lock phase taken acquired released releasedAtLoad)
    (hcpus : Fintype.card CPU < 2 ^ 32) {c : CPU} (hc : phase c = .loadedNext lock.next)
    (htimely : taken.length < releasedAtLoad c + 2 ^ 32) :
    LockInv { lock with next := lock.next + 1 } (Function.update phase c .holding)
      (taken ++ [c]) (acquired ++ [c]) released releasedAtLoad := by
  -- the lock is free: `Next` is still what `Owner` was at its load
  obtain ⟨hloaded, hle⟩ := h.loaded c _ (Or.inr hc)
  have hreleased := h.released_le
  have hlength : releasedAtLoad c = taken.length :=
    eq_of_ofNat_eq (by omega) htimely (hloaded.symm.trans h.next_eq)
  have hfree : lock.next = lock.owner := by
    rw [h.next_eq, h.owner_eq, show released = taken.length by omega]
  have hnone : ¬ (phase c).HasTicket := by
    rw [hc]
    exact id
  have hticket := h.take hnone
  have hturn : Function.update phase c (.spinning lock.next) c = .spinning lock.owner := by
    rw [Function.update_self, hfree]
  have henter := hticket.enter hcpus hturn
  rwa [Function.update_idem] at henter

/-- The holder releases the lock. -/
theorem release (h : LockInv lock phase taken acquired released releasedAtLoad) {c : CPU}
    (hc : phase c = .holding) :
    LockInv { lock with owner := lock.owner + 1 } (Function.update phase c .outside) taken
      acquired (released + 1) releasedAtLoad := by
  have htaken := h.holder hc
  -- `c` has no other ticket, and there is no other holder
  have hother : ∀ i c', released + 1 ≤ i → taken[i]? = some c' →
      c' ≠ c ∧ phase c' = .spinning (BitVec.ofNat 32 i) := by
    intro i c' hi htaken'
    cases h.waiting i c' (by omega) htaken' with
    | inl hspinning =>
        refine ⟨?_, hspinning⟩
        intro hsame
        rw [hsame, hc] at hspinning
        cases hspinning
    | inr hholding => exact absurd hholding.2 (by omega)
  have hfree : ∀ c', Function.update phase c .outside c' ≠ .holding := by
    intro c' hholding
    by_cases hsame : c' = c
    · rw [hsame, Function.update_self] at hholding
      cases hholding
    · rw [Function.update_of_ne hsame] at hholding
      exact hsame (Option.some.inj ((h.holder hholding).symm.trans htaken))
  refine
    { next_eq := h.next_eq, owner_eq := ?_, released_le := ?_, waiting := ?_, ticket := ?_,
      distinct := ?_, acquired_held := ?_, acquired_free := ?_, loaded := ?_ }
  · show lock.owner + 1 = _
    rw [h.owner_eq, BitVec.ofNat_add]
    rfl
  · exact (List.getElem?_eq_some_iff.1 htaken).1
  · intro i c' hi htaken'
    obtain ⟨hne, hspinning⟩ := hother i c' hi htaken'
    rw [Function.update_of_ne hne]
    exact Or.inl hspinning
  · intro c' hticket
    have hne : c' ≠ c := by
      intro hsame
      rw [hsame, Function.update_self] at hticket
      exact hticket
    rw [Function.update_of_ne hne] at hticket
    obtain ⟨i, hi, htaken'⟩ := h.ticket c' hticket
    refine ⟨i, Nat.lt_of_le_of_ne hi ?_, htaken'⟩
    intro hfirst
    rw [← hfirst, htaken] at htaken'
    exact hne (Option.some.inj htaken').symm
  · rw [← List.drop_drop]
    exact h.distinct.sublist (List.drop_sublist 1 _)
  · intro c' hholding
    exact absurd hholding (hfree c')
  · intro _
    exact h.acquired_held c hc
  · intro c' o hphase
    obtain ⟨hvalue, hle⟩ := h.loaded c' o (loaded_of_update (by simp) hphase)
    exact ⟨hvalue, Nat.le_succ_of_le hle⟩

end LockInv

/-- A timely step keeps the invariant. -/
theorem LockState.Inv.step [Fintype CPU] [DecidableEq CPU] (hcpus : Fintype.card CPU < 2 ^ 32)
    {s t : LockState CPU} {op : LockOp CPU} (h : s.Inv) (hexec : s.exec op = some t)
    (htimely : s.Timely op) : t.Inv := by
  cases LockState.exec_step hexec with
  | take c hc =>
      refine LockInv.take h ?_
      rw [hc]
      exact id
  | enter c hc => exact LockInv.enter h hcpus hc
  | spin => exact h
  | loadOwner c hc => exact LockInv.loadOwner h hc
  | loadNext c hc => exact LockInv.loadNext h hc
  | taken c o hc _ =>
      refine LockInv.refuse h ?_
      rw [hc]
      exact id
  | exchange c hc => exact LockInv.exchange h hcpus hc htimely
  | lost c n hc _ =>
      refine LockInv.refuse h ?_
      rw [hc]
      exact id
  | release c hc => exact LockInv.release h hc

/-- The CPUs acquire the lock in the order of their tickets. -/
theorem LockState.Inv.acquired_in_order {s : LockState CPU} (h : s.Inv) :
    s.acquired <+: s.taken := by
  by_cases hheld : ∃ c, s.phase c = .holding
  · obtain ⟨c, hc⟩ := hheld
    rw [LockInv.acquired_held h c hc]
    exact List.take_prefix _ _
  · rw [LockInv.acquired_free h fun c hc => hheld ⟨c, hc⟩]
    exact List.take_prefix _ _

/-- A step of a `TryLock` that does not end with the lock held changes no counter. -/
theorem LockState.exec_trying [DecidableEq CPU] {s t : LockState CPU} {op : LockOp CPU} {c : CPU}
    (hexec : s.exec op = some t) (hop : op.trying = some c) (hc : t.phase c ≠ .holding) :
    t.lock = s.lock := by
  cases LockState.exec_step hexec with
  | loadOwner | loadNext | taken | lost | spin => rfl
  | exchange c' =>
      cases hop
      exact absurd (Function.update_self c Phase.holding s.phase) hc
  | take | enter | release => cases hop

/-- In every interleaving whose `TryLock` calls are timely, at most one CPU holds the lock, the
CPUs acquire it in the order of their tickets, and a `TryLock` changes no counter unless it
ends with the lock held. -/
theorem ticket_lock_exclusive_fifo [Fintype CPU] [DecidableEq CPU]
    (hcpus : Fintype.card CPU < 2 ^ 32) {ops : List (LockOp CPU)} {s : LockState CPU}
    (hrun : Steps (fun s op t => LockState.exec s op = some t ∧ s.Timely op)
      LockState.initial ops s) :
    (∀ c c', s.phase c = .holding → s.phase c' = .holding → c = c') ∧
      s.acquired <+: s.taken ∧
      ∀ op t c, s.exec op = some t → op.trying = some c → t.phase c ≠ .holding →
        t.lock = s.lock := by
  have hinv : s.Inv := hrun.invariant
    (fun _ _ _ h hstep => h.step hcpus hstep.1 hstep.2) LockState.Inv.initial
  refine ⟨?_, hinv.acquired_in_order, ?_⟩
  · intro c c' hc hc'
    exact Option.some.inj ((LockInv.holder hinv hc).symm.trans (LockInv.holder hinv hc'))
  · intro op t c hexec hop hc
    exact LockState.exec_trying hexec hop hc

end Invariant

/-- A `TryLock` takes the free lock, and a second CPU queues behind it. -/
theorem ticket_lock_exclusive_fifo_try :
    ∃ s : LockState Bool,
      Steps (fun s op t => LockState.exec s op = some t ∧ s.Timely op) LockState.initial
        [.tryLoadOwner false, .tryLoadNext false, .tryExchange false, .lockTake true] s ∧
      s.phase false = .holding ∧ s.phase true ≠ .holding ∧ s.acquired = [false] ∧
      s.taken = [false, true] ∧ s.acquired <+: s.taken := by
  have hrun : Steps (fun s op t => LockState.exec s op = some t ∧ s.Timely op)
      (LockState.initial : LockState Bool)
      [.tryLoadOwner false, .tryLoadNext false, .tryExchange false, .lockTake true] _ :=
    .cons ⟨(LockStep.loadOwner false rfl).exec, trivial⟩
      (.cons ⟨(LockStep.loadNext false rfl).exec, trivial⟩
        (.cons ⟨(LockStep.exchange false rfl).exec, by simp [LockState.Timely, LockState.initial]⟩
          (.cons ⟨(LockStep.take true rfl).exec, trivial⟩ (.refl _))))
  obtain ⟨hexclusive, horder, -⟩ := ticket_lock_exclusive_fifo (by simp) hrun
  refine ⟨_, hrun, rfl, ?_, rfl, rfl, horder⟩
  intro hholding
  exact absurd (hexclusive false true rfl hholding) Bool.false_ne_true

/-! ## The counters come round -/

/-- The first of two CPUs has loaded `Owner` at the start. The second has taken and released the
lock `k` times since and is in no call. -/
structure AfterRounds (k : Nat) (s : LockState Bool) : Prop where
  lock : s.lock = ⟨BitVec.ofNat 32 k, BitVec.ofNat 32 k⟩
  first : s.phase false = .loadedOwner 0
  second : s.phase true = .outside

/-- A step that meets the bound on the tickets issued since the load of `Next`. -/
def NextTimelyStep (s : LockState Bool) (op : LockOp Bool) (t : LockState Bool) : Prop :=
  s.exec op = some t ∧ s.TimelyNext op

/-- The second CPU takes the lock once more. -/
theorem AfterRounds.lock_again {k : Nat} {s : LockState Bool} (h : AfterRounds k s) :
    ∃ t, Steps NextTimelyStep s [.lockTake true, .lockLoad true] t ∧
      t.lock = ⟨BitVec.ofNat 32 k + 1, BitVec.ofNat 32 k⟩ ∧
      t.phase false = .loadedOwner 0 ∧ t.phase true = .holding := by
  refine ⟨_, .cons ⟨(LockStep.take true h.second).exec, trivial⟩
    (.cons ⟨(LockStep.enter true ?_).exec, trivial⟩ (.refl _)), ?_, ?_, ?_⟩
  · simp only [Function.update_self, h.lock]
  · simp only [h.lock]
  · simp [h.first]
  · simp only [Function.update_self]

/-- One more round of the second CPU. -/
theorem AfterRounds.round {k : Nat} {s : LockState Bool} (h : AfterRounds k s) :
    ∃ ops t, Steps NextTimelyStep s ops t ∧ AfterRounds (k + 1) t := by
  obtain ⟨u, hrun, hlock, hfirst, hsecond⟩ := h.lock_again
  refine ⟨_, _, hrun.snoc ⟨(LockStep.release true hsecond).exec, trivial⟩, ?_⟩
  refine { lock := ?_, first := ?_, second := ?_ }
  · simp only [hlock, BitVec.ofNat_add]
    rfl
  · simp [hfirst]
  · simp only [Function.update_self]

/-- The first CPU loads `Owner` while the second holds the lock for the first time, and the
second goes through `k` more rounds. -/
theorem exists_afterRounds (k : Nat) :
    ∃ ops s, Steps NextTimelyStep LockState.initial ops s ∧ AfterRounds (k + 1) s := by
  induction k with
  | zero =>
      refine ⟨_, _, .cons ⟨(LockStep.take true rfl).exec, trivial⟩
        (.cons ⟨(LockStep.enter true rfl).exec, trivial⟩
          (.cons ⟨(LockStep.loadOwner false rfl).exec, trivial⟩
            (.cons ⟨(LockStep.release true rfl).exec, trivial⟩ (.refl _)))), ?_⟩
      exact { lock := rfl, first := rfl, second := rfl }
  | succ k ih =>
      obtain ⟨ops, s, hrun, h⟩ := ih
      obtain ⟨ops', t, hround, h'⟩ := h.round
      exact ⟨ops ++ ops', t, hrun.append hround, h'⟩

/-- The first CPU loads `Owner` while the second holds the lock for the first time. The second
takes the lock `2 ^ 32 - 1` more times and keeps it, and then the first loads `Next` and exchanges
it at once. No ticket is issued between these two steps, and both CPUs hold the lock. -/
theorem tryLock_second_holder :
    ∃ ops s, Steps NextTimelyStep LockState.initial ops s ∧
      s.phase false = .holding ∧ s.phase true = .holding := by
  obtain ⟨ops, s, hrun, h⟩ := exists_afterRounds (2 ^ 32 - 2)
  obtain ⟨t, hlast, hlock, hfirst, hsecond⟩ := h.lock_again
  have hnext : t.lock.next = 0 := by
    rw [hlock]
    rfl
  have hload : t.phase false = .loadedOwner t.lock.next := by rw [hfirst, hnext]
  refine ⟨_, _, ((hrun.append hlast).snoc ⟨(LockStep.loadNext false hload).exec, trivial⟩).snoc
    ⟨(LockStep.exchange false ?_).exec, ?_⟩, ?_, ?_⟩
  · simp only [Function.update_self]
  · simp [LockState.TimelyNext]
  · simp only [Function.update_self]
  · simp [hsecond]

end HailOS.Sync
