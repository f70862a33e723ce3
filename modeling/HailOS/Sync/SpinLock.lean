import Mathlib.Data.BitVec

/-!
# The ticket spin lock

`TicketSpinLock` and the atomic operations that `Lock`, `TryLock` and `Unlock` make on it. The
counters are 32-bit words and wrap.
-/

namespace HailOS.Sync

/-- `TicketSpinLock`. -/
structure TicketSpinLock where
  next : BitVec 32 := 0
  owner : BitVec 32 := 0
deriving DecidableEq, Repr

namespace TicketSpinLock

/-- `__atomic_fetch_add(&l.Next, 1u)`: the ticket it returns is the old `next`. -/
def fetchAddNext (l : TicketSpinLock) : BitVec 32 × TicketSpinLock :=
  (l.next, { l with next := l.next + 1 })

/-- `__atomic_fetch_add(&l.Owner, 1u)`, its result not used. -/
def fetchAddOwner (l : TicketSpinLock) : TicketSpinLock :=
  { l with owner := l.owner + 1 }

/-- `__atomic_compare_exchange_n(&l.Next, &n, n + 1u)`. -/
def compareExchangeNext (l : TicketSpinLock) (n : BitVec 32) : Bool × TicketSpinLock :=
  if l.next = n then (true, { l with next := n + 1 }) else (false, l)

end TicketSpinLock

end HailOS.Sync
