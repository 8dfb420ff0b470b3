import Parley.Moment

/-!
# Leases

A lease keeps a record to one worker for a span of time. Once it has expired it keeps nobody out, and
it never keeps its own holder out.

* `Lease.blocks` says when a worker must leave a record alone; `blocks_eq` is its meaning.
-/

namespace Parley

/-- The claim of one worker on one record for a span of time. -/
structure Lease where
  /-- The worker. -/
  holder : String
  /-- When the claim was made. -/
  since : Moment
  /-- How long it holds. -/
  span : Moment
  deriving DecidableEq, Repr, Inhabited

namespace Lease

/-- When the lease expires. -/
def expiry (l : Lease) : Moment := Moment.later l.since l.span

/-- The lease has expired. -/
def isExpired (l : Lease) (now : Moment) : Bool := l.expiry ≤ now

/-- The lease is the worker's own. -/
def isHeldBy (l : Lease) (holder : String) : Bool := l.holder == holder

/-- The lease keeps the worker out: it is live and somebody else's. -/
def blocks (l : Lease) (holder : String) (now : Moment) : Bool :=
  !l.isHeldBy holder && !l.isExpired now

theorem blocks_eq (l : Lease) (holder : String) (now : Moment) :
    l.blocks holder now = true ↔ l.holder ≠ holder ∧ now < l.expiry := by
  simp [blocks, isHeldBy, isExpired]

end Lease

end Parley
