import Parley.Ledger.Basic

/-!
# Desks

A worker reaches the ledger through a handle, which leases in the worker's name. A handle can be told
to fail: each outage makes the next call of one operation through it fail. A desk is a handle, the
ledger it opens and the moment its clock shows, so every operation of a worker is a function of a
desk.

* `Desk.find`, `Desk.next`, `Desk.save` and `Desk.release` are the operations that handlers use.
-/

namespace Parley

/-- An operation that can be made to fail. -/
inductive Operation where
  /-- Looking a negotiation up. -/
  | find
  /-- Leasing a batch. -/
  | next
  /-- Storing a negotiation. -/
  | save
  /-- Ending a lease. -/
  | release
  deriving DecidableEq, Repr, Inhabited

/-- A worker's access to a ledger. -/
structure Handle where
  /-- The name the worker leases in. -/
  holder : String
  /-- How long its leases hold. -/
  span : Moment
  /-- The failures still to come, first come first. -/
  outages : List (Operation × String) := []
  deriving DecidableEq, Repr, Inhabited

namespace Handle

/-- How long leases hold unless something else is asked for. -/
def defaultSpan : Moment := 60000

/-- The reason why the next call of an operation fails, if it does. -/
def outage? (h : Handle) (op : Operation) : Option String :=
  (h.outages.find? (·.1 == op)).map (·.2)

/-- The handle after a call of an operation: an outage of it is used up. -/
def afterCall (h : Handle) (op : Operation) : Handle :=
  { h with outages := h.outages.eraseP (·.1 == op) }

/-- The handle told to fail the next `times` calls of an operation. -/
def addOutages (h : Handle) (op : Operation) (times : Nat) (reason : String) : Handle :=
  { h with outages := h.outages ++ List.replicate times (op, reason) }

end Handle

/-- A handle, the ledger it opens, and the moment the ledger's clock shows. -/
structure Desk where
  /-- The handle. -/
  handle : Handle
  /-- The ledger. -/
  ledger : Ledger
  /-- What the clock shows. -/
  now : Moment
  deriving Inhabited

namespace Desk

/-- A call of an operation: it fails if an outage is due, else it does its work on the ledger. -/
def call {α : Type} (d : Desk) (op : Operation)
    (work : Ledger → Except StoreError (α × Ledger)) : Except StoreError α × Desk :=
  let after := { d with handle := d.handle.afterCall op }
  match d.handle.outage? op with
  | some reason => (.error (.backend reason), after)
  | none =>
    match work d.ledger with
    | .ok (a, ledger) => (.ok a, { after with ledger })
    | .error e => (.error e, after)

/-- The negotiation of an id. -/
def find (d : Desk) (id : String) : Except StoreError (Option Negotiation) × Desk :=
  d.call .find fun l => .ok (l.find? id, l)

/-- The next batch of a state, leased. -/
def next (d : Desk) (limit : Nat) (state : State) : Except StoreError (List Negotiation) × Desk :=
  d.call .next fun l => .ok (l.leaseNext limit state d.handle.holder d.handle.span d.now)

/-- The negotiation stored. -/
def save (d : Desk) (n : Negotiation) : Except StoreError Unit × Desk :=
  d.call .save fun l => (l.save n d.handle.holder d.now).map ((), ·)

/-- The lease on the negotiation of an id ended. -/
def release (d : Desk) (id : String) : Except StoreError Unit × Desk :=
  d.call .release fun l => (l.release id d.handle.holder d.now).map ((), ·)

end Desk

end Parley
