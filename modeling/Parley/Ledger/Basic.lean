import Parley.Ledger.Lease
import Parley.Negotiation.Basic

/-!
# The ledger of negotiations

The records of all negotiations, each with the lease on it if there is one. An id has at most one
record. Several workers share a ledger and keep out of each other's way by leasing.

* `Ledger.leaseNext` leases a batch: the records of a state that nobody holds, oldest first.
* `Ledger.save`, `Ledger.release` and `Ledger.delete` respect the leases of others; saving and
  releasing end the lease.
-/

namespace Parley

/-- A negotiation and the lease on it. -/
structure Record where
  /-- The negotiation. -/
  negotiation : Negotiation
  /-- The lease, if there is one. -/
  lease : Option Lease
  deriving DecidableEq, Repr, Inhabited

namespace Record

/-- The id of the negotiation. -/
def id (r : Record) : String := r.negotiation.id

/-- Nobody holds the record: it has no lease or an expired one. -/
def isFree (r : Record) (now : Moment) : Bool :=
  match r.lease with
  | some l => l.isExpired now
  | none => true

/-- Whose lease keeps a worker out of the record. -/
def blocker? (r : Record) (holder : String) (now : Moment) : Option String :=
  match r.lease with
  | some l => if l.blocks holder now then some l.holder else none
  | none => none

/-- The order in which records are served: by the moment their state was entered, then by id. -/
def before (r s : Record) : Bool :=
  r.negotiation.stateSince < s.negotiation.stateSince ||
    (r.negotiation.stateSince == s.negotiation.stateSince && r.id ≤ s.id)

/-- The new record if the old one has its id, else the old one. -/
def replaceBy (new old : Record) : Record := if old.id = new.id then new else old

theorem id_replaceBy (new old : Record) : (new.replaceBy old).id = old.id := by
  unfold replaceBy; split <;> simp_all

/-- The record with a lease, or with none, if its id is among some ids. -/
def withLease (r : Record) (ids : List String) (lease : Option Lease) : Record :=
  if ids.contains r.id then { r with lease } else r

theorem id_withLease (r : Record) (ids : List String) (lease : Option Lease) :
    (r.withLease ids lease).id = r.id := by
  unfold withLease; split <;> rfl

end Record

/-- Why an operation on stored negotiations failed. -/
inductive StoreError where
  /-- There is no record of the id. -/
  | notFound (id : String)
  /-- Another worker holds the record. -/
  | alreadyLeased (id holder : String)
  /-- There is a record of the id already. -/
  | duplicateId (id : String)
  /-- The storage itself failed. -/
  | backend (reason : String)
  deriving DecidableEq, Repr, Inhabited

/-- The wording of an error. -/
def StoreError.message : StoreError → String
  | notFound id => "entity not found: " ++ id
  | alreadyLeased id holder => "entity " ++ id ++ " is leased by " ++ holder
  | duplicateId id => "duplicate entity ID: " ++ id
  | backend reason => "storage backend error: " ++ reason

/-- The records, at most one for each id. -/
structure Ledger where
  /-- The records, in the order in which they were first put in. -/
  records : List Record
  /-- No two records have one id. -/
  nodup : (records.map Record.id).Nodup
  deriving Repr

namespace Ledger

/-- The ledger without records. -/
def empty : Ledger := ⟨[], List.nodup_nil⟩

instance : Inhabited Ledger := ⟨empty⟩

/-- The record of an id. -/
def record? (l : Ledger) (id : String) : Option Record := l.records.find? (·.id == id)

/-- The negotiation of an id. -/
def find? (l : Ledger) (id : String) : Option Negotiation := (l.record? id).map (·.negotiation)

/-- The lease on the record of an id. -/
def leaseOf? (l : Ledger) (id : String) : Option Lease := (l.record? id).bind (·.lease)

/-- There is a record of the id. -/
def contains (l : Ledger) (id : String) : Bool := l.records.any (·.id == id)

/-- The number of records. -/
def size (l : Ledger) : Nat := l.records.length

/-! ### Changing records -/

theorem ids_map {f : Record → Record} (h : ∀ r, (f r).id = r.id) (rs : List Record) :
    (rs.map f).map Record.id = rs.map Record.id := by
  simp [List.map_map, Function.comp_def, h]

/-- Every record changed in a way that keeps its id. -/
def mapRecords (l : Ledger) (f : Record → Record) (h : ∀ r, (f r).id = r.id) : Ledger :=
  ⟨l.records.map f, by rw [ids_map h]; exact l.nodup⟩

theorem nodup_append {l : Ledger} {new : Record} (h : l.contains new.id = false) :
    ((l.records ++ [new]).map Record.id).Nodup := by
  rw [List.map_append, List.nodup_append]
  refine ⟨l.nodup, by simp, ?_⟩
  intro a ha b hb
  simp only [List.map_cons, List.map_nil, List.mem_singleton] at hb
  obtain ⟨r, hr, rfl⟩ := List.mem_map.1 ha
  subst hb
  simp only [contains, List.any_eq_false, beq_iff_eq] at h
  exact h r hr

/-- The record put in: in place of the one with its id, or behind all others. -/
def put (l : Ledger) (new : Record) : Ledger :=
  if h : l.contains new.id = true then l.mapRecords new.replaceBy new.id_replaceBy
  else ⟨l.records ++ [new], nodup_append (by simpa using h)⟩

/-- The ledger without the record of an id. -/
def remove (l : Ledger) (id : String) : Ledger :=
  ⟨l.records.filter (·.id != id), (l.nodup.sublist ((List.filter_sublist).map _))⟩

/-- The leases on the records of some ids set. -/
def setLease (l : Ledger) (ids : List String) (lease : Option Lease) : Ledger :=
  l.mapRecords (·.withLease ids lease) fun r => r.id_withLease ids lease

/-! ### Operations -/

/-- A new negotiation put in, with no lease. -/
def create (l : Ledger) (n : Negotiation) : Except StoreError Ledger :=
  if l.contains n.id then .error (.duplicateId n.id) else .ok (l.put ⟨n, none⟩)

/-- Fails if somebody else's live lease is on the record of the id. -/
def checkLease (l : Ledger) (id holder : String) (now : Moment) : Except StoreError Unit :=
  match (l.record? id).bind (·.blocker? holder now) with
  | some other => .error (.alreadyLeased id other)
  | none => .ok ()

/-- The records of a state that nobody holds, in the order in which they are served. -/
def candidates (l : Ledger) (state : State) (now : Moment) : List Record :=
  (l.records.filter fun r => r.negotiation.state == state && r.isFree now).mergeSort Record.before

/-- The batch that a worker gets: the first candidates, as many as it asked for. -/
def batch (l : Ledger) (limit : Nat) (state : State) (now : Moment) : List Negotiation :=
  ((l.candidates state now).take limit).map (·.negotiation)

/-- The next batch of a state, and the ledger with the worker's lease on every member of it. -/
def leaseNext (l : Ledger) (limit : Nat) (state : State) (holder : String) (span now : Moment) :
    List Negotiation × Ledger :=
  let chosen := l.batch limit state now
  (chosen, l.setLease (chosen.map (·.id)) (some ⟨holder, now, span⟩))

/-- The negotiation stored as it is, with no lease. One that has no record gets one. -/
def save (l : Ledger) (n : Negotiation) (holder : String) (now : Moment) :
    Except StoreError Ledger :=
  (l.checkLease n.id holder now).map fun _ => l.put ⟨n, none⟩

/-- The lease on the record of an id ended. There need not be a lease, nor a record. -/
def release (l : Ledger) (id holder : String) (now : Moment) : Except StoreError Ledger :=
  (l.checkLease id holder now).map fun _ => l.setLease [id] none

/-- The record of an id taken out. -/
def delete (l : Ledger) (id holder : String) (now : Moment) : Except StoreError Ledger :=
  if l.contains id then (l.checkLease id holder now).map fun _ => l.remove id
  else .error (.notFound id)

/-- The negotiations of a state in the order in which they are served, whoever holds them. -/
def query (l : Ledger) (state : State) (limit : Nat) : List Negotiation :=
  (((l.records.filter (·.negotiation.state == state)).mergeSort Record.before).take limit).map
    (·.negotiation)

/-- The negotiation that the other side knows by an id. -/
def findByCorrelation? (l : Ledger) (id : String) : Option Negotiation :=
  (l.records.find? fun r => r.negotiation.correlationId == some id).map (·.negotiation)

end Ledger

end Parley
