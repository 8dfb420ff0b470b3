import Parley.Proofs.Ledger.Records

/-!
# Calls of a shared ledger

Any number of handles work on one ledger.  A call is a request made through one of them, together
with the moment that the clock shows to it; the moments of successive calls are arbitrary.

* `Request.serve` carries a request out: the reply and the ledger afterwards.
* `Ledger.afterCalls` is the ledger after a sequence of calls, in the order in which they get hold
  of the records.
* `serve_untouched`, `serve_next_of_not_mem` : when a request leaves the record of an id alone.
-/

namespace Parley

/-- What a handle can ask of a ledger. -/
inductive Request where
  /-- To put a new negotiation in. -/
  | create (negotiation : Negotiation)
  /-- To look a negotiation up by its id. -/
  | find (id : String)
  /-- To look a negotiation up by the id the other side uses. -/
  | findByCorrelation (id : String)
  /-- To lease a batch. -/
  | next (state : State) (limit : ℕ)
  /-- To store a negotiation. -/
  | save (negotiation : Negotiation)
  /-- To end the lease on a negotiation. -/
  | release (id : String)
  /-- To take a negotiation out. -/
  | delete (id : String)
  /-- To list the negotiations of a state. -/
  | query (state : State) (limit : ℕ)
  deriving DecidableEq, Repr

/-- What a handle is told. -/
inductive Reply where
  /-- The request was carried out. -/
  | done
  /-- What was looked up. -/
  | found (negotiation : Option Negotiation)
  /-- What was handed out, leased to the handle. -/
  | leased (batch : List Negotiation)
  /-- What was listed. -/
  | listed (negotiations : List Negotiation)
  /-- The request failed. -/
  | failed (error : StoreError)
  deriving DecidableEq, Repr

/-- The reply to a change of the ledger; one that fails leaves the ledger as it was. -/
def Reply.ofChange (l : Ledger) : Except StoreError Ledger → Reply × Ledger
  | .ok l' => (.done, l')
  | .error e => (.failed e, l)

namespace Request

/-- A request carried out for a handle at a moment: the reply, and the ledger afterwards. -/
def serve (h : Handle) (now : Moment) (l : Ledger) : Request → Reply × Ledger
  | create n => Reply.ofChange l (l.create n)
  | find id => (.found (l.find? id), l)
  | findByCorrelation id => (.found (l.findByCorrelation? id), l)
  | next state limit =>
    let (batch, l') := l.leaseNext limit state h.holder h.span now
    (.leased batch, l')
  | save n => Reply.ofChange l (l.save n h.holder now)
  | release id => Reply.ofChange l (l.release id h.holder now)
  | delete id => Reply.ofChange l (l.delete id h.holder now)
  | query state limit => (.listed (l.query state limit), l)

/-- The request gives an id up: it saves, deletes or releases it. -/
def givesUp (id : String) : Request → Bool
  | save n => n.id == id
  | release i => i == id
  | delete i => i == id
  | _ => false

end Request

/-- A request made through one of the handles, and what the clock showed to it. -/
structure Call where
  /-- The handle. -/
  handle : ℕ
  /-- What the clock showed. -/
  now : Moment
  /-- The request. -/
  request : Request
  deriving DecidableEq, Repr

namespace Ledger

variable (handles : ℕ → Handle)

/-- The reply to a call, and the ledger afterwards. -/
def answer (l : Ledger) (c : Call) : Reply × Ledger :=
  c.request.serve (handles c.handle) c.now l

/-- The ledger after some calls. -/
def afterCalls (l : Ledger) (cs : List Call) : Ledger :=
  cs.foldl (fun l c => (l.answer handles c).2) l

variable {handles}

@[simp] theorem afterCalls_nil (l : Ledger) : l.afterCalls handles [] = l := rfl

@[simp] theorem afterCalls_cons (l : Ledger) (c : Call) (cs : List Call) :
    l.afterCalls handles (c :: cs) = (l.answer handles c).2.afterCalls handles cs := rfl

end Ledger

/-! ### What a request does to one record -/

section

variable {h : Handle} {now : Moment} {l : Ledger} {q : Request} {id : String} {r : Record}

/-- A change that is made only if nobody blocks the record of `i`, and that concerns no other id,
leaves the record of `id` alone if it is about another id or blocked. -/
theorem record?_ofChange {i holder : String} {l' : Ledger} (hr : l.record? id = some r)
    (hother : i ≠ id → l'.record? id = l.record? id)
    (hblocked : i = id → ∃ other, r.blocker? holder now = some other) :
    (Reply.ofChange l ((l.checkLease i holder now).map fun _ => l')).2.record? id = some r := by
  rcases l.checkLease_cases i holder now with ⟨hok, hnb⟩ | ⟨s, other, -, -, he⟩
  · have hne : i ≠ id := by
      rintro rfl
      obtain ⟨other, ho⟩ := hblocked rfl
      rw [hnb r hr] at ho
      cases ho
    rw [hok]
    exact (hother hne).trans hr
  · rw [he]
    exact hr

/-- A request that hands nothing out leaves a record alone, unless it gives the record's id up and
finds it not blocked. -/
theorem serve_untouched (hr : l.record? id = some r) (hq : ∀ state limit, q ≠ .next state limit)
    (hblocked : q.givesUp id = true → ∃ other, r.blocker? h.holder now = some other) :
    (q.serve h now l).2.record? id = some r := by
  cases q with
  | find i => exact hr
  | findByCorrelation i => exact hr
  | query state limit => exact hr
  | next state limit => exact absurd rfl (hq state limit)
  | create n =>
    by_cases hc : l.contains n.id = true
    · rwa [Request.serve, Ledger.create, if_pos hc]
    · have hne : n.id ≠ id := by
        rintro rfl
        exact hc (Ledger.contains_eq_true_iff.2 ⟨r, hr⟩)
      rw [Request.serve, Ledger.create, if_neg hc]
      show (l.put ⟨n, none⟩).record? id = some r
      rw [Ledger.record?_put, if_neg (show Record.id ⟨n, none⟩ ≠ id from hne), hr]
  | save n =>
    refine record?_ofChange hr (fun hne => ?_) fun he => hblocked (by simp [Request.givesUp, he])
    rw [Ledger.record?_put, if_neg (show Record.id ⟨n, none⟩ ≠ id from hne)]
  | release i =>
    refine record?_ofChange hr (fun hne => ?_) fun he => hblocked (by simp [Request.givesUp, he])
    exact Ledger.record?_setLease_of_not_mem (by simpa using Ne.symm hne)
  | delete i =>
    by_cases hc : l.contains i = true
    · rw [Request.serve, Ledger.delete, if_pos hc]
      refine record?_ofChange hr (fun hne => ?_) fun he => hblocked (by simp [Request.givesUp, he])
      rw [Ledger.record?_remove, if_neg hne]
    · rwa [Request.serve, Ledger.delete, if_neg hc]

theorem Request.eq_next_of_leased {batch : List Negotiation}
    (hb : (q.serve h now l).1 = .leased batch) : ∃ state limit, q = .next state limit := by
  have hne (x : Except StoreError Ledger) : (Reply.ofChange l x).1 ≠ .leased batch := by
    cases x <;> simp [Reply.ofChange]
  cases q with
  | next state limit => exact ⟨state, limit, rfl⟩
  | create n => exact absurd hb (hne _)
  | save n => exact absurd hb (hne _)
  | release i => exact absurd hb (hne _)
  | delete i => exact absurd hb (hne _)
  | find i => cases hb
  | findByCorrelation i => cases hb
  | query state limit => cases hb

theorem serve_next_of_not_mem {state : State} {limit : ℕ}
    (hid : id ∉ (l.batch limit state now).map (·.id)) :
    ((Request.next state limit).serve h now l).2.record? id = l.record? id :=
  Ledger.record?_leaseNext_of_not_mem hid

end

end Parley
