import Parley.Proofs.Ledger.Records

/-!
# Desks that work

What the operations at a desk do when none of them is told to fail: each is the operation of the
ledger, made in the name of the desk's handle at the moment its clock shows, and one that fails
leaves the desk as it was.

* `find_eq`, `next_eq`, `save_eq_ok`, `release_eq_ok` : the operations that go through.
* `save_cases`, `release_cases` : the other way is that somebody else holds the record.
-/

namespace Parley

theorem Handle.afterCall_of_outages {h : Handle} (ho : h.outages = []) (op : Operation) :
    h.afterCall op = h := by
  cases h; cases ho; rfl

namespace Desk

variable {d : Desk}

theorem call_eq {α : Type} (ho : d.handle.outages = []) (op : Operation)
    (work : Ledger → Except StoreError (α × Ledger)) :
    d.call op work =
      match work d.ledger with
      | .ok (a, ledger) => (.ok a, { d with ledger })
      | .error e => (.error e, d) := by
  have hout : d.handle.outage? op = none := by simp [Handle.outage?, ho]
  cases hw : work d.ledger with
  | ok x => simp [call, hout, Handle.afterCall_of_outages ho, hw]
  | error e => simp [call, hout, Handle.afterCall_of_outages ho, hw]

variable (ho : d.handle.outages = [])
include ho

theorem find_eq (id : String) : d.find id = (.ok (d.ledger.find? id), d) := by
  rw [find, call_eq ho]

theorem next_eq (limit : ℕ) (state : State) :
    d.next limit state =
      (.ok (d.ledger.leaseNext limit state d.handle.holder d.handle.span d.now).1,
        { d with
          ledger := (d.ledger.leaseNext limit state d.handle.holder d.handle.span d.now).2 }) := by
  rw [next, call_eq ho]

theorem save_eq_ok {n : Negotiation}
    (h : ∀ r, d.ledger.record? n.id = some r → r.blocker? d.handle.holder d.now = none) :
    d.save n = (.ok (), { d with ledger := d.ledger.put ⟨n, none⟩ }) := by
  rw [save, call_eq ho, Ledger.save_eq_ok h]
  rfl

theorem release_eq_ok {id : String}
    (h : ∀ r, d.ledger.record? id = some r → r.blocker? d.handle.holder d.now = none) :
    d.release id = (.ok (), { d with ledger := d.ledger.setLease [id] none }) := by
  rw [release, call_eq ho, Ledger.release_eq_ok h]
  rfl

/-- Storing goes through unless somebody else's live lease forbids it, and then changes nothing. -/
theorem save_cases (n : Negotiation) :
    (d.save n = (.ok (), { d with ledger := d.ledger.put ⟨n, none⟩ }) ∧
      ∀ r, d.ledger.record? n.id = some r → r.blocker? d.handle.holder d.now = none) ∨
    ∃ r other, d.ledger.record? n.id = some r ∧ r.blocker? d.handle.holder d.now = some other ∧
      d.save n = (.error (.alreadyLeased n.id other), d) := by
  rcases d.ledger.checkLease_cases n.id d.handle.holder d.now with
    ⟨-, hok⟩ | ⟨r, other, hr, hb, he⟩
  · exact .inl ⟨save_eq_ok ho hok, hok⟩
  · refine .inr ⟨r, other, hr, hb, ?_⟩
    rw [save, call_eq ho, Ledger.save, he]
    rfl

/-- A release goes through, or somebody else's live lease forbids it and it changes nothing. -/
theorem release_cases (id : String) :
    (d.release id = (.ok (), { d with ledger := d.ledger.setLease [id] none }) ∧
      ∀ r, d.ledger.record? id = some r → r.blocker? d.handle.holder d.now = none) ∨
    ∃ e, d.release id = (.error e, d) := by
  rcases d.ledger.checkLease_cases id d.handle.holder d.now with ⟨-, hok⟩ | ⟨r, other, -, -, he⟩
  · exact .inl ⟨release_eq_ok ho hok, hok⟩
  · refine .inr ⟨.alreadyLeased id other, ?_⟩
    rw [release, call_eq ho, Ledger.release, he]
    rfl

theorem find?_release (id i : String) : (d.release id).2.ledger.find? i = d.ledger.find? i := by
  rcases release_cases ho id with ⟨h, -⟩ | ⟨e, h⟩
  · rw [h]; exact Ledger.find?_setLease
  · rw [h]

end Desk

end Parley
