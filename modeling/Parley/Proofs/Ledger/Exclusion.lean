import Parley.Proofs.Ledger.Calls
import Parley.Proofs.Negotiation.Moves

/-!
# A lease excludes everybody else

While a lease is live, the record under it belongs to the name that the lease was made in.

* `record?_answer_of_live` : one call leaves a record under a live lease as it is, and does not hand
  it out, unless a handle of the lease's own name gives it up.
* `record?_afterCalls_of_live` : so does every sequence of calls.
* `exclusive_while_leased` : what a call handed out stays with the name of the handle that it was
  handed to, whatever other handles do and however the clock moves, as long as the clock is not seen
  at the expiry or later.
* `namesake_breaks_exclusion` : it does not stay with the handle itself.  Leases are made in names,
  and another handle of the same name may give up what the first one holds.
-/

namespace Parley

namespace Ledger

variable {handles : ℕ → Handle} {l : Ledger} {id : String} {r : Record} {le : Lease}

theorem not_mem_batch_of_live {limit : ℕ} {state : State} {now : Moment}
    (hr : l.record? id = some r) (hl : r.lease = some le) (hlive : now < le.expiry) :
    id ∉ (l.batch limit state now).map (·.id) := by
  intro hid
  obtain ⟨n, hn, rfl⟩ := List.mem_map.1 hid
  obtain ⟨s, hs, -, -, hfree⟩ := mem_batch hn
  obtain rfl : r = s := by rw [hr] at hs; exact Option.some.inj hs
  rw [Record.isFree_eq_false hl hlive] at hfree
  cases hfree

/-- One call leaves a record under a live lease as it is and does not hand it out, unless it is made
in the lease's name and gives the record up. -/
theorem record?_answer_of_live (handles : ℕ → Handle) {c : Call} (hr : l.record? id = some r)
    (hl : r.lease = some le) (hlive : c.now < le.expiry)
    (hkept : (handles c.handle).holder = le.holder → c.request.givesUp id = false) :
    (l.answer handles c).2.record? id = some r ∧
      ∀ batch, (l.answer handles c).1 = .leased batch → id ∉ batch.map (·.id) := by
  by_cases hq : ∃ state limit, c.request = .next state limit
  · obtain ⟨state, limit, hq⟩ := hq
    have hid : id ∉ (l.batch limit state c.now).map (·.id) := not_mem_batch_of_live hr hl hlive
    unfold answer
    rw [hq]
    refine ⟨(serve_next_of_not_mem hid).trans hr, ?_⟩
    rintro batch ⟨rfl⟩
    exact hid
  · have hq' : ∀ state limit, c.request ≠ .next state limit := fun state limit h =>
      hq ⟨state, limit, h⟩
    refine ⟨serve_untouched hr hq' fun hg => ⟨le.holder, ?_⟩, fun batch hb => ?_⟩
    · refine Record.blocker?_eq_some hl (fun h => ?_) hlive
      rw [hkept h.symm] at hg
      cases hg
    · exact absurd (Request.eq_next_of_leased hb) hq

/-- **A run of calls leaves a record under a live lease as it is**, if no call made in the lease's
name gives the record up and every call sees the clock before the expiry. -/
theorem record?_afterCalls_of_live {cs : List Call} (hr : l.record? id = some r)
    (hl : r.lease = some le) (hlive : ∀ c ∈ cs, c.now < le.expiry)
    (hkept : ∀ c ∈ cs, (handles c.handle).holder = le.holder → c.request.givesUp id = false) :
    (l.afterCalls handles cs).record? id = some r := by
  induction cs generalizing l with
  | nil => exact hr
  | cons c cs ih =>
    have hc := record?_answer_of_live handles hr hl (hlive c (by simp)) (hkept c (by simp))
    exact ih hc.1 (fun d hd => hlive d (by simp [hd])) fun d hd => hkept d (by simp [hd])

theorem record?_of_leased {c : Call} {batch : List Negotiation} {n : Negotiation}
    (hb : (l.answer handles c).1 = .leased batch) (hn : n ∈ batch) :
    (l.answer handles c).2.record? n.id =
      some ⟨n, some ⟨(handles c.handle).holder, c.now, (handles c.handle).span⟩⟩ := by
  obtain ⟨state, limit, hq⟩ := Request.eq_next_of_leased hb
  unfold answer at hb ⊢
  rw [hq] at hb ⊢
  obtain rfl : l.batch limit state c.now = batch := by
    simpa [Request.serve, leaseNext] using hb
  exact record?_leaseNext_of_mem hn

/-- **A lease excludes all other names.**  What a call handed out stays with the name in which it
was leased: as long as no handle of that name gives it up and no call sees the clock at the expiry
or later, no call of another name changes its record, neither the negotiation nor the lease, and
no call at all is handed it again. -/
theorem exclusive_while_leased (handles : ℕ → Handle) (l : Ledger) {c : Call}
    {batch : List Negotiation} {n : Negotiation} (hb : (l.answer handles c).1 = .leased batch)
    (hn : n ∈ batch) (cs : List Call) (d : Call)
    (hkept : ∀ e ∈ cs, (handles e.handle).holder = (handles c.handle).holder →
      e.request.givesUp n.id = false)
    (hclock : ∀ e ∈ cs ++ [d], e.now < c.now.later (handles c.handle).span) :
    let after := (l.answer handles c).2.afterCalls handles cs
    ((handles d.handle).holder ≠ (handles c.handle).holder →
      (after.answer handles d).2.record? n.id = after.record? n.id) ∧
    ∀ batch', (after.answer handles d).1 = .leased batch' → n.id ∉ batch'.map (·.id) := by
  intro after
  have hr : after.record? n.id =
      some ⟨n, some ⟨(handles c.handle).holder, c.now, (handles c.handle).span⟩⟩ :=
    record?_afterCalls_of_live (record?_of_leased hb hn) rfl
      (fun e he => hclock e (by simp [he])) hkept
  have hd := record?_answer_of_live handles (c := d) hr rfl (hclock d (by simp))
  constructor
  · intro hne
    exact (hd fun h => absurd h hne).1.trans hr.symm
  · intro batch' hb'
    obtain ⟨state, limit, hq⟩ := Request.eq_next_of_leased hb'
    exact (hd fun _ => by rw [hq]; rfl).2 batch' hb'

/-- The ledger with one offer in it that waits to be sent. -/
def specimen : Ledger := empty.put ⟨.specimen, none⟩

/-- Two handles that lease in one name, and a third one that leases in another. -/
def namesakes : ℕ → Handle
  | 0 | 1 => ⟨"worker-a", 60000, []⟩
  | _ => ⟨"worker-b", 60000, []⟩

/-- An offer is leased; another worker tries to store it, to release it and to lease it. -/
theorem exclusive_while_leased_specimen :
    let c : Call := ⟨0, 5000, .next .offering 5⟩
    let cs : List Call := [⟨2, 6000, .save .specimen⟩, ⟨2, 4000, .release "negotiation-1"⟩]
    let d : Call := ⟨2, 64999, .next .offering 5⟩
    let after := (specimen.answer namesakes c).2.afterCalls namesakes cs
    (specimen.answer namesakes c).1 = .leased [.specimen] ∧
    ((namesakes d.handle).holder ≠ (namesakes c.handle).holder →
      (after.answer namesakes d).2.record? "negotiation-1" = after.record? "negotiation-1") ∧
    ∀ batch', (after.answer namesakes d).1 = .leased batch' →
      "negotiation-1" ∉ batch'.map (·.id) := by
  intro c cs d
  have hb : (specimen.answer namesakes c).1 = .leased [.specimen] := by decide +kernel
  exact ⟨hb, exclusive_while_leased namesakes specimen hb (List.mem_singleton_self _) cs d
    (by decide) (by decide)⟩

/-- **A lease does not belong to one handle.**  It is not enough that the handle itself keeps what
it was handed: another handle of its name releases the record, and a third one is handed it. -/
theorem namesake_breaks_exclusion :
    ¬ ∀ (handles : ℕ → Handle) (l : Ledger) (c : Call) (batch : List Negotiation)
      (n : Negotiation), (l.answer handles c).1 = .leased batch → n ∈ batch →
      ∀ (cs : List Call) (d : Call),
        (∀ e ∈ cs, e.handle = c.handle → e.request.givesUp n.id = false) →
        (∀ e ∈ cs ++ [d], e.now < c.now.later (handles c.handle).span) →
        let after := (l.answer handles c).2.afterCalls handles cs
        ((handles d.handle).holder ≠ (handles c.handle).holder →
          (after.answer handles d).2.record? n.id = after.record? n.id) ∧
        ∀ batch', (after.answer handles d).1 = .leased batch' → n.id ∉ batch'.map (·.id) := by
  intro h
  have hd := (h namesakes specimen ⟨0, 5000, .next .offering 5⟩ [.specimen] .specimen
    (by decide +kernel) (List.mem_singleton_self _) [⟨1, 5000, .release "negotiation-1"⟩]
    ⟨2, 5000, .next .offering 5⟩ (by decide) (by decide)).2 [.specimen] (by decide +kernel)
  exact hd (by decide)

end Ledger

end Parley
