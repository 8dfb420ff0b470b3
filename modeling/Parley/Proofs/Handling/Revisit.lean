import Parley.Proofs.Handling.Duty
import Parley.Proofs.Handling.Run
import Parley.Proofs.Ledger.Exclusion
import Parley.Proofs.Negotiation.Visits

/-!
# Answers to an earlier visit

A message is sent about a negotiation, and while it is on its way others take the negotiation out of
its state and later back into it.  The worker looks again before it writes, but all that it compares
is the state.

* `snd_run_of_same_state` : whenever the stored negotiation is in the state of the copy, what the
  answer makes of the stored one is stored.
* `later_visit_kept_iff` : so the answer to an earlier visit is kept away from a later one only by
  somebody else's live lease; this can happen where offers are sent, and nowhere else.
* `answer_reaches_later_visit` : the answer to one offer is recorded on the next one.

The proof: between the answer and the writing the worker reads the record once more, and from then
on only the state, the count and the answer decide what it makes of it.  What it makes is never what
is there, since an entry of a state counts, so to keep the record as it is the writing itself must
be refused.
-/

namespace Parley

namespace Duty

variable {σ : Type} {v : Venue σ} {holder : String} {span : Moment} {side : Side} {d : Duty}
  {n : Negotiation} {s : σ} (ctx : Context) (messageId : String) (now : Moment)

/-- Where the state is the same still, or again, the worker tries to store what the answer makes of
the negotiation that is there by then. -/
theorem snd_run_of_same_state (hv : v.Serves holder span) (hd : of? side n.state = some d)
    {m : Message} (hm : (d.begin ctx messageId now n).outgoing? = some m) {r : Record}
    (hr : (v.desk ((d.begin ctx messageId now n).arrival v s)).ledger.record? n.id = some r)
    (hstate : r.negotiation.state = n.state) :
    let w := v.glance ((d.begin ctx messageId now n).arrival v s)
    ∃ changed : Negotiation, changed.id = n.id ∧ changed ≠ r.negotiation ∧
      changed.state = d.after n.state
        (Attempt.route ctx.policy r.negotiation.stateCount (v.dispatch m s).1) ∧
      ((d.begin ctx messageId now n).run v s).2 = v.setDesk ((v.desk w).save changed).2 w := by
  obtain ⟨p, hp, rfl, hbegin⟩ := begin_of_outgoing hd hm
  rw [hbegin] at hr ⊢
  intro w
  obtain ⟨changed, hsettle, hid, hafter, hcount⟩ :=
    exists_settle_of_state_eq hd hp hstate ctx.policy (v.now w) (v.dispatch p.message s).1
  refine ⟨changed, hid.trans (Ledger.id_of_record? hr), ?_, hafter, ?_⟩
  · -- either the state is another one, or it was entered once more
    rintro rfl
    rw [if_pos rfl] at hcount
    exact absurd hcount (by simp)
  · have hfind : (v.desk (v.dispatch p.message s).2).find n.id =
        (.ok (some r.negotiation), v.desk (v.dispatch p.message s).2) := by
      have hr : (v.desk (v.dispatch p.message s).2).ledger.record? n.id = some r := hr
      rw [Desk.find_eq (by rw [hv.handle_desk]), Ledger.find?, hr]
      rfl
    rw [Handling.run_sending, Handling.snd_run_answered_of_same hfind hstate]
    exact Handling.snd_run_found hsettle

theorem requesting_or_offering {st : State} (hd : of? side st = some d) (hs : d.sends = true)
    (hh : st.haggles = true) : st = .requesting ∨ st = .offering := by
  cases side <;> cases st <;> first
    | exact .inl rfl
    | exact .inr rfl
    | exact absurd hh (by decide)
    | (cases hd <;> cases hs)

/-- **A later visit is not told from the one that the message was about.**  While a message is on
its way others change the negotiation, out of its state and later back into it.  Then every record
stays as the others left it iff somebody else's live lease keeps the worker out when it comes to
write; the state is one of the two in which an offer is sent. -/
theorem later_visit_kept_iff (hv : v.Serves holder span) (hd : of? side n.state = some d)
    {m : Message} (hm : (d.begin ctx messageId now n).outgoing? = some m) {r : Record}
    (hr : (v.desk ((d.begin ctx messageId now n).arrival v s)).ledger.record? n.id = some r)
    (hvisit : n.Revisits r.negotiation) :
    (n.state = .requesting ∨ n.state = .offering) ∧
    ((∀ id, (v.desk ((d.begin ctx messageId now n).run v s).2).ledger.record? id =
        (v.desk ((d.begin ctx messageId now n).arrival v s)).ledger.record? id) ↔
      ∃ other, r.blocker? holder
        (v.desk (v.glance ((d.begin ctx messageId now n).arrival v s))).now = some other) := by
  constructor
  · obtain ⟨p, hp, -, -⟩ := begin_of_outgoing hd hm
    exact requesting_or_offering hd (sends_of_plan hp).1 (Negotiation.haggles_of_revisits hvisit)
  obtain ⟨changed, hid, hne, -, hrun⟩ := snd_run_of_same_state ctx messageId now hv hd hm hr
    hvisit.1
  set w := v.glance ((d.begin ctx messageId now n).arrival v s) with hw
  -- looking again leaves the ledger alone
  have hledger : (v.desk w).ledger =
      (v.desk ((d.begin ctx messageId now n).arrival v s)).ledger := hv.ledger_setDesk ..
  have hhandle : (v.desk w).handle = ⟨holder, span, []⟩ := hv.handle_desk w
  rw [hrun, hv.ledger_setDesk]
  have hr' : (v.desk w).ledger.record? changed.id = some r := by rw [hledger, hid, hr]
  rcases Desk.save_cases (d := v.desk w) (by rw [hhandle]) changed with
    ⟨hsave, hfree⟩ | ⟨r', other, hr'', hb, hsave⟩
  · -- nobody keeps the worker out, and what it stores is not what was there
    have hnone := hfree r hr'
    rw [hhandle] at hnone
    rw [hsave]
    refine iff_of_false (fun hsame => ?_) (by rw [hnone]; rintro ⟨other, ⟨⟩⟩)
    have hsame := hsame n.id
    rw [hr, Ledger.record?_put, if_pos (show Record.id ⟨changed, none⟩ = n.id from hid)] at hsame
    exact hne (congrArg Record.negotiation (Option.some.inj hsame))
  · obtain rfl : r = r' := by rw [hr'] at hr''; exact Option.some.inj hr''
    rw [hhandle] at hb
    rw [hsave, hledger]
    exact iff_of_true (fun _ => rfl) ⟨other, hb⟩

/-! ### An offer that is overtaken by the next one -/

/-- The venue of a worker that meets with a chance, where others call the ledger while a message is
on its way. -/
def amid (c : Chance) (holder : String) (span : Moment) (handles : ℕ → Handle)
    (calls : List Call) : Venue Ledger :=
  { c.venue holder span with dispatch := fun _ l => (c.answer, l.afterCalls handles calls) }

theorem serves_amid (c : Chance) (holder : String) (span : Moment) (handles : ℕ → Handle)
    (calls : List Call) : (amid c holder span handles calls).Serves holder span :=
  ⟨fun _ => rfl, fun _ _ => rfl⟩

/-- The ledger whose offer is leased for one second, which is less than the message takes. -/
def leasedOffer : Ledger := (Ledger.specimen.leaseNext 5 .offering "worker" 1000 2000).2

/-- Another worker. -/
def otherHandles : ℕ → Handle := fun _ => ⟨"other", 60000, []⟩

/-- The offer was taken, as the other worker has it. -/
def offerTaken : Negotiation :=
  { Negotiation.specimen with state := .offered, stateSince := 4000, updatedAt := 4000 }

/-- The consumer answered with another request. -/
def requestAgain : Negotiation := { offerTaken with state := .requested }

/-- The provider makes another offer. -/
def offerAgain : Negotiation :=
  { requestAgain with
    state := .offering
    offers := requestAgain.offers ++ [⟨"definition:asset:5678", "asset", default⟩] }

/-- What the other worker does. -/
def otherCalls : List Call :=
  [⟨0, 4000, .save offerTaken⟩, ⟨0, 4000, .save requestAgain⟩, ⟨0, 4000, .save offerAgain⟩]

/-- The first offer turns out to have been taken. -/
def takenChance : Chance := ⟨7000, 7000, "message-1", .ok (.succeeded default)⟩

theorem revisits_offerAgain : Negotiation.specimen.Revisits offerAgain := by
  have htaken : Negotiation.specimen.ChangesTo offerTaken := ⟨.move .offered, 4000, rfl⟩
  have hagain : offerTaken.ChangesTo requestAgain := ⟨.move .requested, 4000, rfl⟩
  have hoffer : requestAgain.ChangesTo
      (requestAgain.addOffer ⟨"definition:asset:5678", "asset", default⟩) :=
    ⟨.addOffer _, 4000, rfl⟩
  have hmove : (requestAgain.addOffer ⟨"definition:asset:5678", "asset", default⟩).ChangesTo
      offerAgain := ⟨.move .offering, 4000, rfl⟩
  exact ⟨rfl, offerTaken, by decide, .single htaken, ((Relation.ReflTransGen.single hagain).tail
    hoffer).tail hmove⟩

theorem record?_otherCalls :
    (leasedOffer.afterCalls otherHandles otherCalls).record? "negotiation-1" =
      some ⟨offerAgain, none⟩ := by decide +kernel

theorem later_visit_kept_iff_offer_again :
    let v := amid takenChance "worker" 1000 otherHandles otherCalls
    let run := ((sendOffer.begin default "message-1" 2000 .specimen).run v leasedOffer).2
    (∃ m, (sendOffer.begin default "message-1" 2000 .specimen).outgoing? = some m) ∧
    Negotiation.specimen.Revisits offerAgain ∧
    ((∀ id, run.record? id = (leasedOffer.afterCalls otherHandles otherCalls).record? id) ↔
      ∃ other, (Record.mk offerAgain none).blocker? "worker" 7000 = some other) := by
  intro v run
  obtain ⟨m, hm⟩ : ∃ m,
      (sendOffer.begin default "message-1" 2000 Negotiation.specimen).outgoing? = some m :=
    ⟨_, rfl⟩
  have harrival : (sendOffer.begin default "message-1" 2000 Negotiation.specimen).arrival v
      leasedOffer = leasedOffer.afterCalls otherHandles otherCalls := by
    unfold Handling.arrival
    rw [hm]
    rfl
  have hkept := (later_visit_kept_iff default "message-1" 2000 (v := v) (s := leasedOffer)
    (serves_amid takenChance "worker" 1000 otherHandles otherCalls)
    (show of? .provider Negotiation.specimen.state = some sendOffer from rfl) hm
    (by rw [harrival]; exact record?_otherCalls) revisits_offerAgain).2
  rw [harrival] at hkept
  exact ⟨⟨m, hm⟩, revisits_offerAgain, hkept⟩

/-- **The answer to one offer is recorded on the next one.**  The lease runs out while the first
offer is on its way, the offer is answered by a request, and a second offer waits to be sent; then
the worker finds that the negotiation waits with an offer, and stores that the offer was taken. -/
theorem answer_reaches_later_visit :
    ¬ ∀ (c : Chance) (handles : ℕ → Handle) (calls : List Call) (ctx : Context) (span : Moment)
      (side : Side) (d : Duty) (n : Negotiation) (l : Ledger) (m : Message) (r : Record),
      (∀ i, (handles i).holder ≠ "worker") → l.find? n.id = some n →
      of? side n.state = some d → (d.begin ctx c.messageId c.clock n).outgoing? = some m →
      (l.afterCalls handles calls).record? n.id = some r → n.Revisits r.negotiation →
      ∀ id, ((d.begin ctx c.messageId c.clock n).run (amid c "worker" span handles calls) l).2.find?
        id = (l.afterCalls handles calls).find? id := by
  intro h
  have hsame := h takenChance otherHandles otherCalls default 1000 .provider sendOffer .specimen
    leasedOffer _ ⟨offerAgain, none⟩ (fun _ => show "other" ≠ "worker" by decide) (by decide +kernel)
    rfl rfl
    record?_otherCalls revisits_offerAgain "negotiation-1"
  revert hsame
  decide +kernel

end Duty

end Parley
