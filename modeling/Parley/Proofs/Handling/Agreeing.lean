import Parley.Proofs.Handling.Table
import Parley.Proofs.Naming.ContractId

/-!
# Agreeing

What becomes of a negotiation that the provider is to agree to: nothing, if its last offer names no
contract, and else a message with an agreement, which is stored when the message was taken.

* `Negotiation.Misnamed`, `Negotiation.Flawed` : what can stand in the way; `lacks_iff` : nothing
  else can.
* `Negotiation.Terms` : the agreement that is there, else the one that is made of the last offer;
  `Terms.unique` : it is settled.
* `Duty.Agreeing` : what is planned where nothing stands in the way.
* `Venue.Agrees` : what the handler has to come to; `agrees_of_misnamed`, `agrees_of_flawed`,
  `agrees_of_early`, `agrees_of_due` : the ways it goes.
* `agrees_as_offered` : for any negotiation and any answer, while the record stays the same.
* `agreed_in_vain` : the record stays as it was, though the message was taken, if by then it is
  leased by somebody else.
-/

namespace Parley

namespace Negotiation

variable {ctx : Context} {clock : Moment} {n : Negotiation}

/-- There is no agreement, and the id of the last offer is no contract id to derive one's id from. -/
def Misnamed (n : Negotiation) : Prop :=
  n.agreement = none ∧
    ∃ o, n.offers.getLast? = some o ∧ ¬∃ c : ContractId, c.Proper ∧ c.text = o.id

/-- The header of the message cannot be made, or the agreement cannot, whatever the id of the offer.
-/
inductive Flawed (ctx : Context) (clock : Moment) (n : Negotiation) : Prop where
  | protocol (h : n.protocol = "")
  | address (h : n.counterPartyAddress = "")
  | processId (h : n.correlationId.getD n.id = "")
  | offer (hnone : n.agreement = none) (h : n.offers = [])
  | terms {o : Offer} (hnone : n.agreement = none) (ho : n.offers.getLast? = some o)
      (h : ctx.participantId = "" ∨ n.counterPartyId = "" ∨ o.assetId = "" ∨ clock.seconds = 0)

/-- The agreement that is sent: the one that is there, whatever was offered, and else one about the
last offer, under the id that is derived from the offer's, and signed at the moment `clock`. -/
inductive Terms (ctx : Context) (clock : Moment) (n : Negotiation) : Agreement → Prop where
  | standing {a : Agreement} (ha : n.agreement = some a) : Terms ctx clock n a
  | made {o : Offer} {c : ContractId} (hnone : n.agreement = none)
      (ho : n.offers.getLast? = some o) (hc : c.Proper) (hid : c.text = o.id) :
      Terms ctx clock n ⟨c.derive.text, ctx.participantId, n.counterPartyId, clock.seconds,
        o.assetId, o.policy⟩

theorem Terms.unique {a b : Agreement} (ha : n.Terms ctx clock a) (hb : n.Terms ctx clock b) :
    a = b := by
  cases ha with
  | standing hsome =>
    cases hb with
    | standing hsome' => exact Option.some.inj (hsome.symm.trans hsome')
    | made hnone => cases hsome.symm.trans hnone
  | made hnone ho hc hid =>
    cases hb with
    | standing hsome => cases hsome.symm.trans hnone
    | made _ ho' hc' hid' =>
      obtain rfl := Option.some.inj (ho.symm.trans ho')
      have hparse := ContractId.parse_eq_ok_iff.2 ⟨hc, hid⟩
      have hparse' := ContractId.parse_eq_ok_iff.2 ⟨hc', hid'⟩
      obtain rfl := Except.ok.inj (hparse.symm.trans hparse')
      rfl

theorem parse_error_iff {id : String} :
    (∃ e, ContractId.parse id = .error e) ↔ ¬∃ c : ContractId, c.Proper ∧ c.text = id := by
  simp only [← ContractId.parse_eq_ok_iff]
  cases ContractId.parse id <;> simp

/-- **What can stand in the way of agreeing.** -/
theorem lacks_iff (hstate : n.state = .agreeing) :
    n.Lacks ctx clock ↔ n.Misnamed ∨ n.Flawed ctx clock := by
  constructor
  · rintro (h | h | h | ⟨h, hs⟩ | ⟨-, hs⟩ | ⟨ho, h, -, hnone⟩ | ⟨ho, h, -, hnone⟩)
    · exact .inr (.protocol h)
    · exact .inr (.address h)
    · exact .inr (.processId h)
    · simp only [hstate, reduceCtorEq, false_or, true_and] at hs
      exact .inr (.offer hs h)
    · rw [hstate] at hs
      cases hs
    · exact .inl ⟨hnone, _, ho, parse_error_iff.1 ⟨_, h⟩⟩
    · exact .inr (.terms hnone ho h)
  · rintro (⟨hnone, o, ho, hid⟩ | h | h | h | ⟨hnone, h⟩ | ⟨hnone, ho, h⟩)
    · obtain ⟨e, he⟩ := parse_error_iff.2 hid
      exact .offerId ho he hstate hnone
    · exact .protocol h
    · exact .address h
    · exact .processId h
    · exact .offer h (.inr (.inr ⟨hstate, hnone⟩))
    · exact .terms ho h hstate hnone

end Negotiation

/-! ### How the handling begins -/

namespace Duty

variable {ctx : Context} {messageId : String} {clock : Moment} {n : Negotiation} {s : Sending}

/-- Only an offer whose id is no contract id is passed over. -/
theorem agreementOf_eq_none_iff : agreementOf ctx clock n = .ok none ↔ n.Misnamed := by
  cases hagreement : n.agreement with
  | some a => simp [agreementOf, Negotiation.Misnamed, hagreement]
  | none =>
    cases ho : n.offers.getLast? with
    | none => simp [agreementOf, makeAgreement, Negotiation.lastOffer?, Negotiation.Misnamed,
        hagreement, ho]
    | some o =>
      simp only [agreementOf, makeAgreement, Negotiation.lastOffer?, Negotiation.Misnamed,
        hagreement, ho, true_and, Option.some.injEq, exists_eq_left']
      rw [← Negotiation.parse_error_iff]
      cases ContractId.parse o.id with
      | error e => exact iff_of_true rfl ⟨e, rfl⟩
      | ok c =>
        refine iff_of_false ?_ (by rintro ⟨e, he⟩; cases he)
        simp only
        split <;> simp

theorem begin_of_misnamed (h : n.Misnamed) :
    sendAgreement.begin ctx messageId clock n = .finished (.outcome .notProcessed) := by
  simp only [Duty.begin, plan, agreementOf_eq_none_iff.2 h]
  rfl

theorem begin_of_not_misnamed (h : ¬n.Misnamed)
    (hp : ∀ s, sendAgreement.plan ctx messageId clock n ≠ .send s) :
    ∃ e, sendAgreement.begin ctx messageId clock n = .finished (.failed e) := by
  simp only [plan] at hp
  simp only [Duty.begin, plan]
  rcases ha : agreementOf ctx clock n with e | (_ | a)
  · exact ⟨e, rfl⟩
  · exact absurd (agreementOf_eq_none_iff.1 ha) h
  · simp only [ha, sendWith] at hp ⊢
    cases hh : n.header messageId with
    | error e => exact ⟨_, rfl⟩
    | ok head =>
      simp only [hh] at hp
      exact absurd rfl (hp _)

/-- What is planned is to agree: to send the agreement `a` in a message with the header `head`, and
to record it when the message was taken. -/
structure Agreeing (ctx : Context) (messageId : String) (clock : Moment) (n : Negotiation)
    (s : Sending) (head : Header) (a : Agreement) : Prop where
  plan_eq : sendAgreement.plan ctx messageId clock n = .send s
  id_eq : head.id = messageId
  addresses : n.Addresses head
  terms : n.Terms ctx clock a
  message_eq : s.message = .agreement head a
  success_eq : s.success = .agreed
  agreement_eq : s.agreement = some a

theorem of?_of_agreeing (hstate : n.state = .agreeing) :
    of? .provider n.state = some sendAgreement := by
  rw [hstate]
  rfl

theorem agreeing_of_plan (hstate : n.state = .agreeing)
    (hp : sendAgreement.plan ctx messageId clock n = .send s) :
    ∃ head a, Agreeing ctx messageId clock n s head a := by
  obtain ⟨head, hid, haddr, hasks⟩ := asked_of_plan (of?_of_agreeing hstate) hp
  rw [hstate] at hasks
  generalize hm : s.message = m, hs : s.success = success, ha? : s.agreement = a? at hasks
  cases hasks with
  | agreeing ha => exact ⟨head, _, hp, hid, haddr, .standing ha, hm, hs, ha?⟩
  | making hnone ho hc =>
    obtain ⟨hproper, htext⟩ := ContractId.parse_eq_ok_iff.1 hc
    exact ⟨head, _, hp, hid, haddr, .made hnone ho hproper htext, hm, hs, ha?⟩

theorem exists_agreeing (hstate : n.state = .agreeing) (hmis : ¬n.Misnamed)
    (hflaw : ¬n.Flawed ctx clock) (messageId : String) :
    ∃ s head a, Agreeing ctx messageId clock n s head a := by
  have hlacks : ¬n.Lacks ctx clock := fun h =>
    ((Negotiation.lacks_iff hstate).1 h).elim hmis hflaw
  obtain ⟨s, hp⟩ := exists_plan_of_not_lacks (of?_of_agreeing hstate) rfl hlacks messageId
  exact ⟨s, agreeing_of_plan hstate hp⟩

end Duty

/-! ### What the handler comes to -/

variable {σ : Type}

/-- **What agreeing has to come to**: the handler is handed the negotiation `n` at the moment
`clock` in the world `w`, and ends with `r`. -/
structure Venue.Agrees (v : Venue σ) (sent : σ → List (Message × Answer)) (ctx : Context)
    (messageId : String) (clock : Moment) (n : Negotiation) (w : σ) (r : Handling × σ) :
    Prop where
  /-- A negotiation is passed over iff its last offer has no contract id to derive one from. -/
  passed_iff : r.1 = .finished (.outcome .notProcessed) ↔ n.Misnamed
  /-- Then nothing is sent and nothing is stored. -/
  passed : n.Misnamed → sent r.2 = sent w ∧ (v.desk r.2).ledger = (v.desk w).ledger
  /-- Neither is it if something else is missing, and that is an error. -/
  refused : ¬n.Misnamed → n.Flawed ctx clock → (∃ e, r.1 = .finished (.failed e)) ∧
    sent r.2 = sent w ∧ (v.desk r.2).ledger = (v.desk w).ledger
  /-- If it is too early to send the message again, nothing but the lease is given up. -/
  early : ¬n.Misnamed → ¬n.Flawed ctx clock → Sending.TooEarly ctx.policy n clock →
    sent r.2 = sent w ∧ v.GivesBack (v.desk w) n.id r
  /-- Else an agreement is sent, once, and if it was taken it is stored as it was sent. -/
  sends : ¬n.Misnamed → ¬n.Flawed ctx clock → ¬Sending.TooEarly ctx.policy n clock →
    ∃ head a, head.id = messageId ∧ n.Addresses head ∧ n.Terms ctx clock a ∧
      sent r.2 = sent w ++ [(.agreement head a, (v.dispatch (.agreement head a) w).1)] ∧
      ∀ content, (v.dispatch (.agreement head a) w).1 = .ok (.succeeded content) →
        ∃ later, v.Stores (v.desk (v.glance (v.dispatch (.agreement head a) w).2)) { n with
          state := .agreed
          stateCount := 1
          stateSince := later
          updatedAt := later
          agreement := some a } r

/-- A call on a record ends a handling with its own outcome, or with an error if somebody else holds
the record, so not as one that was passed over. -/
theorem Desk.ne_notProcessed {d : Desk} {id : String} {h : Handling} {outcome : Outcome}
    (hne : outcome ≠ .notProcessed)
    (hfree : (∀ x, d.ledger.record? id = some x → x.blocker? d.handle.holder d.now = none) →
      h = .finished (.outcome outcome))
    (hheld : ∀ x other, d.ledger.record? id = some x →
      x.blocker? d.handle.holder d.now = some other → ∃ e, h = .finished (.failed e)) :
    h ≠ .finished (.outcome .notProcessed) := by
  rcases d.ledger.checkLease_cases id d.handle.holder d.now with ⟨-, hok⟩ | ⟨x, other, hx, hb, -⟩
  · rw [hfree hok]
    simpa using hne
  · obtain ⟨e, he⟩ := hheld x other hx hb
    rw [he]
    exact nofun

namespace Duty

variable {v : Venue σ} {holder : String} {span : Moment} {sent : σ → List (Message × Answer)}
  {ctx : Context} {n : Negotiation} {w : σ}

theorem agrees_of_misnamed (h : n.Misnamed) (messageId : String) (clock : Moment) :
    v.Agrees sent ctx messageId clock n w
      ((sendAgreement.begin ctx messageId clock n).run v w) := by
  rw [begin_of_misnamed h, Handling.run_finished]
  exact ⟨iff_of_true rfl h, fun _ => ⟨rfl, rfl⟩, absurd h, absurd h, absurd h⟩

theorem agrees_of_flawed {clock : Moment} (hstate : n.state = .agreeing) (hmis : ¬n.Misnamed)
    (hflaw : n.Flawed ctx clock) (messageId : String) :
    v.Agrees sent ctx messageId clock n w
      ((sendAgreement.begin ctx messageId clock n).run v w) := by
  have hp (s : Sending) : sendAgreement.plan ctx messageId clock n ≠ .send s := by
    intro hs
    obtain ⟨head, -, haddr, hasks⟩ := asked_of_plan (of?_of_agreeing hstate) hs
    exact not_lacks_of_asks haddr hasks ((Negotiation.lacks_iff hstate).2 (.inr hflaw))
  obtain ⟨e, hb⟩ := begin_of_not_misnamed hmis hp
  rw [hb, Handling.run_finished]
  exact ⟨iff_of_false (by simp) hmis, fun h => absurd h hmis, fun _ _ => ⟨⟨e, rfl⟩, rfl, rfl⟩,
    fun _ h => absurd hflaw h, fun _ h => absurd hflaw h⟩

section

variable {messageId : String} {clock : Moment} {s : Sending} {head : Header} {a : Agreement}
  (hv : v.Serves holder span) (hsent : v.Remembers sent) (hmis : ¬n.Misnamed)
  (hflaw : ¬n.Flawed ctx clock) (h : Agreeing ctx messageId clock n s head a)
include hv hsent hmis hflaw h

theorem agrees_of_early (hearly : Sending.TooEarly ctx.policy n clock) :
    v.Agrees sent ctx messageId clock n w
      ((sendAgreement.begin ctx messageId clock n).run v w) := by
  rw [Sending.begin_of_early h.plan_eq hearly]
  have hback := Handling.givesBack_run_early hv s.message (s.attempt ctx.policy n) w
  have hdone := Desk.ne_notProcessed (by simp) (fun hfree => (hback.free hfree).1)
    fun x other hx hb => ⟨_, (hback.held x other hx hb).1⟩
  exact ⟨iff_of_false hdone hmis, fun h => absurd h hmis,
    fun _ h => absurd h hflaw,
    fun _ _ _ => ⟨Handling.sent_run_of_outgoing hsent rfl w, hback⟩,
    fun _ _ h => absurd hearly h⟩

theorem agrees_of_due (hstate : n.state = .agreeing)
    (hn : (v.desk (v.dispatch (.agreement head a) w).2).ledger.find? n.id = some n)
    (hearly : ¬Sending.TooEarly ctx.policy n clock) :
    v.Agrees sent ctx messageId clock n w
      ((sendAgreement.begin ctx messageId clock n).run v w) := by
  have hd := of?_of_agreeing hstate
  rw [Sending.begin_of_due h.plan_eq hearly, Handling.run_sending, h.message_eq,
    Handling.run_answered_of_same hv hn rfl]
  set later := v.now (v.glance (v.dispatch (.agreement head a) w).2)
  obtain ⟨n', hsettle, -⟩ :=
    exists_settle hd h.plan_eq ctx.policy later (v.dispatch (.agreement head a) w).1
  have hstores := Handling.stores_run_found (m := .agreement head a) hv hsettle
  have hdone := Desk.ne_notProcessed (by simp) (fun hfree => (hstores.free hfree).1)
    fun x other hx hb => ⟨_, (hstores.held x other hx hb).1⟩
  refine ⟨iff_of_false hdone hmis, fun h => absurd h hmis,
    fun _ h => absurd h hflaw, fun _ _ h => absurd h hearly,
    fun _ _ _ => ⟨head, a, h.id_eq, h.addresses, h.terms, ?_, fun content htaken =>
      ⟨later, ?_⟩⟩⟩
  · rw [Handling.sent_run_of_outgoing hsent rfl, Venue.glance, hsent.sent_setDesk,
      hsent.sent_dispatch]
  · have htold := Table.settle_taken hd h.plan_eq hsettle htaken
    rw [h.success_eq, h.agreement_eq, Option.some_or] at htold
    rw [htold] at hstores
    exact hstores

end

theorem agrees_of_not_flawed (hv : v.Serves holder span) (hsent : v.Remembers sent)
    (hn : ∀ m, (v.desk (v.dispatch m w).2).ledger.find? n.id = some n) {clock : Moment}
    (hstate : n.state = .agreeing) (hmis : ¬n.Misnamed) (hflaw : ¬n.Flawed ctx clock)
    (messageId : String) :
    v.Agrees sent ctx messageId clock n w
      ((sendAgreement.begin ctx messageId clock n).run v w) := by
  obtain ⟨s, head, a, h⟩ := exists_agreeing hstate hmis hflaw messageId
  by_cases hearly : Sending.TooEarly ctx.policy n clock
  · exact agrees_of_early hv hsent hmis hflaw h hearly
  · exact agrees_of_due hv hsent hmis hflaw h hstate (hn _) hearly

/-- **The provider agrees to what was offered last**, or sends the agreement that is there, and
stores what it sent when it was taken.  The negotiation may be any, as long as the record is the
same when the answer comes; who holds it then, the clocks and the answer may be anything, and other
records may change meanwhile. -/
theorem agrees_as_offered (hv : v.Serves holder span) (hsent : v.Remembers sent)
    (hstate : n.state = .agreeing)
    (hn : ∀ m, (v.desk (v.dispatch m w).2).ledger.find? n.id = some n) (messageId : String)
    (clock : Moment) :
    v.Agrees sent ctx messageId clock n w
      ((sendAgreement.begin ctx messageId clock n).run v w) := by
  by_cases hmis : n.Misnamed
  · exact agrees_of_misnamed hmis messageId clock
  by_cases hflaw : n.Flawed ctx clock
  · exact agrees_of_flawed hstate hmis hflaw messageId
  · exact agrees_of_not_flawed hv hsent hn hstate hmis hflaw messageId

end Duty

/-! ### A message that is taken -/

namespace Workshop

/-- The provider whose agreements are taken, in the fifth second. -/
def trusted : Venue (Ledger × List (Message × Answer)) :=
  steady ⟨5000, 5000, "message-1", .ok (.succeeded default)⟩ ⟨"worker", 60000, default⟩

/-- What the provider knows about itself. -/
def provider : Context := { (default : Context) with participantId := "provider" }

/-- A negotiation that the provider is to agree to. -/
def pending : Negotiation := { Negotiation.specimen with state := .agreeing }

/-- The contract id of its offer. -/
def contract : ContractId := ⟨"definition", "asset", "1234"⟩

/-- The agreement that is made of it in the fifth second. -/
def handshake : Agreement :=
  ⟨contract.derive.text, "provider", "consumer", 5, "asset", default⟩

theorem proper_contract : contract.Proper := by decide

theorem text_contract : contract.text = "definition:asset:1234" := by decide

theorem not_misnamed_pending : ¬pending.Misnamed := by
  rintro ⟨-, o, ho, hid⟩
  cases ho
  exact hid ⟨contract, proper_contract, text_contract⟩

theorem terms_pending : pending.Terms provider 5000 handshake := by
  have ho : pending.offers.getLast? = some ⟨"definition:asset:1234", "asset", default⟩ := rfl
  have hdate : (5000 : Moment).seconds = 5 := by decide
  have hmade : pending.Terms provider 5000 ⟨contract.derive.text, provider.participantId,
      pending.counterPartyId, (5000 : Moment).seconds, "asset", default⟩ :=
    .made rfl ho proper_contract text_contract
  rw [hdate] at hmade
  exact hmade

theorem not_flawed_pending : ¬pending.Flawed provider 5000 := by
  rintro (h | h | h | ⟨-, h⟩ | ⟨-, ho, h⟩)
  · exact absurd h (by decide)
  · exact absurd h (by decide)
  · exact absurd h (by decide)
  · cases h
  · cases ho
    exact absurd h (by decide)

theorem not_tooEarly_pending : ¬Sending.TooEarly provider.policy pending 5000 :=
  fun h => absurd h.1 (by decide)

end Workshop

namespace Duty

open Workshop

/-- The agreement is stored that the consumer takes. -/
theorem agrees_as_offered_taken :
    let w : Ledger × List (Message × Answer) := (Ledger.empty.put ⟨pending, none⟩, [])
    let r := (sendAgreement.begin provider "message-1" 5000 pending).run trusted w
    trusted.Serves "worker" 60000 ∧ trusted.Remembers Prod.snd ∧ pending.state = .agreeing ∧
    (∀ m, (trusted.desk (trusted.dispatch m w).2).ledger.find? pending.id = some pending) ∧
    ∃ head later, r.2.2 = [(.agreement head handshake, .ok (.succeeded default))] ∧
      r.2.1.record? pending.id = some ⟨{ pending with
        state := .agreed
        stateSince := later
        updatedAt := later
        agreement := some handshake }, none⟩ := by
  intro w r
  have hv : trusted.Serves "worker" 60000 := (quiet_steady ..).toServes
  have hsent : trusted.Remembers Prod.snd := (quiet_steady ..).remembers
  have hfind : w.1.find? pending.id = some pending := by decide +kernel
  have hn : ∀ m, (trusted.desk (trusted.dispatch m w).2).ledger.find? pending.id = some pending :=
    fun _ => hfind
  have hagrees : trusted.Agrees Prod.snd provider "message-1" 5000 pending w r :=
    agrees_as_offered hv hsent rfl hn "message-1" 5000
  obtain ⟨head, a, -, -, hterms, hnews, hstored⟩ :=
    hagrees.sends not_misnamed_pending not_flawed_pending not_tooEarly_pending
  obtain rfl := hterms.unique terms_pending
  obtain ⟨later, hstores⟩ := hstored default rfl
  have hfree : ∀ x, w.1.record? pending.id = some x → x.blocker? "worker" 5000 = none := by
    decide +kernel
  exact ⟨hv, hsent, rfl, hn, head, later, hnews,
    ((hstores.free hfree).2 pending.id).trans (if_pos rfl)⟩

/-- **Agreed in vain.**  A provider sends an agreement that is taken, and cannot store it, as the
record is leased by somebody else by then: it stays in the state of agreeing.  And without any offer
there is nothing to agree to, which is an error. -/
theorem agreed_in_vain :
    (let w : Ledger × List (Message × Answer) :=
      (Ledger.empty.put ⟨pending, some ⟨"other", 5000, 60000⟩⟩, [])
    let r := (sendAgreement.begin provider "message-1" 5000 pending).run trusted w
    w.1.find? pending.id = some pending ∧
    (∃ head, r.2.2 = [(.agreement head handshake, .ok (.succeeded default))]) ∧
    r.1 = .finished (.failed (.retry (.store (.alreadyLeased "negotiation-1" "other")))) ∧
    r.2.1.find? pending.id = some pending) ∧
    let n := { pending with offers := [] }
    let w : Ledger × List (Message × Answer) := (Ledger.empty.put ⟨n, none⟩, [])
    let r := (sendAgreement.begin provider "message-1" 5000 n).run trusted w
    r.1 = .finished (.failed (.missingOffer "negotiation-1")) ∧ r.2.2 = [] := by
  refine ⟨?_, ?_⟩
  · intro w r
    have hv : trusted.Serves "worker" 60000 := (quiet_steady ..).toServes
    have hsent : trusted.Remembers Prod.snd := (quiet_steady ..).remembers
    have hfind : w.1.find? pending.id = some pending := by decide +kernel
    have hn : ∀ m, (trusted.desk (trusted.dispatch m w).2).ledger.find? pending.id =
        some pending := fun _ => hfind
    have hagrees := agrees_of_not_flawed hv hsent hn rfl not_misnamed_pending not_flawed_pending
      "message-1"
    obtain ⟨head, a, -, -, hterms, hnews, hstored⟩ :=
      hagrees.sends not_misnamed_pending not_flawed_pending not_tooEarly_pending
    obtain rfl := hterms.unique terms_pending
    obtain ⟨later, hstores⟩ := hstored default rfl
    have hheld : w.1.record? pending.id = some ⟨pending, some ⟨"other", 5000, 60000⟩⟩ := by
      decide +kernel
    have hother : (Record.mk pending (some ⟨"other", 5000, 60000⟩)).blocker? "worker" 5000 =
        some "other" := by decide
    obtain ⟨hend, hledger⟩ := hstores.held _ "other" hheld hother
    refine ⟨hfind, ⟨head, hnews⟩, hend, ?_⟩
    have hledger : r.2.1 = w.1 := hledger
    rw [hledger]
    exact hfind
  · intro n w r
    have hb : sendAgreement.begin provider "message-1" 5000 n =
        .finished (.failed (.missingOffer "negotiation-1")) := rfl
    have hr : r = (.finished (.failed (.missingOffer "negotiation-1")), w) := by
      show (sendAgreement.begin provider "message-1" 5000 n).run trusted w = _
      rw [hb, Handling.run_finished]
    rw [hr]
    exact ⟨rfl, rfl⟩

end Duty

end Parley
