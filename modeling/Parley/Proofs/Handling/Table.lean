import Parley.Engine.Manager
import Parley.Proofs.Handling.Agreement
import Parley.Proofs.Handling.Sending

/-!
# The table of handlers

What each side has to do in each of its states, written down as a table: where it moves on at once,
which message it has to send and what the message holds, and what a negotiation may lack for it.
The handlers of a manager do as the table says.

* `Table.Moves`, `Table.Asks` : the rows without and with a message.
* `Negotiation.Lacks` : why a message cannot be made.
* `asked_of_plan`, `not_lacks_of_asks`, `exists_plan_of_not_lacks` : a message is planned iff
  nothing is lacking, and it is the one of the table; `begin_of_not_send` : else all is over.
* `Table.Done` : what a handler has to come to, from row to row.
* `done_of_advance`, `done_of_send`, `done_of_refuse` : what the handlers of a row come to.
* `handlers_obey` : all of the handlers that a manager has do as the table says.
-/

namespace Parley

namespace Table

/-- The states in which a side moves on at once, and where to. -/
inductive Moves : Side → State → State → Prop where
  | requested : Moves .provider .requested .agreeing
  | verified : Moves .provider .verified .finalizing
  | initial : Moves .consumer .initial .requesting
  | agreed : Moves .consumer .agreed .verifying

/-- The message that a side has to send in a state, with the state that follows when it was taken
and the agreement that is recorded then.  `h` is the header, and `clock` the worker's. -/
inductive Asks (ctx : Context) (clock : Moment) (n : Negotiation) (h : Header) :
    Side → State → Message → State → Option Agreement → Prop where
  | offering {o : Offer} (ho : n.offers.getLast? = some o) :
      Asks ctx clock n h .provider .offering (.offer h o) .offered none
  /-- An agreement that is there is sent as it is. -/
  | agreeing {a : Agreement} (ha : n.agreement = some a) :
      Asks ctx clock n h .provider .agreeing (.agreement h a) .agreed (some a)
  /-- Else it is made of the last offer. -/
  | making {o : Offer} {c : ContractId} (hnone : n.agreement = none)
      (ho : n.offers.getLast? = some o) (hc : ContractId.parse o.id = .ok c)
      (hparticipant : ctx.participantId ≠ "") (hparty : n.counterPartyId ≠ "")
      (hasset : o.assetId ≠ "") (hdate : clock.seconds ≠ 0) :
      Asks ctx clock n h .provider .agreeing
        (.agreement h ⟨c.derive.text, ctx.participantId, n.counterPartyId, clock.seconds,
          o.assetId, o.policy⟩) .agreed
        (some ⟨c.derive.text, ctx.participantId, n.counterPartyId, clock.seconds, o.assetId,
          o.policy⟩)
  | finalizing {a : Agreement} (ha : n.agreement = some a) :
      Asks ctx clock n h .provider .finalizing (.event h .finalized (some a.policy)) .finalized
        none
  | requesting {o : Offer} (ho : n.offers.getLast? = some o) :
      Asks ctx clock n h .consumer .requesting (.request h o n.callbackAddress) .requested none
  | accepting :
      Asks ctx clock n h .consumer .accepting
        (.event h .accepted (n.offers.getLast?.map (·.policy))) .accepted none
  | verifying : Asks ctx clock n h .consumer .verifying (.approval h) .verified none
  | terminating (side : Side) :
      Asks ctx clock n h side .terminating
        (.termination h n.errorDetail (n.offers.getLast?.map (·.policy))) .terminated none

end Table

namespace Negotiation

/-- The header addresses the other side about the negotiation. -/
structure Addresses (n : Negotiation) (h : Header) : Prop where
  protocol_eq : h.protocol = n.protocol
  address_eq : h.address = n.counterPartyAddress
  processId_eq : h.processId = n.correlationId.getD n.id
  /-- All of that is there. -/
  given : n.protocol ≠ "" ∧ n.counterPartyAddress ≠ "" ∧ n.correlationId.getD n.id ≠ ""

/-- Why no message can be made in the state of the negotiation. -/
inductive Lacks (ctx : Context) (clock : Moment) (n : Negotiation) : Prop where
  | protocol (h : n.protocol = "")
  | address (h : n.counterPartyAddress = "")
  | processId (h : n.correlationId.getD n.id = "")
  | offer (h : n.offers = []) (hs : n.state = .offering ∨ n.state = .requesting ∨
      n.state = .agreeing ∧ n.agreement = none)
  | agreement (h : n.agreement = none) (hs : n.state = .finalizing)
  /-- The id of the offer is no contract id. -/
  | offerId {o : Offer} {e : ContractIdError} (ho : n.offers.getLast? = some o)
      (h : ContractId.parse o.id = .error e) (hs : n.state = .agreeing) (hnone : n.agreement = none)
  /-- The agreement would not hold what it must. -/
  | terms {o : Offer} (ho : n.offers.getLast? = some o)
      (h : ctx.participantId = "" ∨ n.counterPartyId = "" ∨ o.assetId = "" ∨ clock.seconds = 0)
      (hs : n.state = .agreeing) (hnone : n.agreement = none)

end Negotiation

/-! ### Messages that can be made -/

theorem ContractId.text_ne_empty (c : ContractId) : c.text ≠ "" := by
  intro h
  have hlength := congrArg String.length h
  simp [text] at hlength

theorem Agreement.make_eq_ok_iff {a b : Agreement} : a.make = .ok b ↔
    b = a ∧ a.id ≠ "" ∧ a.providerId ≠ "" ∧ a.consumerId ≠ "" ∧ a.assetId ≠ "" ∧
      a.signedAt ≠ 0 := by
  unfold make
  simp only [String.isEmpty_iff]
  constructor
  · intro h
    split_ifs at h with h₁ h₂ h₃ h₄ h₅
    cases h
    exact ⟨rfl, h₁, h₂, h₃, h₄, h₅⟩
  · rintro ⟨rfl, h₁, h₂, h₃, h₄, h₅⟩
    rw [if_neg h₁, if_neg h₂, if_neg h₃, if_neg h₄, if_neg h₅]

namespace Negotiation

variable {n : Negotiation} {messageId : String} {h : Header}

theorem header_eq_ok_iff : n.header messageId = .ok h ↔ h.id = messageId ∧ n.Addresses h := by
  constructor
  · intro he
    unfold header Header.make at he
    split_ifs at he with h₁ h₂ h₃
    cases he
    rw [String.isEmpty_iff] at h₁ h₂ h₃
    exact ⟨rfl, rfl, rfl, rfl, h₁, h₂, h₃⟩
  · rintro ⟨hid, hp, ha, hi, h₁, h₂, h₃⟩
    obtain rfl : h = ⟨messageId, n.protocol, n.counterPartyAddress, n.processId⟩ := by
      cases h
      cases hid
      cases hp
      cases ha
      cases hi
      rfl
    unfold header Header.make
    rw [if_neg (by rwa [String.isEmpty_iff]), if_neg (by rwa [String.isEmpty_iff]),
      if_neg (by rw [String.isEmpty_iff]; exact h₃)]

end Negotiation

namespace Duty

open Table

variable {side : Side} {d : Duty} {ctx : Context} {messageId : String} {clock : Moment}
  {n : Negotiation} {s : Sending} {h : Header}

/-- The states in which a duty is due, and to whom. -/
def places : Duty → List (Side × State)
  | sendOffer => [(.provider, .offering)]
  | takeRequest => [(.provider, .requested)]
  | sendAgreement => [(.provider, .agreeing)]
  | beginFinalizing => [(.provider, .verified)]
  | sendFinalization => [(.provider, .finalizing)]
  | beginRequesting => [(.consumer, .initial)]
  | sendRequest => [(.consumer, .requesting)]
  | sendAcceptance => [(.consumer, .accepting)]
  | beginVerifying => [(.consumer, .agreed)]
  | sendApproval => [(.consumer, .verifying)]
  | sendTermination => [(.provider, .terminating), (.consumer, .terminating)]

theorem mem_places_iff {st : State} : (side, st) ∈ d.places ↔ of? side st = some d := by
  cases side <;> cases st <;> cases d <;> decide

theorem eq_of_places {side' : Side} {st st' : State} (hd : of? side st = some d)
    (h : d.places = [(side', st')]) : side = side' ∧ st = st' := by
  have hplace := mem_places_iff.2 hd
  rw [h] at hplace
  exact Prod.mk.inj (List.mem_singleton.1 hplace)

theorem sendWith_eq_send_iff {f : Header → Sending} : sendWith n messageId f = .send s ↔
    ∃ head, head.id = messageId ∧ n.Addresses head ∧ s = f head := by
  simp only [← and_assoc, ← Negotiation.header_eq_ok_iff]
  unfold sendWith
  cases n.header messageId with
  | ok head => simp [eq_comm]
  | error e => simp

/-- What the table asks of a message that is to be sent. -/
def Asked (ctx : Context) (clock : Moment) (messageId : String) (n : Negotiation) (side : Side)
    (s : Sending) : Prop :=
  ∃ head, head.id = messageId ∧ n.Addresses head ∧
    Asks ctx clock n head side n.state s.message s.success s.agreement

theorem asked_of_sendWith {f : Header → Sending} (hp : sendWith n messageId f = .send s)
    (hf : ∀ head, Asks ctx clock n head side n.state (f head).message (f head).success
      (f head).agreement) : Asked ctx clock messageId n side s := by
  obtain ⟨head, hid, haddr, rfl⟩ := sendWith_eq_send_iff.1 hp
  exact ⟨head, hid, haddr, hf head⟩

theorem asks_agreement {a : Agreement} (ha : agreementOf ctx clock n = .ok (some a)) :
    Asks ctx clock n h .provider .agreeing (.agreement h a) .agreed (some a) := by
  rcases agreementOf_eq_ok_cases ha with hsome | ⟨hnone, hmake⟩
  · exact .agreeing hsome
  · obtain ⟨o, c, ho, hc, rfl⟩ := makeAgreement_eq_ok hmake
    unfold makeAgreement at hmake
    simp only [ho, hc] at hmake
    split at hmake
    · next a' hvalid =>
      obtain ⟨-, -, hparticipant, hparty, hasset, hdate⟩ := Agreement.make_eq_ok_iff.1 hvalid
      exact .making hnone ho hc hparticipant hparty hasset hdate
    · cases hmake

/-- **A message that is planned is the one of the table.** -/
theorem asked_of_plan (hd : of? side n.state = some d)
    (hp : d.plan ctx messageId clock n = .send s) : Asked ctx clock messageId n side s := by
  cases d with
  | takeRequest | beginFinalizing | beginRequesting | beginVerifying => cases hp
  | sendAcceptance =>
    obtain ⟨rfl, hst⟩ := eq_of_places hd rfl
    exact asked_of_sendWith hp fun _ => hst ▸ .accepting
  | sendApproval =>
    obtain ⟨rfl, hst⟩ := eq_of_places hd rfl
    exact asked_of_sendWith hp fun _ => hst ▸ .verifying
  | sendTermination =>
    have hst := (eq_sendTermination_iff hd).1 rfl
    exact asked_of_sendWith hp fun _ => hst ▸ .terminating side
  | sendOffer =>
    obtain ⟨rfl, hst⟩ := eq_of_places hd rfl
    simp only [plan] at hp
    split at hp
    · cases hp
    · next o ho => exact asked_of_sendWith hp fun _ => hst ▸ .offering ho
  | sendRequest =>
    obtain ⟨rfl, hst⟩ := eq_of_places hd rfl
    simp only [plan] at hp
    split at hp
    · cases hp
    · next o ho => exact asked_of_sendWith hp fun _ => hst ▸ .requesting ho
  | sendFinalization =>
    obtain ⟨rfl, hst⟩ := eq_of_places hd rfl
    simp only [plan] at hp
    split at hp
    · cases hp
    · next a ha => exact asked_of_sendWith hp fun _ => hst ▸ .finalizing ha
  | sendAgreement =>
    obtain ⟨rfl, hst⟩ := eq_of_places hd rfl
    simp only [plan] at hp
    split at hp
    · cases hp
    · cases hp
    · next a ha => exact asked_of_sendWith hp fun _ => hst ▸ asks_agreement ha

theorem not_lacks_of_asks {m : Message} {success : State} {a? : Option Agreement}
    (haddr : n.Addresses h) (hasks : Asks ctx clock n h side n.state m success a?) :
    ¬n.Lacks ctx clock := by
  generalize hst : n.state = st at hasks
  rintro (hp | ha | hi | ⟨hnone, hs⟩ | ⟨hnone, hs⟩ | ⟨ho, he, hs, hnone⟩ | ⟨ho, he, hs, hnone⟩)
  · exact haddr.given.1 hp
  · exact haddr.given.2.1 ha
  · exact haddr.given.2.2 hi
  -- in each of these states the table asks for what is missing
  all_goals
    rw [hst] at hs
    cases hasks <;> simp_all

theorem sendWith_of_not_lacks (hl : ¬n.Lacks ctx clock) (messageId : String)
    (f : Header → Sending) : ∃ s, sendWith n messageId f = .send s :=
  ⟨_, sendWith_eq_send_iff.2 ⟨⟨messageId, n.protocol, n.counterPartyAddress, n.processId⟩, rfl,
    ⟨rfl, rfl, rfl, fun h => hl (.protocol h), fun h => hl (.address h),
      fun h => hl (.processId h)⟩, rfl⟩⟩

theorem exists_lastOffer (hl : ¬n.Lacks ctx clock) (hs : n.state = .offering ∨
    n.state = .requesting ∨ n.state = .agreeing ∧ n.agreement = none) :
    ∃ o, n.lastOffer? = some o := by
  cases ho : n.lastOffer? with
  | some o => exact ⟨o, rfl⟩
  | none => exact absurd (.offer (List.getLast?_eq_none_iff.1 ho) hs) hl

theorem exists_agreementOf (hl : ¬n.Lacks ctx clock) (hs : n.state = .agreeing) :
    ∃ a, agreementOf ctx clock n = .ok (some a) := by
  cases hnone : n.agreement with
  | some a => exact ⟨a, agreementOf_of_some hnone⟩
  | none =>
    obtain ⟨o, ho⟩ := exists_lastOffer hl (.inr (.inr ⟨hs, hnone⟩))
    cases hc : ContractId.parse o.id with
    | error e => exact absurd (.offerId ho hc hs hnone) hl
    | ok c =>
      -- all that could be wrong with the agreement would be lacking
      have hterms : ¬(ctx.participantId = "" ∨ n.counterPartyId = "" ∨ o.assetId = "" ∨
          clock.seconds = 0) := fun h => hl (.terms ho h hs hnone)
      rw [not_or, not_or, not_or] at hterms
      obtain ⟨hparticipant, hparty, hasset, hdate⟩ := hterms
      refine ⟨⟨c.derive.text, ctx.participantId, n.counterPartyId, clock.seconds, o.assetId,
        o.policy⟩, ?_⟩
      simp only [agreementOf, hnone, makeAgreement, ho, hc]
      rw [Agreement.make_eq_ok_iff.2
        ⟨rfl, c.derive.text_ne_empty, hparticipant, hparty, hasset, hdate⟩]

theorem exists_plan_of_not_lacks (hd : of? side n.state = some d) (hs : d.sends = true)
    (hl : ¬n.Lacks ctx clock) (messageId : String) :
    ∃ s, d.plan ctx messageId clock n = .send s := by
  cases d with
  | takeRequest | beginFinalizing | beginRequesting | beginVerifying => cases hs
  | sendAcceptance | sendApproval | sendTermination => exact sendWith_of_not_lacks hl ..
  | sendOffer =>
    obtain ⟨-, hst⟩ := eq_of_places hd rfl
    obtain ⟨o, ho⟩ := exists_lastOffer hl (.inl hst)
    simp only [plan, ho]
    exact sendWith_of_not_lacks hl ..
  | sendRequest =>
    obtain ⟨-, hst⟩ := eq_of_places hd rfl
    obtain ⟨o, ho⟩ := exists_lastOffer hl (.inr (.inl hst))
    simp only [plan, ho]
    exact sendWith_of_not_lacks hl ..
  | sendFinalization =>
    obtain ⟨-, hst⟩ := eq_of_places hd rfl
    cases ha : n.agreement with
    | none => exact absurd (.agreement ha hst) hl
    | some a =>
      simp only [plan, ha]
      exact sendWith_of_not_lacks hl ..
  | sendAgreement =>
    obtain ⟨-, hst⟩ := eq_of_places hd rfl
    obtain ⟨a, ha⟩ := exists_agreementOf hl hst
    simp only [plan, ha]
    exact sendWith_of_not_lacks hl ..

end Duty

/-- How a handling may end for want of a message: something is missing or wrong, and that is said;
only an offer whose id is no contract id is passed over. -/
inductive Table.Refusal (id : String) : Verdict → Prop where
  | missingOffer : Refusal id (.failed (.missingOffer id))
  | missingAgreement : Refusal id (.failed (.missingAgreement id))
  | agreement (e : AgreementError) : Refusal id (.failed (.agreement e))
  | message (e : MessageError) : Refusal id (.failed (.message e))
  | offerId : Refusal id (.outcome .notProcessed)

/-- The change of a negotiation was refused. -/
def Verdict.isTransition : Verdict → Bool
  | .failed (.transition _) | .failed (.retry (.transition _)) => true
  | _ => false

theorem Table.Refusal.isTransition_eq {id : String} {w : Verdict} (h : Refusal id w) :
    w.isTransition = false := by cases h <;> rfl

namespace Duty

open Table

variable {side : Side} {d : Duty} {ctx : Context} {messageId : String} {clock : Moment}
  {n : Negotiation} {s : Sending}

theorem begin_sendWith {p : Plan} {f : Header → Sending} (hp : p = sendWith n messageId f)
    (hs : ∀ s, p ≠ .send s) : ∃ w, Refusal n.id w ∧ p.begin ctx clock n = .finished w := by
  unfold sendWith at hp
  split at hp
  · exact absurd hp (hs _)
  · next e _ => exact ⟨_, .message e, by rw [hp]; rfl⟩

theorem begin_of_not_send (hd : d.sends = true)
    (hs : ∀ s, d.plan ctx messageId clock n ≠ .send s) :
    ∃ w, Refusal n.id w ∧ d.begin ctx messageId clock n = .finished w := by
  unfold Duty.begin
  cases d with
  | takeRequest | beginFinalizing | beginRequesting | beginVerifying => cases hd
  | sendAcceptance | sendApproval | sendTermination => exact begin_sendWith rfl hs
  | sendOffer | sendRequest =>
    simp only [plan] at hs ⊢
    cases ho : n.lastOffer? with
    | none => exact ⟨_, .missingOffer, rfl⟩
    | some o =>
      simp only [ho] at hs
      exact begin_sendWith rfl hs
  | sendFinalization =>
    simp only [plan] at hs ⊢
    cases ha : n.agreement with
    | none => exact ⟨_, .missingAgreement, rfl⟩
    | some a =>
      simp only [ha] at hs
      exact begin_sendWith rfl hs
  | sendAgreement =>
    simp only [plan] at hs ⊢
    rcases ha : agreementOf ctx clock n with e | (_ | a)
    · obtain rfl | ⟨e', rfl⟩ := agreementOf_eq_error ha
      · exact ⟨_, .missingOffer, rfl⟩
      · exact ⟨_, .agreement e', rfl⟩
    · exact ⟨_, .offerId, rfl⟩
    · simp only [ha] at hs
      exact begin_sendWith rfl hs

theorem moves_iff (hd : of? side n.state = some d) {target : State} :
    Moves side n.state target ↔ d.sends = false ∧ target = d.goal := by
  generalize n.state = st at hd
  constructor
  · rintro (_ | _ | _ | _) <;> cases hd <;> exact ⟨rfl, rfl⟩
  · rintro ⟨hs, rfl⟩
    cases side <;> cases st <;> cases hd <;> first | exact absurd hs (by decide) | constructor

end Duty

/-! ### What the handlers do -/

/-- At the desk the negotiation is stored as it is, and nobody else holds it. -/
def Desk.Has (d : Desk) (n : Negotiation) : Prop :=
  ∃ lease, d.ledger.record? n.id = some ⟨n, lease⟩ ∧
    (Record.mk n lease).blocker? d.handle.holder d.now = none

theorem Desk.Has.free {d : Desk} {n : Negotiation} (h : d.Has n) (x : Record)
    (hx : d.ledger.record? n.id = some x) : x.blocker? d.handle.holder d.now = none := by
  obtain ⟨lease, hr, hfree⟩ := h
  obtain rfl : x = ⟨n, lease⟩ := Option.some.inj (hx.symm.trans hr)
  exact hfree

/-- The worlds that a handling comes by before it writes, from the world `w` on. -/
inductive Venue.Passes {σ : Type} (v : Venue σ) (w : σ) : σ → Prop where
  | start : Passes v w w
  | answered (m : Message) : Passes v w (v.dispatch m w).2
  | found (m : Message) : Passes v w (v.glance (v.dispatch m w).2)

namespace Table

/-- The state that follows on an answer, by the state in which the message was sent and the one that
follows when it was taken. -/
def column (st success : State) : Route → State
  | .success _ => success
  | .failure _ => st
  | .fatal _ => .terminated
  | .exhausted _ => if st = .terminating then .terminated else .terminating

variable {σ : Type}

/-- **What a handler has to come to** by the table, that is handed the negotiation `n` at the moment
`clock` in the world `w`, and ends with `r`. -/
structure Done (v : Venue σ) (sent : σ → List (Message × Answer)) (side : Side) (ctx : Context)
    (messageId : String) (clock : Moment) (n : Negotiation) (w : σ) (r : Handling × σ) :
    Prop where
  /-- Whatever goes wrong, it is not the change of the negotiation. -/
  finished : ∃ verdict, r.1 = .finished verdict ∧ verdict.isTransition = false
  /-- Where a side moves on at once, it does, and sends nothing. -/
  moves : ∀ target, Moves side n.state target →
    sent r.2 = sent w ∧ r.1 = .finished (.outcome .processed) ∧
    (v.desk r.2).ledger.record? n.id = some ⟨{ n with
      state := target
      stateCount := 1
      stateSince := clock
      updatedAt := clock }, none⟩
  /-- If no message can be made, nothing is sent and nothing is stored. -/
  lacks : (∀ target, ¬Moves side n.state target) → n.Lacks ctx clock →
    (∃ verdict, Refusal n.id verdict ∧ r.1 = .finished verdict) ∧
    sent r.2 = sent w ∧ (v.desk r.2).ledger = (v.desk w).ledger
  /-- If it is too early to send the message again, nothing is sent, and nothing but the lease is
  given up. -/
  early : (∀ target, ¬Moves side n.state target) → ¬n.Lacks ctx clock →
    Sending.TooEarly ctx.policy n clock →
    r.1 = .finished (.outcome .delayed) ∧
    sent r.2 = sent w ∧ (v.desk r.2).ledger.record? n.id = some ⟨n, none⟩
  /-- Else the message of the table is sent, once, and its answer recorded. -/
  sends : (∀ target, ¬Moves side n.state target) → ¬n.Lacks ctx clock →
    ¬Sending.TooEarly ctx.policy n clock →
    ∃ head m success a?, head.id = messageId ∧ n.Addresses head ∧
      Asks ctx clock n head side n.state m success a? ∧
      r.1 = .finished (.outcome .processed) ∧
      sent r.2 = sent w ++ [(m, (v.dispatch m w).1)] ∧
      ∃ n' later, (v.desk r.2).ledger.record? n.id = some ⟨n', none⟩ ∧
        n'.state = column n.state success
          (Attempt.route ctx.policy n.stateCount (v.dispatch m w).1) ∧
        ∀ content, (v.dispatch m w).1 = .ok (.succeeded content) → n' = { n with
          state := success
          stateCount := 1
          stateSince := later
          updatedAt := later
          agreement := a?.or n.agreement }

theorem after_eq_column {side : Side} {st : State} {d : Duty} (hd : Duty.of? side st = some d)
    (r : Route) : d.after st r = column st d.goal r := by
  cases r with
  | success | failure | fatal => rfl
  | exhausted cause => exact if_congr (Duty.eq_sendTermination_iff hd) rfl rfl

variable {v : Venue σ} {holder : String} {span : Moment} {sent : σ → List (Message × Answer)}
  {side : Side} {d : Duty} {ctx : Context} {messageId : String} {clock : Moment} {n : Negotiation}
  {w : σ} {s : Sending}

/-- The negotiation that is stored when its message was taken. -/
theorem settle_taken (hd : Duty.of? side n.state = some d)
    (hp : d.plan ctx messageId clock n = .send s) {later : Moment} {answer : Answer}
    {n' : Negotiation} (hsettle : (s.attempt ctx.policy n).settle later answer n = .ok n')
    {content : Json} (ha : answer = .ok (.succeeded content)) :
    n' = { n with
      state := s.success
      stateCount := 1
      stateSince := later
      updatedAt := later
      agreement := s.agreement.or n.agreement } := by
  subst ha
  obtain ⟨-, hgoal, -⟩ := Duty.sends_of_plan hp
  obtain ⟨moved, m, hmoved, hm, hsign⟩ :=
    Duty.settle_cases hd hp rfl ctx.policy later (.ok (.succeeded content))
  obtain rfl : n' = m := Except.ok.inj (hsettle.symm.trans hm)
  obtain rfl : n' = s.sign moved := hsign
  obtain ⟨-, rfl⟩ := Negotiation.moveTo_eq_ok_iff.1 hmoved
  have hafter : d.after n.state (Attempt.route ctx.policy n.stateCount (.ok (.succeeded content))) =
      d.goal := rfl
  rw [hafter, if_neg (Duty.goal_ne hd), hgoal, Sending.sign]
  cases s.agreement <;> rfl

theorem run_storing (hv : v.Serves holder span) {moved : Negotiation} (hid : moved.id = n.id)
    (hn : (v.desk w).Has n) :
    ((Handling.storing moved).run v w).1 = .finished (.outcome .processed) ∧
    (v.desk ((Handling.storing moved).run v w).2).ledger.record? n.id = some ⟨moved, none⟩ := by
  have ho : (v.desk w).handle.outages = [] := by rw [hv.handle_desk]
  have hok := hn.free
  rw [← hid] at hok
  rw [Handling.run_of_step_finished rfl (Handling.step_storing (Desk.save_eq_ok ho hok)),
    hv.ledger_setDesk]
  exact ⟨rfl, Ledger.record?_put.trans (if_pos hid)⟩

theorem run_early (hv : v.Serves holder span) (m : Message) (t : Attempt)
    (hn : (v.desk w).Has t.negotiation) :
    ((Handling.attempting m t .early).run v w).1 = .finished (.outcome .delayed) ∧
    (v.desk ((Handling.attempting m t .early).run v w).2).ledger.record? t.negotiation.id =
      some ⟨t.negotiation, none⟩ := by
  obtain ⟨hend, hstored⟩ := (Handling.givesBack_run_early hv m t w).free hn.free
  obtain ⟨lease, hr, -⟩ := hn
  refine ⟨hend, (hstored _).trans ((if_pos rfl).trans ?_)⟩
  rw [hr]
  rfl

theorem run_answered (hv : v.Serves holder span) (hd : Duty.of? side n.state = some d)
    (hp : d.plan ctx messageId clock n = .send s) (hn : (v.desk w).Has n)
    (hn' : (v.desk (v.glance w)).Has n) (a : Answer) :
    let r := (Handling.attempting s.message (s.attempt ctx.policy n) (.answered a)).run v w
    r.1 = .finished (.outcome .processed) ∧
    ∃ n', (s.attempt ctx.policy n).settle (v.now (v.glance w)) a n = .ok n' ∧
      n'.state = column n.state s.success (Attempt.route ctx.policy n.stateCount a) ∧
      (v.desk r.2).ledger.record? n.id = some ⟨n', none⟩ := by
  obtain ⟨lease, hr, -⟩ := hn
  have hfind : (v.desk w).ledger.find? n.id = some n := Ledger.find?_eq_some_iff.2 ⟨_, hr⟩
  obtain ⟨n', hsettle, hid, hstate, -⟩ :=
    Duty.exists_settle hd hp ctx.policy (v.now (v.glance w)) a
  have hstores := Handling.stores_run_found (m := s.message) hv hsettle
  have hdone := hstores.free (by rw [hid]; exact hn'.free)
  rw [Handling.run_answered_of_same hv hfind rfl]
  refine ⟨hdone.1, n', hsettle, ?_, (hdone.2 n.id).trans (if_pos hid.symm)⟩
  rw [hstate, after_eq_column hd, (Duty.sends_of_plan hp).2.1]

theorem done_of_advance (hv : v.Serves holder span) (hsent : v.Remembers sent)
    (hd : Duty.of? side n.state = some d) (hs : d.sends = false) (hn : (v.desk w).Has n)
    (messageId : String) (clock : Moment) :
    Done v sent side ctx messageId clock n w ((d.begin ctx messageId clock n).run v w) := by
  obtain ⟨-, moved, hmoved, hb⟩ | ⟨hs', -⟩ := Duty.begin_cases hd ctx messageId clock
  swap
  · rw [hs] at hs'
    cases hs'
  have hgoal : Moves side n.state d.goal := (Duty.moves_iff hd).2 ⟨hs, rfl⟩
  obtain ⟨hend, hstored⟩ := run_storing hv (Negotiation.id_of_moveTo hmoved) hn
  rw [hb]
  refine ⟨⟨_, hend, rfl⟩, ?_, fun h => absurd hgoal (h _), fun h => absurd hgoal (h _),
    fun h => absurd hgoal (h _)⟩
  intro target htarget
  obtain ⟨-, rfl⟩ := (Duty.moves_iff hd).1 htarget
  refine ⟨Handling.sent_run_of_outgoing hsent rfl w, hend, ?_⟩
  obtain ⟨-, rfl⟩ := Negotiation.moveTo_eq_ok_iff.1 hmoved
  rw [if_neg (Duty.goal_ne hd)] at hstored ⊢
  exact hstored

theorem not_moves (hd : Duty.of? side n.state = some d) (hs : d.sends = true) (target : State) :
    ¬Moves side n.state target := by
  intro h
  rw [((Duty.moves_iff hd).1 h).1] at hs
  cases hs

theorem done_of_send (hv : v.Serves holder span) (hsent : v.Remembers sent)
    (hd : Duty.of? side n.state = some d) (hp : d.plan ctx messageId clock n = .send s)
    (hn : ∀ u, v.Passes w u → (v.desk u).Has n) :
    Done v sent side ctx messageId clock n w ((d.begin ctx messageId clock n).run v w) := by
  have hmoves := not_moves hd (Duty.sends_of_plan hp).1
  obtain ⟨head, hid, haddr, hasks⟩ := Duty.asked_of_plan hd hp
  have hlacks := Duty.not_lacks_of_asks haddr hasks
  by_cases hearly : Sending.TooEarly ctx.policy n clock
  · rw [Sending.begin_of_early hp hearly]
    obtain ⟨hend, hstored⟩ := run_early hv s.message (s.attempt ctx.policy n) (hn w .start)
    exact ⟨⟨_, hend, rfl⟩, fun target h => absurd h (hmoves target), fun _ h => absurd h hlacks,
      fun _ _ _ => ⟨hend, Handling.sent_run_of_outgoing hsent rfl w, hstored⟩,
      fun _ _ h => absurd hearly h⟩
  · rw [Sending.begin_of_due hp hearly, Handling.run_sending]
    obtain ⟨hend, n', hsettle, hstate, hstored⟩ := run_answered hv hd hp
      (hn _ (.answered s.message)) (hn _ (.found s.message)) (v.dispatch s.message w).1
    refine ⟨⟨_, hend, rfl⟩, fun target h => absurd h (hmoves target), fun _ h => absurd h hlacks,
      fun _ _ h => absurd h hearly, fun _ _ _ => ⟨head, s.message, s.success, s.agreement, hid,
        haddr, hasks, hend, ?_, n', _, hstored, hstate, fun content h =>
          settle_taken hd hp hsettle h⟩⟩
    rw [Handling.sent_run_of_outgoing hsent rfl, hsent.sent_dispatch]

theorem done_of_refuse (hd : Duty.of? side n.state = some d) (hs : d.sends = true)
    (hp : ∀ s, d.plan ctx messageId clock n ≠ .send s) :
    Done v sent side ctx messageId clock n w ((d.begin ctx messageId clock n).run v w) := by
  obtain ⟨verdict, hrefusal, hb⟩ := Duty.begin_of_not_send hs hp
  have hlacks : n.Lacks ctx clock := by
    by_contra hl
    obtain ⟨s, hs⟩ := Duty.exists_plan_of_not_lacks hd hs hl messageId
    exact hp s hs
  rw [hb, Handling.run_finished]
  exact ⟨⟨_, rfl, hrefusal.isTransition_eq⟩, fun target h => absurd h (not_moves hd hs target),
    fun _ _ => ⟨⟨_, hrefusal, rfl⟩, rfl, rfl⟩, fun _ h => absurd hlacks h,
    fun _ h => absurd hlacks h⟩

/-- **The handlers of a manager do as the table says**: for a negotiation in the state of one of its
processors that stays stored as it was handed out, and that nobody else holds.  The clocks and the
answer may be anything, and other records may change meanwhile. -/
theorem handlers_obey {p : Processor} (hv : v.Serves holder span) (hsent : v.Remembers sent)
    (hp : p ∈ (Manager.mk side ctx).processors) (hstate : n.state = p.state)
    (hn : ∀ u, v.Passes w u → (v.desk u).Has n) (messageId : String) (clock : Moment) :
    Done v sent side ctx messageId clock n w ((p.handler messageId clock n).run v w) := by
  obtain ⟨⟨st, d⟩, hd, rfl⟩ := List.mem_map.1 hp
  have hd : Duty.of? side n.state = some d := hstate ▸ Duty.of?_of_mem_duties hd
  cases hs : d.sends with
  | false => exact done_of_advance hv hsent hd hs (hn w .start) messageId clock
  | true =>
    by_cases hplan : ∃ s, d.plan ctx messageId clock n = .send s
    · obtain ⟨s, hplan⟩ := hplan
      exact done_of_send hv hsent hd hplan hn
    · exact done_of_refuse hd hs (not_exists.1 hplan)

/-- An offer that the other side takes. -/
theorem handlers_obey_offering :
    let v := Workshop.steady ⟨5000, 5000, "message-1", .ok (.succeeded default)⟩
      ⟨"worker", 60000, default⟩
    let n := Negotiation.specimen
    let p : Processor := ⟨.offering, 0, Duty.sendOffer.begin default⟩
    let w := (Ledger.empty.put ⟨n, some ⟨"worker", 4000, 60000⟩⟩, [])
    let r := (p.handler "message-1" 5000 n).run v w
    v.Serves "worker" 60000 ∧ v.Remembers Prod.snd ∧
    p ∈ (Manager.mk .provider default).processors ∧ n.state = p.state ∧
    (∀ u, v.Passes w u → (v.desk u).Has n) ∧
    r.2.2 = [(.offer ⟨"message-1", "dataspace-protocol-http", "http://consumer", "process-7"⟩
      ⟨"definition:asset:1234", "asset", default⟩, .ok (.succeeded default))] ∧
    ∃ later, r.2.1.record? n.id =
      some ⟨{ n with state := .offered, stateSince := later, updatedAt := later }, none⟩ := by
  intro v n p w r
  have hquiet := Workshop.quiet_steady ⟨5000, 5000, "message-1", .ok (.succeeded default)⟩
    ⟨"worker", 60000, default⟩
  have hv : v.Serves "worker" 60000 := hquiet.toServes
  have hsent : v.Remembers Prod.snd := hquiet.remembers
  have hp : p ∈ (Manager.mk .provider default).processors := List.mem_cons_self
  have hn : ∀ u, v.Passes w u → (v.desk u).Has n := by
    have hw : ∃ lease, w.1.record? n.id = some ⟨n, lease⟩ ∧
        (Record.mk n lease).blocker? "worker" 5000 = none :=
      ⟨some ⟨"worker", 4000, 60000⟩, by decide +kernel, by decide⟩
    rintro u (_ | _ | _)
    · exact hw
    · exact hw
    · exact hw
  have hdone := handlers_obey hv hsent hp rfl hn "message-1" 5000
  have hmoves (target : State) : ¬Moves .provider n.state target := nofun
  have hlacks : ¬n.Lacks default 5000 := by
    rintro (h | h | h | ⟨h, -⟩ | ⟨-, h⟩ | ⟨-, -, h, -⟩ | ⟨-, -, h, -⟩) <;>
      exact absurd h (by decide)
  have hlate : ¬Sending.TooEarly (default : Context).policy n 5000 :=
    fun h => absurd h.1 (by decide)
  obtain ⟨⟨id, protocol, address, processId⟩, m, success, a?, hid, haddr, hasks, -, hnews, n',
    later, hstored, -, htaken⟩ := hdone.sends hmoves hlacks hlate
  obtain rfl : id = "message-1" := hid
  obtain rfl : protocol = "dataspace-protocol-http" := haddr.protocol_eq
  obtain rfl : address = "http://consumer" := haddr.address_eq
  obtain rfl : processId = "process-7" := haddr.processId_eq
  have hoffer : n.offers.getLast? = some ⟨"definition:asset:1234", "asset", default⟩ := rfl
  cases hasks with
  | offering ho =>
    obtain rfl := Option.some.inj (hoffer.symm.trans ho)
    refine ⟨hv, hsent, hp, rfl, hn, hnews, later, ?_⟩
    rw [htaken default rfl] at hstored
    exact hstored

end Table

end Parley
