import Parley.Proofs.Handling.Duty

/-!
# The making of agreements

Which duty makes an agreement and what it is made of, and which duty needs one to be there.

* `agreement_of_plan` : only the message by which the provider agrees carries an agreement, and what
  it carries is recorded with it.
* `agreementOf_eq_ok_cases` : the agreement there is, or one made of the last offer and the moment.
* `agreementOf_congr` : so it depends on the offers, the other participant and the second.
* `agreementOf_eq_error` : what can stand in the way of an agreement.
* `plan_eq_refuse_of_begin` : a handler that fails at once had nothing planned.
* `agreement_none_of_begin` : an agreement is missing only to who closes a contract without one.
-/

namespace Parley

/-- The agreement that a message carries. -/
def Message.agreement? : Message → Option Agreement
  | .agreement _ a => some a
  | _ => none

theorem Agreement.eq_of_make {a b : Agreement} (h : a.make = .ok b) : b = a := by
  unfold make at h
  split_ifs at h
  cases h
  rfl

namespace Duty

variable {side : Side} {st : State} {d : Duty} {ctx : Context} {messageId : String}
  {now later : Moment} {n m : Negotiation} {s : Sending} {a b : Agreement}

theorem eq_sendAgreement_iff (h : of? side st = some d) : d = .sendAgreement ↔ st = .agreeing := by
  cases side <;> cases st <;> cases h <;> decide

theorem eq_finalizing_of_sendFinalization (h : of? side st = some .sendFinalization) :
    st = .finalizing := by
  cases side <;> cases st <;> first | rfl | cases h

theorem sendWith_eq_send {f : Header → Sending} (h : sendWith n messageId f = .send s) :
    ∃ head, s = f head := by
  unfold sendWith at h
  split at h
  · cases h; exact ⟨_, rfl⟩
  · cases h

theorem sendWith_ne_missingAgreement {f : Header → Sending} {id : String} :
    sendWith n messageId f ≠ .refuse (.missingAgreement id) := by
  unfold sendWith
  split <;> simp

/-! ### What is sent -/

/-- **Only one kind of message carries an agreement**, the one by which the provider agrees, and
what it carries is what is recorded when it was taken. -/
theorem agreement_of_plan (hp : d.plan ctx messageId now n = .send s) :
    s.message.agreement? = s.agreement ∧
    ((d ≠ .sendAgreement ∧ s.agreement = none) ∨
      (d = .sendAgreement ∧ ∃ a, s.agreement = some a ∧
        agreementOf ctx now n = .ok (some a))) := by
  cases d with
  | takeRequest | beginFinalizing | beginRequesting | beginVerifying => cases hp
  | sendAcceptance | sendApproval | sendTermination =>
    obtain ⟨head, rfl⟩ := sendWith_eq_send hp
    exact ⟨rfl, .inl ⟨by decide, rfl⟩⟩
  | sendOffer | sendRequest =>
    simp only [plan] at hp
    split at hp
    · cases hp
    · obtain ⟨head, rfl⟩ := sendWith_eq_send hp
      exact ⟨rfl, .inl ⟨by decide, rfl⟩⟩
  | sendFinalization =>
    simp only [plan] at hp
    split at hp
    · cases hp
    · obtain ⟨head, rfl⟩ := sendWith_eq_send hp
      exact ⟨rfl, .inl ⟨by decide, rfl⟩⟩
  | sendAgreement =>
    simp only [plan] at hp
    split at hp
    · cases hp
    · cases hp
    · next a ha =>
      obtain ⟨head, rfl⟩ := sendWith_eq_send hp
      exact ⟨rfl, .inr ⟨rfl, a, rfl, ha⟩⟩

/-! ### What is agreed -/

theorem agreementOf_of_some (h : n.agreement = some a) : agreementOf ctx now n = .ok (some a) := by
  rw [agreementOf, h]

theorem makeAgreement_eq_ok (h : makeAgreement ctx now n = .ok (some a)) :
    ∃ o c, n.lastOffer? = some o ∧ ContractId.parse o.id = .ok c ∧
      a = ⟨c.derive.text, ctx.participantId, n.counterPartyId, now.seconds, o.assetId,
        o.policy⟩ := by
  unfold makeAgreement at h
  split at h
  · cases h
  · next o ho =>
    split at h
    · cases h
    · next c hc =>
      split at h
      · next a' ha =>
        cases h
        exact ⟨o, c, ho, hc, Agreement.eq_of_make ha⟩
      · cases h

theorem agreementOf_eq_ok_cases (h : agreementOf ctx now n = .ok (some a)) :
    n.agreement = some a ∨ (n.agreement = none ∧ makeAgreement ctx now n = .ok (some a)) := by
  unfold agreementOf at h
  split at h
  · next b hb => cases h; exact .inl hb
  · next hnone => exact .inr ⟨hnone, h⟩

theorem agreementOf_congr (ho : m.offers = n.offers) (hc : m.counterPartyId = n.counterPartyId)
    (ha : m.agreement = n.agreement) (h : agreementOf ctx now m = .ok (some a)) :
    agreementOf ctx now n = .ok (some a) := by
  rcases agreementOf_eq_ok_cases h with hsome | ⟨hnone, hmake⟩
  · exact agreementOf_of_some (ha ▸ hsome)
  · have hlast : m.lastOffer? = n.lastOffer? := by rw [Negotiation.lastOffer?, ho]; rfl
    rw [agreementOf, ← ha, hnone]
    show makeAgreement ctx now n = _
    obtain ⟨o, c, hm, hparse, rfl⟩ := makeAgreement_eq_ok hmake
    simp only [makeAgreement, hm, hparse, hc] at hmake
    simp only [makeAgreement, ← hlast, hm, hparse, hc]
    exact hmake

/-- Two agreements that are made of one negotiation differ in their dates at most. -/
theorem eq_of_agreementOf (ha : agreementOf ctx now n = .ok (some a))
    (hb : agreementOf ctx later n = .ok (some b)) (hdate : a.signedAt = b.signedAt) : a = b := by
  rcases agreementOf_eq_ok_cases ha with hsome | ⟨hnone, hmake⟩
  · rw [agreementOf_of_some hsome] at hb
    exact Option.some.inj (Except.ok.inj hb)
  · obtain hsome | ⟨-, hmake'⟩ := agreementOf_eq_ok_cases hb
    · rw [hnone] at hsome
      cases hsome
    · obtain ⟨o, c, ho, hc, rfl⟩ := makeAgreement_eq_ok hmake
      obtain ⟨o', c', ho', hc', rfl⟩ := makeAgreement_eq_ok hmake'
      obtain rfl : o = o' := by rw [ho] at ho'; exact Option.some.inj ho'
      obtain rfl : c = c' := by rw [hc] at hc'; exact Except.ok.inj hc'
      have hdate : now.seconds = later.seconds := hdate
      rw [hdate]

/-! ### What is missing -/

theorem agreementOf_eq_error {e : HandlingError} (h : agreementOf ctx now n = .error e) :
    e = .missingOffer n.id ∨ ∃ e', e = .agreement e' := by
  unfold agreementOf makeAgreement at h
  split at h
  · cases h
  split at h
  · cases h
    exact .inl rfl
  split at h
  · cases h
  split at h
  · cases h
  · cases h
    exact .inr ⟨_, rfl⟩

theorem plan_eq_refuse_missingAgreement {id : String}
    (h : d.plan ctx messageId now n = .refuse (.missingAgreement id)) :
    d = .sendFinalization ∧ n.agreement = none := by
  cases d with
  | takeRequest | beginFinalizing | beginRequesting | beginVerifying => cases h
  | sendAcceptance | sendApproval | sendTermination => exact absurd h sendWith_ne_missingAgreement
  | sendOffer | sendRequest =>
    simp only [plan] at h
    split at h
    · cases h
    · exact absurd h sendWith_ne_missingAgreement
  | sendFinalization =>
    simp only [plan] at h
    split at h
    · next hnone => exact ⟨rfl, hnone⟩
    · exact absurd h sendWith_ne_missingAgreement
  | sendAgreement =>
    simp only [plan] at h
    split at h
    · next e he =>
      cases h
      obtain hoffer | ⟨e', he'⟩ := agreementOf_eq_error he
      · cases hoffer
      · cases he'
    · cases h
    · exact absurd h sendWith_ne_missingAgreement

/-- A handler that fails at once, and not because its move is refused, was to fail by plan. -/
theorem plan_eq_refuse_of_begin {e : HandlingError}
    (h : (d.begin ctx messageId now n).verdict? = some (.failed e))
    (he : ∀ e', e ≠ .transition e') : d.plan ctx messageId now n = .refuse e := by
  unfold Duty.begin at h
  cases hp : d.plan ctx messageId now n with
  | advance target =>
    rw [hp] at h
    simp only [Plan.begin, Handling.advance] at h
    split at h
    · cases h
    · cases h
      exact absurd rfl (he _)
  | send s => rw [hp] at h; cases h
  | skip => rw [hp] at h; cases h
  | refuse e' => rw [hp] at h; cases h; rfl

/-- **An agreement is missing only where a contract is to be closed** that carries none. -/
theorem agreement_none_of_begin {id : String}
    (h : (d.begin ctx messageId now n).verdict? = some (.failed (.missingAgreement id))) :
    d = .sendFinalization ∧ n.agreement = none :=
  plan_eq_refuse_missingAgreement (plan_eq_refuse_of_begin h fun _ => nofun)

end Duty

end Parley
