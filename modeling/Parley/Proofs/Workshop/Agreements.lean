import Parley.Proofs.Handling.Agreement
import Parley.Proofs.Workshop.Shifts

/-!
# Agreements are kept

From the moment on at which the provider's agreement was taken, a negotiation carries an agreement,
and it is always the same one.

* `Duty.Makes.agreement_cases` : what is stored carries the agreement that was there, unless it is
  stored that an agreement was taken.
* `Ledger.Signed` : the negotiations that need an agreement carry one.
* `agreements_kept` : whoever works on the ledger, one after the other, it stays so, no agreement is
  changed, and the closing of a contract never fails for want of one.
-/

namespace Parley

/-- The states in which there must be an agreement. -/
def State.binds : State → Bool
  | agreed | verifying | verified | finalizing | finalized => true
  | _ => false

/-- The negotiation carries an agreement if it is in a state in which there must be one. -/
def Negotiation.IsSigned (n : Negotiation) : Prop :=
  n.state.binds = true → n.agreement.isSome = true

/-- Every negotiation that is stored carries an agreement if it must. -/
def Ledger.Signed (l : Ledger) : Prop := ∀ id n, l.find? id = some n → n.IsSigned

namespace Duty

variable {ctx : Context} {side : Side} {d : Duty} {st : State} {n changed : Negotiation}
  {answer : Option Answer}

/-- The states that bind are entered from states that bind, or with an agreement. -/
theorem binds_of_goal (hd : of? side st = some d) (h : d.goal.binds = true) :
    st.binds = true ∨ d = .sendAgreement := by
  cases side <;> cases st <;> cases hd <;> first
    | exact .inl rfl
    | exact .inr rfl
    | cases h

theorem binds_of_after (hd : of? side st = some d) {r : Route}
    (h : (d.after st r).binds = true) :
    st.binds = true ∨ (d = .sendAgreement ∧ d.after st r = .agreed) := by
  cases r with
  | success content =>
    rcases binds_of_goal hd h with hst | rfl
    · exact .inl hst
    · exact .inr ⟨rfl, rfl⟩
  | failure cause => exact .inl h
  | fatal f => cases h
  | exhausted cause =>
    rw [after] at h
    split_ifs at h <;> cases h

/-- The agreement that was sent is recorded with the answer that it was taken, and with no other. -/
theorem agreement_of_settle {messageId : String} {now later : Moment} {s : Sending}
    {policy : RetryPolicy} {a : Answer} (hd : of? side n.state = some .sendAgreement)
    (hp : sendAgreement.plan ctx messageId now n = .send s)
    (h : (s.attempt policy n).settle later a n = .ok changed) :
    (changed.agreement = n.agreement ∧ changed.state ≠ .agreed) ∨
    (changed.state = .agreed ∧ changed.agreement = s.agreement) := by
  obtain ⟨moved, m, hmoved, hsettle, hm⟩ := settle_cases hd hp rfl policy later a
  obtain rfl : changed = m := by rw [h] at hsettle; exact Except.ok.inj hsettle
  have hstate := Negotiation.state_of_moveTo hmoved
  have hagreement := Negotiation.agreement_of_moveTo hmoved
  have hagreeing := (eq_sendAgreement_iff hd).1 rfl
  -- what was sent is recorded on success, and on no other route
  cases hr : Attempt.route policy n.stateCount a with
  | success content =>
    rw [hr] at hm hstate
    replace hm : changed = s.sign moved := hm
    obtain ⟨-, ⟨hne, -⟩ | ⟨-, b, hb, -⟩⟩ := agreement_of_plan hp
    · exact absurd rfl hne
    · refine .inr ⟨?_, ?_⟩
      · rw [hm, Sending.state_sign, hstate]
        rfl
      · rw [hm, Sending.agreement_sign, hb]
        rfl
  | failure cause | fatal f | exhausted cause =>
    rw [hr] at hm hstate
    replace hm : changed = moved.withDetail _ := hm
    refine .inl ⟨by rw [hm, Negotiation.agreement_withDetail, hagreement], ?_⟩
    rw [hm, Negotiation.state_withDetail, hstate]
    simp [after, hagreeing]

/-- **The agreement that is stored** is the one that was there, unless it is stored that the
provider's agreement was taken: then it is the one that was sent. -/
theorem Makes.agreement_cases (h : d.Makes ctx n answer changed)
    (hd : of? side n.state = some d) :
    (changed.agreement = n.agreement ∧ ¬ (d = .sendAgreement ∧ changed.state = .agreed)) ∨
    (d = .sendAgreement ∧ changed.state = .agreed ∧ ∃ now a,
      agreementOf ctx now n = .ok (some a) ∧ changed.agreement = some a) := by
  cases h with
  | advance hs h =>
    refine .inl ⟨Negotiation.agreement_of_moveTo h, ?_⟩
    rintro ⟨rfl, -⟩
    cases hs
  | @record messageId now later s a changed hp h =>
    obtain ⟨-, ⟨hne, hnone⟩ | ⟨rfl, b, hb, hof⟩⟩ := agreement_of_plan hp
    · -- no agreement was sent
      obtain ⟨moved, m, hmoved, hsettle, hm⟩ := settle_cases hd hp rfl ctx.policy later a
      obtain rfl : changed = m := by rw [h] at hsettle; exact Except.ok.inj hsettle
      have hagreement := Negotiation.agreement_of_moveTo hmoved
      refine .inl ⟨?_, fun hd => hne hd.1⟩
      split_ifs at hm
      · rw [hm, Sending.agreement_sign, hnone, hagreement]
        rfl
      · rw [hm, Negotiation.agreement_withDetail, hagreement]
    · rcases agreement_of_settle hd hp h with ⟨hsame, hst⟩ | ⟨hst, hsent⟩
      · exact .inl ⟨hsame, fun h => hst h.2⟩
      · exact .inr ⟨rfl, hst, now, b, hof, hsent.trans hb⟩

theorem Makes.agreement_eq_of_some (h : d.Makes ctx n answer changed)
    (hd : of? side n.state = some d) {a : Agreement} (ha : n.agreement = some a) :
    changed.agreement = some a := by
  rcases h.agreement_cases hd with ⟨hsame, -⟩ | ⟨-, -, now, b, hof, hb⟩
  · rw [hsame, ha]
  · -- what is sent again is the agreement that is there
    rw [agreementOf_of_some ha] at hof
    rw [hb, ← Except.ok.inj hof]

/-- An agreement comes in with the move by which it is agreed. -/
theorem Makes.gains_agreement (h : d.Makes ctx n answer changed)
    (hd : of? side n.state = some d) (hne : changed.agreement ≠ n.agreement) :
    n.agreement = none ∧ n.state = .agreeing ∧ changed.state = .agreed := by
  rcases h.agreement_cases hd with ⟨hsame, -⟩ | ⟨he, hst, now, b, hof, hb⟩
  · exact absurd hsame hne
  · refine ⟨?_, (eq_sendAgreement_iff hd).1 he, hst⟩
    cases ha : n.agreement with
    | none => rfl
    | some a => exact absurd ((h.agreement_eq_of_some hd ha).trans ha.symm) hne

theorem Makes.isSigned (h : d.Makes ctx n answer changed) (hd : of? side n.state = some d)
    (hn : n.IsSigned) : changed.IsSigned := by
  intro hbinds
  rcases h.agreement_cases hd with ⟨hsame, hnot⟩ | ⟨-, -, now, b, -, hb⟩
  · rw [hsame]
    apply hn
    rcases h.cases hd with ⟨hs, -, hstate, -⟩ | ⟨-, a, -, hstate, -⟩
    · rcases binds_of_goal hd (hstate ▸ hbinds) with hst | rfl
      · exact hst
      · cases hs
    · rcases binds_of_after hd (hstate ▸ hbinds) with hst | ⟨he, hagreed⟩
      · exact hst
      · exact absurd ⟨he, hstate.trans hagreed⟩ hnot
  · rw [hb]
    rfl

end Duty

namespace Member

/-- How the handling ended, once it has. -/
def verdictSoFar? : Member → Option Verdict
  | releasing _ v | settled _ v => some v
  | _ => none

theorem verdictSoFar?_ofHandling (n : Negotiation) (h : Handling) :
    (ofHandling n h).verdictSoFar? = h.verdict? := by
  unfold ofHandling
  split <;> simp_all [verdictSoFar?, Handling.verdict?]

section

variable {ctx : Context} {d : Duty} {holder : String} {c : Chance} {l l' : Ledger} {m m' : Member}
  {es : List Event}

/-- How a handling ended is settled where it begins, or it was stored or delayed. -/
theorem Goes.verdictSoFar?_cases (h : Goes ctx d holder c l m m' l' es) :
    (∃ n, m = .received n) ∨ m'.verdictSoFar? = none ∨ m'.verdictSoFar? = m.verdictSoFar? ∨
      ∃ o, m'.verdictSoFar? = some (.outcome o) := by
  cases h with
  | @begins n | @passes n => exact .inl ⟨n, rfl⟩
  | sends | finds => exact .inr (.inl rfl)
  | stores | delays => exact .inr (.inr (.inr ⟨_, rfl⟩))
  | releases | misses | rests => exact .inr (.inr (.inl rfl))

theorem Goes.verdictSoFar?_of_ended (h : Goes ctx d holder c l m m' l' es) {n : Negotiation}
    {v : Verdict} (he : .ended n v ∈ es) : m'.verdictSoFar? = some v := by
  cases h with
  | begins | passes | finds | delays | rests => cases he
  | sends => cases List.mem_singleton.1 he
  | stores =>
    rcases List.mem_pair.1 he with he | he
    · cases he
    · cases he
      rfl
  | releases | misses =>
    cases List.mem_singleton.1 he
    rfl

end

end Member

namespace Workshop

variable {ι : Type} {workers : ι → Worker} {W : Workshop ι}

/-- No handling failed for want of an agreement. -/
def Unfailing (W : Workshop ι) : Prop := ∀ w place j, W.job? w place = some j →
  ∀ i, j.member.verdictSoFar? ≠ some (.failed (.missingAgreement i))

namespace Orderly

theorem unfailing_proceed {t : Turn ι} (ho : W.Orderly workers) (hs : W.ledger.Signed)
    (hu : W.Unfailing) {place : ℕ} {j : Job} (hj : W.job? t.worker place = some j) (i : String) :
    (W.proceed workers t j).1.verdictSoFar? ≠ some (.failed (.missingAgreement i)) := by
  obtain ⟨d, hd, hhandler, hgoes⟩ := ho.goes hj
  rcases hgoes.verdictSoFar?_cases with ⟨n, hn⟩ | hnone | hsame | ⟨o, ho⟩
  · -- where the handling begins, the copy is what is stored
    have hstored : W.ledger.find? j.id = some j.member.negotiation :=
      ho.find?_of_holds hj (by rw [hn]; rfl)
    have hstep : (W.proceed workers t j).1 =
        .ofHandling n (d.begin (workers t.worker).manager.context t.chance.messageId
          t.chance.clock n) := by
      rw [Workshop.proceed, hn, hhandler]
      rfl
    rw [hstep, Member.verdictSoFar?_ofHandling]
    intro hmissing
    obtain ⟨rfl, hnone⟩ := Duty.agreement_none_of_begin hmissing
    rw [hn] at hd hstored
    have hfinalizing : n.state = .finalizing := Duty.eq_finalizing_of_sendFinalization hd
    have hsigned : n.agreement.isSome = true := hs _ n hstored (by rw [hfinalizing]; rfl)
    rw [hnone] at hsigned
    cases hsigned
  · rw [hnone]; nofun
  · rw [hsame]; exact hu _ _ j hj i
  · rw [ho]; simp

variable [DecidableEq ι]

/-- In a turn an agreement that was not there comes in with the move by which it is agreed, and no
other agreement changes. -/
theorem agreement_take (ho : W.Orderly workers) (t : Turn ι) {id : String} {n m : Negotiation}
    (hn : W.ledger.find? id = some n) (hm : (W.take workers t).ledger.find? id = some m)
    (hne : m.agreement ≠ n.agreement) :
    n.agreement = none ∧ n.state = .agreeing ∧ m.state = .agreed ∧
      ∃ answer, (t.worker, .saved n answer m) ∈ W.events workers t := by
  rcases ho.find?_take t id with
    hsame | ⟨d, n', answer, changed, hn', hd, hmakes, hchanged, hsaved⟩
  · rw [hsame, hn] at hm
    cases hm
    exact absurd rfl hne
  · obtain rfl : n = n' := by rw [hn] at hn'; exact Option.some.inj hn'
    obtain rfl : m = changed := by rw [hm] at hchanged; exact Option.some.inj hchanged
    obtain ⟨hnone, hagreeing, hagreed⟩ := hmakes.gains_agreement hd hne
    exact ⟨hnone, hagreeing, hagreed, answer, hsaved⟩

theorem signed_run (ho : W.Orderly workers)
    (hinj : Function.Injective fun w => (workers w).holder) {ts : List (Turn ι)}
    (ht : W.Timely workers ts) (hs : W.ledger.Signed) : (W.run workers ts).ledger.Signed := by
  intro id
  refine ho.run_induct (Q := fun o => ∀ n, o = some n → n.IsSigned) ?_ hinj ht (hs id)
  rintro w d n answer changed hd hmakes hn _ ⟨rfl⟩
  exact hmakes.isSigned hd (hn n rfl)

theorem unfailing_take (ho : W.Orderly workers) (hs : W.ledger.Signed) (hu : W.Unfailing)
    (t : Turn ι) : (W.take workers t).Unfailing ∧
      ∀ w n i, (w, .ended n (.failed (.missingAgreement i))) ∉ W.events workers t := by
  refine ⟨fun w place j hj i => ?_, fun w n i he => ?_⟩
  · rcases job?_take_cases hj with hbefore | ⟨rfl, p, -, n, -, rfl⟩ | ⟨rfl, j', hj', rfl⟩
    · exact hu w place j hbefore i
    · exact nofun
    · exact ho.unfailing_proceed hs hu hj' i
  · obtain ⟨-, place, j, hj, he⟩ := exists_job_of_mem_events he
    obtain ⟨d, -, -, hgoes⟩ := ho.goes hj
    exact ho.unfailing_proceed hs hu hj i (hgoes.verdictSoFar?_of_ended he)

theorem not_missing_run (ho : W.Orderly workers)
    (hinj : Function.Injective fun w => (workers w).holder) {ts : List (Turn ι)}
    (ht : W.Timely workers ts) (hs : W.ledger.Signed) (hu : W.Unfailing) (w : ι)
    (n : Negotiation) (i : String) :
    (w, .ended n (.failed (.missingAgreement i))) ∉ W.history workers ts := by
  induction ts generalizing W with
  | nil => exact List.not_mem_nil
  | cons t ts ih =>
    obtain ⟨hu', hevents⟩ := ho.unfailing_take hs hu t
    -- what is there after this turn still carries the agreements that it must
    have hfirst : W.Timely workers [t] := ⟨ht.1, trivial⟩
    have hs' : (W.take workers t).ledger.Signed := ho.signed_run hinj hfirst hs
    rw [history, List.mem_append]
    rintro (hmem | hmem)
    · exact hevents w n i hmem
    · exact ih (ho.take hinj ht.1) ht.2 hs' hu' hmem

end Orderly

/-- **Agreements are kept.**  Of a ledger in which every negotiation carries an agreement that must
have one, this stays true whoever works on it one after the other, and an agreement that is there
stays as it is.  In a turn after that an agreement can only come in where the move by which it is
agreed is stored, and no handling ends because an agreement is missing. -/
theorem agreements_kept {l : Ledger} (hl : l.Signed) (ss : List Shift) :
    (l.afterShifts ss).Signed ∧
    (∀ id n a, l.find? id = some n → n.agreement = some a →
      ∃ m, (l.afterShifts ss).find? id = some m ∧ m.agreement = some a) ∧
    ∀ (k : Worker) (ts : List (Turn Unit)),
      let W := (opening (l.afterShifts ss)).run (fun _ => k) ts
      (∀ t id n m, W.ledger.find? id = some n →
        (W.take (fun _ => k) t).ledger.find? id = some m → m.agreement ≠ n.agreement →
        n.agreement = none ∧ n.state = .agreeing ∧ m.state = .agreed ∧
          ∃ answer, ((), .saved n answer m) ∈ W.events (fun _ => k) t) ∧
      ∀ w n i, (w, .ended n (.failed (.missingAgreement i))) ∉
        (opening (l.afterShifts ss)).history (fun _ => k) ts := by
  have hsigned : (l.afterShifts ss).Signed := by
    intro id
    refine Ledger.afterShifts_induct (Q := fun o => ∀ n, o = some n → n.IsSigned) ?_ (hl id)
    rintro k d n answer changed hd hmakes hn _ ⟨rfl⟩
    exact hmakes.isSigned hd (hn n rfl)
  refine ⟨hsigned, fun id n a hn ha => ?_, fun k ts => ⟨fun t id n m => ?_, ?_⟩⟩
  · refine Ledger.afterShifts_induct
      (Q := fun o => ∃ m : Negotiation, o = some m ∧ m.agreement = some a) ?_ ⟨n, hn, ha⟩
    rintro k d n answer changed hd hmakes ⟨_, ⟨rfl⟩, ha⟩
    exact ⟨changed, rfl, hmakes.agreement_eq_of_some hd ha⟩
  · exact (orderly_run_opening k _ ts).agreement_take t
  · refine (orderly_opening _).not_missing_run (fun _ _ _ => rfl) (timely_of_subsingleton _ _ ts)
      hsigned ?_
    rintro w place j ⟨⟩

/-- A contract that the provider is to close. -/
def closing : Negotiation :=
  { Negotiation.specimen with
    state := .finalizing
    agreement := some ⟨"definition:asset:9999", "provider", "consumer", 1, "asset", default⟩ }

/-- A request that the provider is to agree to. -/
def agreeing : Negotiation :=
  { Negotiation.specimen with id := "negotiation-2", state := .agreeing }

/-- The ledger with both in it, where somebody else holds the request for a minute. -/
def closingLedger : Ledger :=
  (Ledger.empty.put ⟨closing, none⟩).put ⟨agreeing, some ⟨"worker-b", 1000, 60000⟩⟩

theorem signed_closingLedger : closingLedger.Signed := by
  intro id n hn hbinds
  rw [closingLedger, Ledger.find?_put, Ledger.find?_put] at hn
  split_ifs at hn
  · cases hn
    cases hbinds
  · cases hn
    rfl
  · cases hn

/-- A provider whose messages are taken. -/
def closer : Worker := ⟨"worker", 60000, .provider, "provider", {}, 5, false⟩

/-- A turn of the provider. -/
def closerTurn (now : Moment) (act : Act) : Turn Unit :=
  ⟨(), act, now, now, "message-1", .ok (.succeeded .null)⟩

/-- The provider leases so many batches and goes so many steps with the last of them. -/
def closerTurns (now : Moment) (leases steps : ℕ) : List (Turn Unit) :=
  List.map (closerTurn now)
    (.start :: (List.replicate leases .lease ++ List.replicate steps (.proceed 0)))

/-- The provider closes the contract. -/
def closingShift : Shift where
  worker := closer
  turns := closerTurns 5000 4 4

/-- Later it takes up the request, up to the turn in which the agreement is stored. -/
def agreeingTurns : List (Turn Unit) := closerTurns 90000 2 3

theorem agreements_kept_closing :
    let l := closingLedger.afterShifts [closingShift]
    let W := (opening l).run (fun _ => closer) agreeingTurns
    let t := closerTurn 90000 (.proceed 0)
    closingLedger.Signed ∧ l.Signed ∧
    (∃ m, l.find? "negotiation-1" = some m ∧ m.state = .finalized ∧
      m.agreement = closing.agreement) ∧
    (∃ n m, (W.ledger.find? "negotiation-2" = some n ∧
        (W.take (fun _ => closer) t).ledger.find? "negotiation-2" = some m ∧
        m.agreement ≠ n.agreement) ∧
      n.agreement = none ∧ n.state = .agreeing ∧ m.state = .agreed ∧
      ∃ answer, ((), .saved n answer m) ∈ W.events (fun _ => closer) t) ∧
    ∀ w n i, (w, .ended n (.failed (.missingAgreement i))) ∉
      (opening l).history (fun _ => closer) (agreeingTurns ++ [t]) := by
  intro l W t
  obtain ⟨hsigned, hkept, hlater⟩ := agreements_kept signed_closingLedger [closingShift]
  refine ⟨signed_closingLedger, hsigned, ?_, ?_, (hlater closer (agreeingTurns ++ [t])).2⟩
  · obtain ⟨m, hm, ha⟩ := hkept "negotiation-1" closing _ (by decide +kernel) rfl
    have hstate : (l.find? "negotiation-1").map (·.state) = some .finalized := by decide +kernel
    rw [hm] at hstate
    exact ⟨m, hm, Option.some.inj hstate, ha⟩
  · have hbefore : (W.ledger.find? "negotiation-2").any (·.agreement.isNone) := by decide +kernel
    have hafter : ((W.take (fun _ => closer) t).ledger.find? "negotiation-2").any
        (·.agreement.isSome) := by decide +kernel
    obtain ⟨n, hn, hnone⟩ := (Option.any_eq_true _ _).1 hbefore
    obtain ⟨m, hm, hsome⟩ := (Option.any_eq_true _ _).1 hafter
    have hne : m.agreement ≠ n.agreement := fun he => by
      rw [he, ← Option.not_isNone, hnone] at hsome
      cases hsome
    exact ⟨n, m, ⟨hn, hm, hne⟩, (hlater closer agreeingTurns).1 t _ n m hn hm hne⟩

end Workshop

end Parley
