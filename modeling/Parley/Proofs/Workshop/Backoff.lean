import Parley.Proofs.Workshop.Attempts
import Parley.Proofs.Workshop.Signing

/-!
# Retries keep their distance

A message that was not taken is sent again only when the delay since then is over, however the clock
moves from tick to tick.

* `saved_tick` : what is stored after a failure stays to the end of the tick, and carries its
  reading.
* `ticks_of_not_resumes` : it stays until a tick in which a message is to be sent again.
* `retries_keep_distance` : what is known of the ticks after a failure.
-/

namespace Parley

namespace Negotiation

@[simp] theorem stateSince_withDetail (detail : Option String) (n : Negotiation) :
    (n.withDetail detail).stateSince = n.stateSince := by cases detail <;> rfl

end Negotiation

namespace Sending

@[simp] theorem stateSince_sign (s : Sending) (n : Negotiation) :
    (s.sign n).stateSince = n.stateSince := by
  unfold sign
  cases s.agreement <;> rfl

end Sending

namespace Attempt

theorem dueAt_of_stateCount {n : Negotiation} {since : Moment} {retries : UInt32}
    (hsince : n.stateSince = since) (h1 : 1 ≤ retries)
    (hcount : n.stateCount.toNat = retries.toNat + 1) (policy : RetryPolicy) :
    dueAt policy n = since.later (policy.delayFor retries) := by
  have h1' : 1 ≤ retries.toNat := h1
  have hretry : n.isRetry = true := by
    refine decide_eq_true (UInt32.lt_iff_toNat_lt.2 ?_)
    show 1 < n.stateCount.toNat
    omega
  have hsub : n.stateCount - 1 = retries := by
    refine UInt32.toNat_inj.1 ?_
    have h1n : 1 ≤ n.stateCount := UInt32.le_iff_toNat_le.2 (by
      show 1 ≤ n.stateCount.toNat
      omega)
    rw [UInt32.toNat_sub_of_le _ _ h1n]
    show n.stateCount.toNat - 1 = retries.toNat
    omega
  rw [dueAt, if_pos hretry, hsub, hsince]

end Attempt

namespace Duty

variable {d : Duty} {ctx : Context} {messageId : String} {now : Moment} {n : Negotiation}
  {s : Sending}

theorem stateSince_of_settle {side : Side} (hd : of? side n.state = some d)
    (hp : d.plan ctx messageId now n = .send s) {policy : RetryPolicy} {later : Moment} {a : Answer}
    {changed : Negotiation} (h : (s.attempt policy n).settle later a n = .ok changed) :
    changed.stateSince = later := by
  obtain ⟨moved, m, hmoved, hm, hcases⟩ := settle_cases hd hp rfl policy later a
  obtain rfl : changed = m := by rw [h] at hm; exact Except.ok.inj hm
  have hsince : moved.stateSince = later := by
    obtain ⟨-, rfl⟩ := Negotiation.moveTo_eq_ok_iff.1 hmoved
    rfl
  split_ifs at hcases
  · rw [hcases, Sending.stateSince_sign, hsince]
  · rw [hcases, Negotiation.stateSince_withDetail, hsince]

end Duty

namespace Event

/-- An answer was recorded in a negotiation: the copy that was handed out, and what was stored. -/
def records (copy changed : Negotiation) : Event → Bool
  | saved n (some _) m => n = copy ∧ m = changed
  | _ => false

theorem eq_saved_of_records {e : Event} {copy changed : Negotiation}
    (h : e.records copy changed = true) : ∃ a, e = .saved copy (some a) changed := by
  cases e with
  | sent | refused | ended => cases h
  | saved n a m =>
    cases a with
    | none => cases h
    | some a =>
      obtain ⟨rfl, rfl⟩ := of_decide_eq_true h
      exact ⟨a, rfl⟩

end Event

namespace Workshop

variable {k : Worker} {W : Workshop Unit} {t : Turn Unit} {c : Negotiation} {d : Duty}

/-! ### After a failure -/

/-- What is stored in a step is what a duty made of the copy, and the step was the last one. -/
theorem goes_of_saved {ctx : Context} {holder : String} {ch : Chance} {l l' : Ledger}
    {m m' : Member} {noticed : List Event} {n changed : Negotiation} {answer : Option Answer}
    (hgoes : m.Goes ctx d holder ch l m' l' noticed) (h : .saved n answer changed ∈ noticed) :
    m.negotiation = n ∧ d.Makes ctx n answer changed ∧ m' = .settled n (.outcome .processed) ∧
      l' = l.put ⟨changed, none⟩ ∧ m.answer? = answer := by
  cases hgoes with
  | begins | passes | sends | finds | delays | releases | misses | rests => simp at h
  | @stores n' changed' g hm =>
    simp only [List.mem_cons, Event.saved.injEq, List.not_mem_nil, or_false, reduceCtorEq] at h
    obtain ⟨rfl, rfl, rfl⟩ := h
    exact ⟨rfl, hm, rfl, rfl, rfl⟩

/-- What is recorded in a step: the duty of the copy, whose message was answered, made it of what is
stored, at the reading of the worker's clock. -/
theorem recorded {place : ℕ} {j : Job} (hun : W.Underway k) (hj : W.job? () place = some j)
    {n changed : Negotiation} {a : Answer}
    (h : .saved n (some a) changed ∈ W.eventsOf (fun _ => k) t j) :
    j.member.negotiation = n ∧ changed.id = n.id ∧ changed.stateSince = t.chance.clock ∧
    W.proceed (fun _ => k) t j =
      (.settled n (.outcome .processed), W.ledger.put ⟨changed, none⟩) ∧
    ∃ d, Duty.of? k.manager.side n.state = some d ∧ d.sends = true := by
  obtain ⟨d, hd, -, hgoes⟩ := hun.goes (t := t) hj
  obtain ⟨hn, hmakes, hsettled, hledger, hanswer⟩ := goes_of_saved hgoes h
  rw [hn] at hd
  have hsends : d.sends = true := by
    rcases hmakes.cases hd with ⟨-, hno, -⟩ | ⟨hs, -⟩
    · cases hno
    · exact hs
  refine ⟨hn, hmakes.id_eq hd, ?_, Prod.ext hsettled hledger, d, hd, hsends⟩
  -- the reading of the clock is what the answer was recorded with
  obtain ⟨d', hd', -, hfollows⟩ := hun.sound () place j hj
  rw [hn] at hd'
  obtain rfl : d = d' := Option.some.inj (hd.symm.trans hd')
  rcases Member.settle_of_saved h with ⟨n', hm⟩ | ⟨n', m, u, a', current, hm, hsettle⟩
  · rw [hm] at hanswer
    cases hanswer
  · rw [hm] at hfollows hn
    obtain rfl : n' = n := hn
    cases hfollows with
    | attempting hp hfound =>
      obtain rfl := hfound a' current rfl
      exact Duty.stateSince_of_settle hd hp hsettle

/-- **After a failure** a negotiation that is still in its state stays as it was stored until the
end of the tick, and is in the state since the reading of the tick. -/
theorem saved_tick (hb : W.Between k) {τ : Tick} (hτ : τ.IsOf k W) {n changed : Negotiation}
    {a : Answer} (h : ((), .saved n (some a) changed) ∈ W.history (fun _ => k) τ.all)
    (hstate : changed.state = n.state) :
    changed.id = n.id ∧ changed.stateSince = τ.reading ∧
    (W.run (fun _ => k) τ.all).ledger.find? changed.id = some changed ∧
    ∃ d, Duty.of? k.manager.side changed.state = some d ∧ d.sends = true := by
  obtain ⟨hrun, hhistory, -⟩ := hb.tick τ
  rw [hhistory] at h
  rw [hrun]
  obtain ⟨before, t, after, hturns, he⟩ := exists_turn_of_mem_history h
  have hone : ∀ u ∈ before ++ t :: after, u.act ≠ .start := hturns ▸ hτ.one
  obtain ⟨hbefore, hrest⟩ := List.forall_mem_append.1 hone
  obtain ⟨hact, hafter⟩ := List.forall_mem_cons.1 hrest
  have hclock : t.chance.clock = τ.reading :=
    hτ.clock t (hturns ▸ List.mem_append_right _ List.mem_cons_self)
  have hun := hb.underway.run hbefore
  rw [hturns, run_append, run_cons]
  generalize (W.begun k).run (fun _ => k) before = V at hun he
  obtain ⟨-, place, j, hj, hmem⟩ := exists_job_of_mem_events he
  obtain ⟨hn, hid, hsince, hmade, d, hd, hs⟩ := recorded hun hj hmem
  have hopen : j.member.verdict? = none := by
    refine Option.not_isSome_iff_eq_none.1 fun hsome => ?_
    rw [(proceed_of_isSome hsome).2] at hmem
    cases hmem
  have hpassed : V.Passed changed.state := by
    rw [hstate, ← hn]
    exact hun.passed place j hj hopen
  obtain ⟨-, -, hothers⟩ | ⟨hjob, hledger, -⟩ :=
    take_of_unsettled hun.toOrderly hj hopen hact
  · exact absurd (congrArg Negotiation.id hn).symm (hothers _ he)
  · rw [hmade] at hjob hledger
    have hput : (V.take (fun _ => k) t).ledger.find? changed.id = some changed := by
      rw [hledger, Ledger.find?_put]
      exact if_pos rfl
    have hrests := rests_of_settled (orderly_take hun.toOrderly t) hjob hid hput
    have hend := hrests.run (hun.take hact) (hpassed.take hact) hafter
    exact ⟨hid, hsince.trans hclock, hend.stored, d, hstate ▸ hd, hs⟩

/-! ### From tick to tick -/

/-- In a tick a message about a negotiation is to be sent again: it is late enough, the negotiation
is handed out, and there is a message. -/
def Resumes (k : Worker) (due : Moment) (c : Negotiation) (W : Workshop Unit) (τ : Tick) : Prop :=
  due ≤ τ.reading ∧ (∃ n ∈ handedOut k W τ.all, n.id = c.id) ∧ Buildable k τ.reading c

theorem tick_of_not_resumes (hb : W.Between k) {τ : Tick} (hτ : τ.IsOf k W)
    (hc : W.ledger.find? c.id = some c) (hd : Duty.of? k.manager.side c.state = some d)
    (hs : d.sends = true)
    (hnot : ¬Resumes k (Attempt.dueAt k.manager.context.policy c) c W τ) :
    (W.run (fun _ => k) τ.all).ledger.find? c.id = some c ∧
    ∀ e ∈ W.history (fun _ => k) τ.all, e.2.isSent c.id = false := by
  by_cases hquiet : Buildable k τ.reading c →
      τ.reading < Attempt.dueAt k.manager.context.policy c
  · obtain ⟨hfind, hunsent, -⟩ := quiet_tick hb hτ hc hd hs hquiet
    exact ⟨hfind, hunsent⟩
  · -- it is late enough and there is a message, so the negotiation is not handed out
    obtain ⟨hbuild, hlate⟩ := Classical.not_imp.1 hquiet
    have hout : ∀ n ∈ handedOut k W τ.all, n.id ≠ c.id := fun n hn hid =>
      hnot ⟨UInt64.not_lt.1 hlate, ⟨n, hn, hid⟩, hbuild⟩
    obtain ⟨hrun, hhistory, hhanded⟩ := hb.tick τ
    rw [hhanded] at hout
    obtain ⟨hrests, hes⟩ :=
      (hb.rests hc).run_of_not_handedOut hb.underway.toOrderly hτ.one hout
    rw [hrun, hhistory]
    exact ⟨hrests.stored, fun e he =>
      Event.isSent_of_passes fun hid => absurd hid (hes e he)⟩

theorem ticks_of_not_resumes (hb : W.Between k) (hc : W.ledger.find? c.id = some c)
    (hd : Duty.of? k.manager.side c.state = some d) (hs : d.sends = true) {τs : List Tick}
    (hτs : Ticks k (fun V τ => ¬Resumes k (Attempt.dueAt k.manager.context.policy c) c V τ) W τs) :
    (W.run (fun _ => k) (turnsOf τs)).ledger.find? c.id = some c ∧
    ∀ e ∈ W.history (fun _ => k) (turnsOf τs), e.2.isSent c.id = false := by
  induction τs generalizing W with
  | nil => exact ⟨hc, List.forall_mem_nil _⟩
  | cons τ τs ih =>
    obtain ⟨hτ, hnot, hτs⟩ := hτs
    obtain ⟨hfind, hunsent⟩ := tick_of_not_resumes hb hτ hc hd hs hnot
    obtain ⟨hend, hrest⟩ := ih (hb.after hτ) hfind hτs
    rw [turnsOf_cons, run_append, history_append]
    exact ⟨hend, List.forall_mem_append.2 ⟨hunsent, hrest⟩⟩

/-- **Retries keep their distance.**  Let a lone worker make any ticks, in the last of which an
answer is recorded that leaves a negotiation in its state, for the `retries + 1`-st time in a row.
The message is due again once the delay for that many retries is over, counted from the reading of
that tick.  Whatever ticks follow:

* until a tick comes that is not before then, that hands the negotiation out and for which there is
  a message, the negotiation stays as it is stored and no message about it is sent;
* as long as it is stored so, a tick before then sends nothing about it, does not change it, and
  where it hands it out and there is a message, counts it as delayed and leaves it without a lease;
  and a tick from then on that hands it out sends one message about it in its state, if there is
  one.
-/
theorem retries_keep_distance (k : Worker) (l : Ledger) (earlier : List Tick) (failing : Tick)
    {n changed : Negotiation} {a : Answer} {retries : UInt32}
    (hearlier : Ticks k (fun _ _ => True) (opening l) (earlier ++ [failing]))
    (hsaved : ((), .saved n (some a) changed) ∈
      ((opening l).run (fun _ => k) (turnsOf earlier)).history (fun _ => k) failing.all)
    (hstate : changed.state = n.state) (hretries : 1 ≤ retries)
    (hcount : changed.stateCount.toNat = retries.toNat + 1) :
    let due := failing.reading.later (k.manager.context.policy.delayFor retries)
    let W := (opening l).run (fun _ => k) (turnsOf (earlier ++ [failing]))
    (∀ τs, Ticks k (fun V τ => ¬Resumes k due changed V τ) W τs →
      (W.run (fun _ => k) (turnsOf τs)).ledger.find? n.id = some changed ∧
      ∀ e ∈ W.history (fun _ => k) (turnsOf τs), e.2.isSent n.id = false) ∧
    ∀ τs, Ticks k (fun _ _ => True) W τs →
      let V := W.run (fun _ => k) (turnsOf τs)
      V.ledger.find? n.id = some changed → ∀ τ : Tick, τ.IsOf k V →
        (τ.reading < due →
          (V.run (fun _ => k) τ.all).ledger.find? n.id = some changed ∧
          (∀ e ∈ V.history (fun _ => k) τ.all, e.2.isSent n.id = false) ∧
          ((∃ m ∈ handedOut k V τ.all, m.id = n.id) → Buildable k τ.reading changed →
            (V.history (fun _ => k) τ.all).filter (fun e => e.2.copy.id = n.id) =
              [((), .ended changed (.outcome .delayed))] ∧
            (V.run (fun _ => k) τ.all).ledger.leaseOf? n.id = none)) ∧
        (due ≤ τ.reading → (∃ m ∈ handedOut k V τ.all, m.id = n.id) →
          Buildable k τ.reading changed →
          (V.history (fun _ => k) τ.all).countP (·.2.isSentIn n.id changed.state) = 1) := by
  intro due W
  obtain ⟨hbefore, hfailing, -⟩ := ticks_append.1 hearlier
  have hopening := (between_opening k l).afterAll hbefore
  obtain ⟨hid, hsince, hfind, d, hd, hs⟩ := saved_tick hopening hfailing hsaved hstate
  have hW : W = ((opening l).run (fun _ => k) (turnsOf earlier)).run (fun _ => k) failing.all := by
    show (opening l).run (fun _ => k) (turnsOf (earlier ++ [failing])) = _
    rw [turnsOf_append, run_append, turnsOf_singleton]
  have hbetween : W.Between k := hW ▸ hopening.after hfailing
  rw [← hW] at hfind
  have hdue : Attempt.dueAt k.manager.context.policy changed = due :=
    Attempt.dueAt_of_stateCount hsince hretries hcount _
  rw [← hid]
  refine ⟨fun τs hτs => ticks_of_not_resumes hbetween hfind hd hs (hdue ▸ hτs), ?_⟩
  intro τs hτs V hstored τ hτ
  have hV : V.Between k := hbetween.afterAll hτs
  refine ⟨fun hearly => ?_, fun hlate hout hbuild => ?_⟩
  · exact quiet_tick hV hτ hstored hd hs fun _ => hdue ▸ hearly
  · exact loud_tick hV hτ hstored hd hs (hdue ▸ hlate) hbuild hout

/-- A provider that sends a message again up to seven times. -/
def patient : Worker := ⟨"worker-a", 60000, .provider, ⟨"provider", {}, 5, true⟩⟩

/-- A tick of a provider in which an offer is handled and its message is not taken. -/
def offeringTick (reading : Moment) : Tick :=
  ⟨reading, ⟨reading, reading, "message-1", .error default⟩, (hastyRound reading).tail⟩

/-- An offer is not taken at 2000; at 2500 it is delayed, and at 3000 it is sent again. -/
theorem retries_keep_distance_patient :
    let changed : Negotiation :=
      { Negotiation.specimen with stateCount := 2, stateSince := 2000, updatedAt := 2000 }
    let W := (opening Ledger.specimen).run (fun _ => patient) (turnsOf [offeringTick 2000])
    Ticks patient (fun _ _ => True) (opening Ledger.specimen) [offeringTick 2000] ∧
    (offeringTick 2500).IsOf patient W ∧ (offeringTick 3000).IsOf patient W ∧
    (W.history (fun _ => patient) (offeringTick 2500).all).filter
        (fun e => e.2.copy.id = "negotiation-1") = [((), .ended changed (.outcome .delayed))] ∧
    (W.history (fun _ => patient) (offeringTick 3000).all).countP
        (·.2.isSentIn "negotiation-1" .offering) = 1 := by
  intro changed W
  have hfailing : (offeringTick 2000).IsOf patient (opening Ledger.specimen) :=
    ⟨by decide, by decide, by decide, by decide +kernel⟩
  have hearly : (offeringTick 2500).IsOf patient W :=
    ⟨by decide, by decide, by decide, by decide +kernel⟩
  have hlate : (offeringTick 3000).IsOf patient W :=
    ⟨by decide, by decide, by decide, by decide +kernel⟩
  have hticks : Ticks patient (fun _ _ => True) (opening Ledger.specimen) [offeringTick 2000] :=
    ⟨hfailing, trivial, trivial⟩
  have hsaved : ∃ a, ((), .saved .specimen (some a) changed) ∈
      (opening Ledger.specimen).history (fun _ => patient) (offeringTick 2000).all := by
    have hany : ((opening Ledger.specimen).history (fun _ => patient) (offeringTick 2000).all).any
        (·.2.records .specimen changed) = true := by decide +kernel
    obtain ⟨⟨⟨⟩, e⟩, hmem, he⟩ := List.any_eq_true.1 hany
    obtain ⟨a, rfl⟩ := Event.eq_saved_of_records he
    exact ⟨a, hmem⟩
  obtain ⟨a, hsaved⟩ := hsaved
  have hbuild (now : Moment) : Buildable patient now changed :=
    ⟨.sendOffer, "message-1", _, rfl, rfl⟩
  obtain ⟨-, hafter⟩ := retries_keep_distance patient Ledger.specimen [] (offeringTick 2000)
    (show Ticks patient (fun _ _ => True) (opening Ledger.specimen) ([] ++ [offeringTick 2000]) from
      hticks) hsaved rfl (show 1 ≤ 1 by decide) (by decide)
  have hstored : W.ledger.find? "negotiation-1" = some changed := by decide +kernel
  have hout (reading : Moment) (h : reading = 2500 ∨ reading = 3000) :
      ∃ m ∈ handedOut patient W (offeringTick reading).all, m.id = "negotiation-1" := by
    rcases h with rfl | rfl <;> decide +kernel
  obtain ⟨hbefore, -⟩ := hafter [] trivial hstored _ hearly
  obtain ⟨-, hthen⟩ := hafter [] trivial hstored _ hlate
  refine ⟨hticks, hearly, hlate, ?_, ?_⟩
  · exact ((hbefore (by decide +kernel)).2.2 (hout 2500 (.inl rfl)) (hbuild _)).1
  · exact hthen (by decide +kernel) (hout 3000 (.inr rfl)) (hbuild _)

end Workshop

end Parley
