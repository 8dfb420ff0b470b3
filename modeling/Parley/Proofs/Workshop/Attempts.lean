import Parley.Proofs.Handling.Sending
import Parley.Proofs.Workshop.Sends
import Parley.Proofs.Workshop.Ticks

/-!
# One tick and one negotiation

What a tick of a lone worker does about a negotiation whose state calls for a message, by whether
the message is due and whether there is one.

* `Buildable` : there is a message to be sent about a copy.
* `QuietVisit`, `quiet_tick` : in a tick that is too early, or in which there is no message to send,
  a negotiation stays as it is; if it was handed out and there was a message, it counts as delayed.
* `LoudVisit`, `loud_tick` : in a tick that is late enough, a message is sent, once.
-/

namespace Parley

namespace Duty

variable {d : Duty} {ctx : Context} {messageId : String} {now : Moment} {n : Negotiation}
  {s : Sending}

theorem exists_sendWith {f : Header → Sending} (h : sendWith n messageId f = .send s)
    (messageId' : String) : ∃ s', sendWith n messageId' f = .send s' := by
  have hheader : ∃ head, n.header messageId' = .ok head := by
    unfold sendWith Negotiation.header Header.make at h
    unfold Negotiation.header Header.make
    dsimp only at h ⊢
    split_ifs at h ⊢
    exact ⟨_, rfl⟩
  obtain ⟨head, hhead⟩ := hheader
  exact ⟨f head, by rw [sendWith, hhead]⟩

/-- Whether there is a message to send does not depend on the id that it would get. -/
theorem exists_plan (h : d.plan ctx messageId now n = .send s) (messageId' : String) :
    ∃ s', d.plan ctx messageId' now n = .send s' := by
  cases d with
  | takeRequest | beginFinalizing | beginRequesting | beginVerifying => cases h
  | sendAcceptance | sendApproval | sendTermination => exact exists_sendWith h messageId'
  | sendOffer | sendRequest =>
    simp only [plan] at h ⊢
    cases ho : n.lastOffer? with
    | none => rw [ho] at h; cases h
    | some o => rw [ho] at h; exact exists_sendWith h messageId'
  | sendFinalization =>
    simp only [plan] at h ⊢
    cases ha : n.agreement with
    | none => rw [ha] at h; cases h
    | some a => rw [ha] at h; exact exists_sendWith h messageId'
  | sendAgreement =>
    simp only [plan] at h ⊢
    cases ha : agreementOf ctx now n with
    | error e => rw [ha] at h; cases h
    | ok a? =>
      cases a? with
      | none => rw [ha] at h; cases h
      | some a => rw [ha] at h; exact exists_sendWith h messageId'

end Duty

/-- There is a message to be sent about a copy at this moment: it holds all that the message needs.
-/
def Buildable (k : Worker) (now : Moment) (c : Negotiation) : Prop :=
  ∃ d messageId s, Duty.of? k.manager.side c.state = some d ∧
    d.plan k.manager.context messageId now c = .send s

section

variable {k : Worker} {now : Moment} {c : Negotiation} {d : Duty}

theorem Buildable.exists_plan (h : Buildable k now c)
    (hd : Duty.of? k.manager.side c.state = some d) (messageId : String) :
    ∃ s, d.plan k.manager.context messageId now c = .send s := by
  obtain ⟨d', messageId', s, hd', hp⟩ := h
  obtain rfl : d = d' := Option.some.inj (hd.symm.trans hd')
  exact Duty.exists_plan hp messageId

/-- Where it is too early, or there is no message, the handling does not begin with sending one. -/
theorem Duty.begin_quiet (hd : of? k.manager.side c.state = some d) (hs : d.sends = true)
    (hquiet : Buildable k now c → now < Attempt.dueAt k.manager.context.policy c)
    (messageId : String) :
    (∃ m t, d.begin k.manager.context messageId now c = .attempting m t .early) ∨
    ¬Buildable k now c ∧ ∃ v, v ≠ .outcome .processed ∧
      d.begin k.manager.context messageId now c = .finished v := by
  have hnone (h : ∀ s, d.plan k.manager.context messageId now c ≠ .send s) :
      ¬Buildable k now c := by
    intro hb
    obtain ⟨s, hs⟩ := hb.exists_plan hd messageId
    exact h s hs
  unfold Duty.begin
  rcases plan_cases d k.manager.context messageId now c with
    ⟨hs', -⟩ | ⟨-, ⟨s, hp, -⟩ | hp | ⟨e, hp⟩⟩
  · rw [hs] at hs'; cases hs'
  · have hstart : (s.attempt k.manager.context.policy c).start now = .early :=
      Attempt.start_of_lt (hquiet ⟨d, messageId, s, hd, hp⟩)
    rw [hp]
    exact .inl ⟨s.message, s.attempt k.manager.context.policy c, by rw [Plan.begin, hstart]⟩
  · have hno : ¬Buildable k now c := hnone fun s h => by rw [hp] at h; cases h
    rw [hp]
    exact .inr ⟨hno, .outcome .notProcessed, (fun h => by cases h), rfl⟩
  · have hno : ¬Buildable k now c := hnone fun s h => by rw [hp] at h; cases h
    rw [hp]
    exact .inr ⟨hno, .failed e, (fun h => by cases h), rfl⟩

/-- Where it is late enough and there is a message, the handling begins with sending it. -/
theorem Duty.begin_loud (hd : of? k.manager.side c.state = some d)
    (hdue : Attempt.dueAt k.manager.context.policy c ≤ now) (hb : Buildable k now c)
    (messageId : String) :
    ∃ m t, d.begin k.manager.context messageId now c = .attempting m t .sending := by
  obtain ⟨s, hp⟩ := hb.exists_plan hd messageId
  have hstart : (s.attempt k.manager.context.policy c).start now = .sending :=
    Attempt.start_of_le hdue
  exact ⟨s.message, s.attempt k.manager.context.policy c, by
    rw [Duty.begin, hp, Plan.begin, hstart]⟩

end

namespace Workshop

variable {k : Worker} {W : Workshop Unit} {t : Turn Unit} {c : Negotiation} {d : Duty}
  {now : Moment} {es : List (Unit × Event)} {ns : List Negotiation}

theorem proceed_received {j : Job} (hj : j.member = .received c)
    (hhandler : j.processor.handler = d.begin k.manager.context) (hclock : t.chance.clock = now) :
    W.proceed (fun _ => k) t j =
      (Member.ofHandling c (d.begin k.manager.context t.chance.messageId now c), W.ledger) := by
  rw [proceed, hj, hhandler, ← hclock]
  rfl

theorem eventsOf_received {j : Job} (hj : j.member = .received c)
    (h : (W.proceed (fun _ => k) t j).1.verdict? = none) : W.eventsOf (fun _ => k) t j = [] := by
  rw [eventsOf, hj, Member.events, h]
  rfl

/-! ### Too early -/

/-- How far a member can have come that sends no message.  Where there is one, `delays`, it waits,
and the lease is given back before that counts. -/
inductive QuietMember (delays : Prop) (l : Ledger) (c : Negotiation) : Member → Prop where
  | received : QuietMember delays l c (.received c)
  | early {m : Message} {t : Attempt} :
    QuietMember delays l c (.handling c (.attempting m t .early))
  | releasing {v : Verdict} (hv : v ≠ .outcome .processed)
      (hd : delays → v = .outcome .delayed ∧ l.leaseOf? c.id = none) :
    QuietMember delays l c (.releasing c v)

/-- How far a round has come with a negotiation about which no message is sent; `es` was noticed in
it, and `ns` was handed out. -/
inductive QuietVisit (delays : Prop) (c : Negotiation) (W : Workshop Unit)
    (es : List (Unit × Event)) (ns : List Negotiation) : Prop where
  /-- It was not handed out. -/
  | before (h : W.Rests c) (hes : ∀ e ∈ es, e.2.copy.id ≠ c.id) (hns : ∀ n ∈ ns, n.id ≠ c.id)
  /-- It is being handled. -/
  | during {place : ℕ} {j : Job} (hj : W.job? () place = some j)
      (hm : QuietMember delays W.ledger c j.member) (hstored : W.ledger.find? c.id = some c)
      (hes : ∀ e ∈ es, e.2.copy.id ≠ c.id)
  /-- It was handled, and is as it was. -/
  | after {v : Verdict} (h : W.Rests c) (hpassed : W.Passed c.state)
      (hes : es.filter (fun e => e.2.copy.id = c.id) = [((), .ended c v)])
      (hv : v ≠ .outcome .processed)
      (hd : delays → v = .outcome .delayed ∧ W.ledger.leaseOf? c.id = none)

theorem QuietMember.negotiation_eq {delays : Prop} {l : Ledger} {m : Member}
    (h : QuietMember delays l c m) : m.negotiation = c ∧ m.verdict? = none := by
  cases h <;> exact ⟨rfl, rfl⟩

theorem QuietMember.congr {delays : Prop} {l l' : Ledger} {m : Member}
    (h : QuietMember delays l c m) (hl : l'.leaseOf? c.id = l.leaseOf? c.id) :
    QuietMember delays l' c m := by
  cases h with
  | received => exact .received
  | early => exact .early
  | releasing hv hd => exact .releasing hv (hl ▸ hd)

/-- A member that waits gives its lease back, and then it is at its end; what is stored stays. -/
theorem QuietMember.goes {delays : Prop} {l l' : Ledger} {m m' : Member} {ctx : Context}
    {holder : String} {ch : Chance} {es : List Event} (h : QuietMember delays l c m)
    (hs : d.sends = true) (hbegun : m ≠ .received c) (hgoes : m.Goes ctx d holder ch l m' l' es) :
    l'.find? c.id = l.find? c.id ∧
    ((QuietMember delays l' c m' ∧ es = []) ∨
      ∃ v, m' = .settled c v ∧ es = [.ended c v] ∧ v ≠ .outcome .processed ∧
        (delays → v = .outcome .delayed ∧ l'.leaseOf? c.id = none)) := by
  cases h with
  | received => exact absurd rfl hbegun
  | early =>
    cases hgoes with
    | stores hm =>
      -- a duty that sends a message stores nothing before there is an answer
      cases hm with
      | advance hs' => rw [hs] at hs'; cases hs'
    | delays =>
      exact ⟨Ledger.find?_setLease,
        .inl ⟨.releasing (fun h => by cases h) fun _ => ⟨rfl, Ledger.leaseOf?_setLease_none⟩,
          rfl⟩⟩
  | @releasing v hv hd =>
    cases hgoes with
    | releases =>
      exact ⟨Ledger.find?_setLease, .inr ⟨v, rfl, rfl, hv,
        fun hb => ⟨(hd hb).1, Ledger.leaseOf?_setLease_none⟩⟩⟩
    | misses => exact ⟨rfl, .inr ⟨v, rfl, rfl, hv, hd⟩⟩

theorem QuietMember.proceed {place : ℕ} {j : Job} (hun : W.Underway k)
    (hj : W.job? () place = some j) (hm : QuietMember (Buildable k now c) W.ledger c j.member)
    (hd : Duty.of? k.manager.side c.state = some d) (hs : d.sends = true)
    (hquiet : Buildable k now c → now < Attempt.dueAt k.manager.context.policy c)
    (hclock : t.chance.clock = now) :
    (W.proceed (fun _ => k) t j).2.find? c.id = W.ledger.find? c.id ∧
    ((QuietMember (Buildable k now c) (W.proceed (fun _ => k) t j).2 c
        (W.proceed (fun _ => k) t j).1 ∧ W.eventsOf (fun _ => k) t j = []) ∨
      ∃ v, (W.proceed (fun _ => k) t j).1 = .settled c v ∧
        W.eventsOf (fun _ => k) t j = [.ended c v] ∧ v ≠ .outcome .processed ∧
        (Buildable k now c → v = .outcome .delayed ∧
          (W.proceed (fun _ => k) t j).2.leaseOf? c.id = none)) := by
  obtain ⟨d', hd', hhandler, hgoes⟩ := hun.goes (t := t) hj
  rw [hm.negotiation_eq.1] at hd'
  obtain rfl : d = d' := Option.some.inj (hd.symm.trans hd')
  by_cases hbegun : j.member = .received c
  · -- the first step begins the handling, and nothing else
    have hproceed := proceed_received (W := W) hbegun hhandler hclock
    rcases Duty.begin_quiet hd hs hquiet t.chance.messageId with ⟨m, u, hb⟩ | ⟨hno, v, hv, hb⟩
    · have hmade : W.proceed (fun _ => k) t j =
          (.handling c (.attempting m u .early), W.ledger) := by
        rw [hproceed, hb]
        rfl
      rw [eventsOf_received hbegun (by rw [hmade]; rfl), hmade]
      exact ⟨rfl, .inl ⟨.early, rfl⟩⟩
    · have hmade : W.proceed (fun _ => k) t j = (.releasing c v, W.ledger) := by
        rw [hproceed, hb, Member.ofHandling]
        exact hv
      rw [eventsOf_received hbegun (by rw [hmade]; rfl), hmade]
      exact ⟨rfl, .inl ⟨.releasing hv fun hbuild => absurd hbuild hno, rfl⟩⟩
  · exact hm.goes hs hbegun hgoes

theorem filter_about_eq_nil (h : ∀ e ∈ es, e.2.copy.id ≠ c.id) :
    es.filter (fun e => e.2.copy.id = c.id) = [] :=
  List.filter_eq_nil_iff.2 fun e he heq => h e he (of_decide_eq_true heq)

theorem eq_of_id (ho : W.Orderly fun _ => k) {place place' : ℕ} {i j : Job}
    (hj : W.job? () place = some j) (hi : W.job? () place' = some i) (hid : i.id = j.id) :
    i = j := by
  obtain rfl : place' = place := ho.distinct () place' place i j hi hj hid
  exact Option.some.inj (hi.symm.trans hj)

/-- Once its only job is at its end, a negotiation rests as it is stored. -/
theorem rests_of_settled (ho : W.Orderly fun _ => k) {place : ℕ} {p : Processor} {since : Moment}
    {n changed : Negotiation} {v : Verdict} (hj : W.job? () place = some ⟨p, since, .settled n v⟩)
    (hid : changed.id = n.id) (hstored : W.ledger.find? changed.id = some changed) :
    W.Rests changed := by
  refine ⟨hstored, fun place' i hi hiid => ?_⟩
  obtain rfl := eq_of_id ho hj hi (hiid.trans hid)
  exact ⟨n, v, rfl⟩

theorem QuietVisit.take (h : QuietVisit (Buildable k now c) c W es ns) (hun : W.Underway k)
    (hd : Duty.of? k.manager.side c.state = some d) (hs : d.sends = true)
    (hquiet : Buildable k now c → now < Attempt.dueAt k.manager.context.policy c)
    (hact : t.act ≠ .start) (hclock : t.chance.clock = now) :
    QuietVisit (Buildable k now c) c (W.take (fun _ => k) t) (es ++ W.events (fun _ => k) t)
      (ns ++ (W.handedOut? t).getD []) := by
  cases h with
  | before h hes hns =>
    obtain ⟨hevents, ⟨hrests, -, hout⟩ | ⟨-, -, hstored, place, p, hj⟩⟩ :=
      h.take hun.toOrderly hact
    · exact .before hrests (List.forall_mem_append.2 ⟨hes, hevents⟩)
        (List.forall_mem_append.2 ⟨hns, hout⟩)
    · exact .during hj .received hstored (List.forall_mem_append.2 ⟨hes, hevents⟩)
  | @after v h hpassed hes hv hdelayed =>
    obtain ⟨hevents, ⟨hrests, hlease, -⟩ | ⟨hnot, -⟩⟩ := h.take hun.toOrderly hact
    · refine .after hrests (hpassed.take hact) ?_ hv (hlease ▸ hdelayed)
      rw [List.filter_append, hes, filter_about_eq_nil hevents, List.append_nil]
    · exact absurd hpassed hnot
  | @during place j hj hm hstored hes =>
    obtain ⟨hn, hopen⟩ := hm.negotiation_eq
    have hid : j.id = c.id := congrArg Negotiation.id hn
    have hpassed : W.Passed c.state := hn ▸ hun.passed place j hj hopen
    obtain ⟨hj', hrecord, hevents⟩ | ⟨hj', hledger, hevents⟩ :=
      take_of_unsettled hun.toOrderly hj hopen hact
    · -- somebody else's turn
      rw [hid] at hrecord hevents
      refine .during hj' (hm.congr (Ledger.leaseOf?_congr hrecord)) ?_
        (List.forall_mem_append.2 ⟨hes, hevents⟩)
      rw [Ledger.find?, hrecord]
      exact hstored
    · obtain ⟨hfind, ⟨hm', hnothing⟩ | ⟨v, hsettled, hended, hv, hdelayed⟩⟩ :=
        hm.proceed hun hj hd hs hquiet hclock
      · rw [hevents, hnothing, List.map_nil, List.append_nil]
        exact .during hj' (hledger ▸ hm') (by rw [hledger, hfind]; exact hstored) hes
      · rw [hsettled] at hj'
        refine .after (v := v) (rests_of_settled (orderly_take hun.toOrderly t) hj' rfl
          (by rw [hledger, hfind]; exact hstored)) (hpassed.take hact) ?_ hv (hledger ▸ hdelayed)
        rw [hevents, hended, List.filter_append, filter_about_eq_nil hes]
        refine List.filter_eq_self.2 fun e he => ?_
        rw [List.mem_singleton.1 he]
        exact decide_eq_true rfl

/-- **A quiet tick.**  Where it is too early, or there is no message to send, a negotiation is
stored after a tick as before, and no message is sent about it.  If it was handed out, all that is
noticed of it is that its handling ended; and if there was a message, it ended as delayed, and no
lease is left. -/
theorem quiet_tick (hb : W.Between k) {τ : Tick} (hτ : τ.IsOf k W)
    (hc : W.ledger.find? c.id = some c) (hd : Duty.of? k.manager.side c.state = some d)
    (hs : d.sends = true)
    (hquiet : Buildable k τ.reading c →
      τ.reading < Attempt.dueAt k.manager.context.policy c) :
    (W.run (fun _ => k) τ.all).ledger.find? c.id = some c ∧
    (∀ e ∈ W.history (fun _ => k) τ.all, e.2.isSent c.id = false) ∧
    ((∃ n ∈ handedOut k W τ.all, n.id = c.id) → Buildable k τ.reading c →
      (W.history (fun _ => k) τ.all).filter (fun e => e.2.copy.id = c.id) =
        [((), .ended c (.outcome .delayed))] ∧
      (W.run (fun _ => k) τ.all).ledger.leaseOf? c.id = none) := by
  have hvisit : QuietVisit (Buildable k τ.reading c) c (W.begun k) [] [] :=
    .before (hb.rests hc) (List.forall_mem_nil _) (List.forall_mem_nil _)
  have hend := hb.tick_induct
    (fun hun hact hclock h => h.take hun hd hs hquiet hact hclock) hτ hvisit
  have hunsent {e : Unit × Event} (hne : e.2.copy.id ≠ c.id) : e.2.isSent c.id = false :=
    Event.isSent_of_passes fun hid => absurd hid hne
  cases hend with
  | before h hes hns =>
    refine ⟨h.stored, fun e he => hunsent (hes e he), ?_⟩
    rintro ⟨n, hn, hid⟩
    exact absurd hid (hns n hn)
  | during hj hm =>
    -- everything is at its end
    obtain ⟨n, v, hsettled⟩ := settled_of_isIdle hτ.ends.idle hj
    rw [hsettled] at hm
    cases hm
  | @after v h hpassed hes hv hdelayed =>
    refine ⟨h.stored, fun e he => ?_, fun _ hbuild => ?_⟩
    · by_cases hid : e.2.copy.id = c.id
      · have hmem : e ∈ (W.history (fun _ => k) τ.all).filter (fun e => e.2.copy.id = c.id) :=
          List.mem_filter.2 ⟨he, decide_eq_true hid⟩
        rw [hes] at hmem
        rw [List.mem_singleton.1 hmem]
        rfl
      · exact hunsent hid
    · obtain ⟨rfl, hlease⟩ := hdelayed hbuild
      exact ⟨hes, hlease⟩

/-! ### Late enough -/

theorem isSentIn_eq_false {e : Event} {id : String} {st : State}
    (h : e.copy.id = id → e.copy.state ≠ st) : e.isSentIn id st = false := by
  cases e with
  | sent n m a =>
    refine Bool.and_eq_false_imp.2 fun hid => ?_
    exact beq_eq_false_iff_ne.2 (h (beq_iff_eq.1 hid))
  | saved | refused | ended => rfl

theorem isSentIn_sent (c : Negotiation) (m : Message) (a : Answer) :
    (Event.sent c m a).isSentIn c.id c.state = true := by
  simp [Event.isSentIn]

theorem countP_isSentIn_eq_zero {id : String} {st : State}
    (h : ∀ e ∈ es, e.2.copy.id = id → e.2.copy.state ≠ st) :
    es.countP (·.2.isSentIn id st) = 0 :=
  List.countP_eq_zero.2 fun e he => Bool.eq_false_iff.1 (isSentIn_eq_false (h e he))

/-- How far a member can have come about which a message is sent, and how many messages were sent.
-/
inductive LoudMember (c : Negotiation) : (sent : ℕ) → Member → Prop where
  | received : LoudMember c 0 (.received c)
  | sending {m : Message} {t : Attempt} :
    LoudMember c 0 (.handling c (.attempting m t .sending))
  | answered {h : Handling} (ha : (Member.handling c h).answer?.isSome = true) :
    LoudMember c 1 (.handling c h)

/-- How far a round has come with a negotiation about which a message is sent; `es` was noticed in
it, and `ns` was handed out. -/
inductive LoudVisit (c : Negotiation) (W : Workshop Unit) (es : List (Unit × Event))
    (ns : List Negotiation) : Prop where
  /-- It was not handed out. -/
  | before (h : W.Rests c) (hes : ∀ e ∈ es, e.2.copy.id ≠ c.id) (hns : ∀ n ∈ ns, n.id ≠ c.id)
  /-- It is being handled. -/
  | during {sent place : ℕ} {j : Job} (hj : W.job? () place = some j)
      (hm : LoudMember c sent j.member) (hes : es.countP (·.2.isSentIn c.id c.state) = sent)
  /-- It was handled; what is done about it from now on is done in other states. -/
  | after (hpassed : W.Passed c.state)
      (hjobs : ∀ place j, W.job? () place = some j → j.id = c.id →
        j.member.verdict?.isSome = true ∨ j.member.negotiation.state ≠ c.state)
      (hes : es.countP (·.2.isSentIn c.id c.state) = 1)

theorem LoudMember.negotiation_eq {sent : ℕ} {m : Member} (h : LoudMember c sent m) :
    m.negotiation = c ∧ m.verdict? = none := by
  cases h <;> exact ⟨rfl, rfl⟩

/-- The next step of a member about which a message is sent: the message is sent, or there is an
answer already and the member goes on to its end. -/
theorem LoudMember.proceed {sent place : ℕ} {j : Job} (hun : W.Underway k)
    (hj : W.job? () place = some j) (hm : LoudMember c sent j.member)
    (hd : Duty.of? k.manager.side c.state = some d) (hs : d.sends = true)
    (hdue : Attempt.dueAt k.manager.context.policy c ≤ now) (hbuild : Buildable k now c)
    (hclock : t.chance.clock = now) :
    LoudMember c (sent + (W.eventsOf (fun _ => k) t j).countP (·.isSentIn c.id c.state))
        (W.proceed (fun _ => k) t j).1 ∨
      sent = 1 ∧ (W.eventsOf (fun _ => k) t j).countP (·.isSentIn c.id c.state) = 0 ∧
        ∃ v, (W.proceed (fun _ => k) t j).1 = .settled c v := by
  obtain ⟨d', hd', hhandler, hgoes⟩ := hun.goes (t := t) hj
  rw [hm.negotiation_eq.1] at hd'
  obtain rfl : d = d' := Option.some.inj (hd.symm.trans hd')
  by_cases hbegun : j.member = .received c
  · obtain ⟨m, u, hb⟩ := Duty.begin_loud hd hdue hbuild t.chance.messageId
    have hmade : W.proceed (fun _ => k) t j =
        (.handling c (.attempting m u .sending), W.ledger) := by
      rw [proceed_received hbegun hhandler hclock, hb]
      rfl
    rw [hbegun] at hm
    cases hm
    rw [eventsOf_received hbegun (by rw [hmade]; rfl), hmade]
    exact .inl .sending
  · generalize W.proceed (fun _ => k) t j = made at hgoes ⊢
    generalize W.eventsOf (fun _ => k) t j = noticed at hgoes ⊢
    generalize j.member = member at hm hbegun hgoes
    obtain ⟨m', l'⟩ := made
    cases hm with
    | received => exact absurd rfl hbegun
    | sending =>
      cases hgoes with
      | sends =>
        rw [List.countP_singleton, isSentIn_sent, if_pos rfl]
        exact .inl (.answered rfl)
      | stores hmakes =>
        -- a duty that sends a message stores nothing before there is an answer
        cases hmakes with
        | advance hs' => rw [hs] at hs'; cases hs'
    | answered ha =>
      cases hgoes with
      | sends | delays => cases ha
      | finds => exact .inl (.answered rfl)
      | stores => exact .inr ⟨rfl, rfl, _, rfl⟩

/-- What is done about a negotiation after its state was taken care of is done in other states. -/
theorem take_of_passed (hun : W.Underway k) (hpassed : W.Passed c.state)
    (hjobs : ∀ place j, W.job? () place = some j → j.id = c.id →
      j.member.verdict?.isSome = true ∨ j.member.negotiation.state ≠ c.state)
    (hact : t.act ≠ .start) :
    (∀ place j, (W.take (fun _ => k) t).job? () place = some j → j.id = c.id →
      j.member.verdict?.isSome = true ∨ j.member.negotiation.state ≠ c.state) ∧
    (W.events (fun _ => k) t).countP (·.2.isSentIn c.id c.state) = 0 := by
  rcases take_cases_within k W hact with
    ⟨ht, he, -⟩ | ⟨p, ps, hp, -, ht, he, -⟩ | ⟨place, i, hi, ht, he, -⟩
  · rw [ht, he]
    exact ⟨hjobs, rfl⟩
  · rw [ht, he]
    refine ⟨fun place j hj _ => ?_, rfl⟩
    rw [job?_leased_self (t := t)] at hj
    obtain ⟨n, hn, rfl⟩ := Option.map_eq_some_iff.1 hj
    obtain ⟨-, -, -, hstate, -⟩ := Ledger.mem_batch (List.mem_of_getElem? hn)
    right
    show n.state ≠ c.state
    rw [hstate]
    exact hpassed p (hp ▸ List.mem_cons_self)
  · rw [ht, he]
    have hn := hun.negotiation_proceed (t := t) hi
    refine ⟨fun place' j hj hid => ?_, ?_⟩
    · rcases job?_stepped_cases hi hj with ⟨-, rfl, rfl⟩ | ⟨-, hj⟩
      · rcases hjobs place' i hi ((congrArg Negotiation.id hn).symm.trans hid) with hsome | hne
        · refine .inl ?_
          show (W.proceed (fun _ => k) t i).1.verdict?.isSome = true
          rw [(proceed_of_isSome hsome).1]
          exact hsome
        · exact .inr (hn ▸ hne)
      · exact hjobs place' j hj hid
    · rw [List.countP_map]
      by_cases hsome : i.member.verdict?.isSome = true
      · rw [(proceed_of_isSome hsome).2]
        rfl
      · refine List.countP_eq_zero.2 fun e hmem => ?_
        have hcopy := hun.copy_eq hi hmem
        rw [Function.comp_apply, isSentIn_eq_false, Bool.not_eq_true]
        rw [hcopy]
        exact fun hid => (hjobs place i hi hid).resolve_left hsome

theorem LoudVisit.take (h : LoudVisit c W es ns) (hun : W.Underway k)
    (hd : Duty.of? k.manager.side c.state = some d) (hs : d.sends = true)
    (hdue : Attempt.dueAt k.manager.context.policy c ≤ now) (hbuild : Buildable k now c)
    (hact : t.act ≠ .start) (hclock : t.chance.clock = now) :
    LoudVisit c (W.take (fun _ => k) t) (es ++ W.events (fun _ => k) t)
      (ns ++ (W.handedOut? t).getD []) := by
  cases h with
  | before h hes hns =>
    obtain ⟨hevents, ⟨hrests, -, hout⟩ | ⟨-, -, -, place, p, hj⟩⟩ := h.take hun.toOrderly hact
    · exact .before hrests (List.forall_mem_append.2 ⟨hes, hevents⟩)
        (List.forall_mem_append.2 ⟨hns, hout⟩)
    · exact .during hj .received (countP_isSentIn_eq_zero fun e he hid =>
        absurd hid (List.forall_mem_append.2 ⟨hes, hevents⟩ e he))
  | after hpassed hjobs hes =>
    obtain ⟨hjobs', hnone⟩ := take_of_passed hun hpassed hjobs hact
    exact .after (hpassed.take hact) hjobs' (by rw [List.countP_append, hes, hnone])
  | @during sent place j hj hm hes =>
    obtain ⟨hn, hopen⟩ := hm.negotiation_eq
    have hid : j.id = c.id := congrArg Negotiation.id hn
    have hpassed : W.Passed c.state := hn ▸ hun.passed place j hj hopen
    obtain ⟨hj', -, hevents⟩ | ⟨hj', -, hevents⟩ :=
      take_of_unsettled hun.toOrderly hj hopen hact
    · -- somebody else's turn
      rw [hid] at hevents
      have hnone : (W.events (fun _ => k) t).countP (·.2.isSentIn c.id c.state) = 0 :=
        countP_isSentIn_eq_zero fun e he hid => absurd hid (hevents e he)
      exact .during hj' hm (by rw [List.countP_append, hes, hnone, Nat.add_zero])
    · have hcount : (es ++ W.events (fun _ => k) t).countP (·.2.isSentIn c.id c.state) =
          sent + (W.eventsOf (fun _ => k) t j).countP (·.isSentIn c.id c.state) := by
        rw [hevents, List.countP_append, hes, List.countP_map]
        rfl
      rcases hm.proceed (t := t) hun hj hd hs hdue hbuild hclock with
        hm' | ⟨rfl, hnone, v, hsettled⟩
      · exact .during hj' hm' hcount
      · rw [hnone] at hcount
        refine .after (hpassed.take hact) (fun place' i hi hiid => .inl ?_) hcount
        have hsame : (W.proceed (fun _ => k) t j).1.negotiation.id = c.id :=
          (congrArg Negotiation.id (hun.negotiation_proceed hj)).trans hid
        obtain rfl := eq_of_id (orderly_take hun.toOrderly t) hj' hi (hiid.trans hsame.symm)
        show (W.proceed (fun _ => k) t j).1.verdict?.isSome = true
        rw [hsettled]
        rfl

/-- **A loud tick.**  Where it is late enough and there is a message to send, a negotiation that is
handed out is sent one message about in its state. -/
theorem loud_tick (hb : W.Between k) {τ : Tick} (hτ : τ.IsOf k W)
    (hc : W.ledger.find? c.id = some c) (hd : Duty.of? k.manager.side c.state = some d)
    (hs : d.sends = true) (hdue : Attempt.dueAt k.manager.context.policy c ≤ τ.reading)
    (hbuild : Buildable k τ.reading c) (hout : ∃ n ∈ handedOut k W τ.all, n.id = c.id) :
    (W.history (fun _ => k) τ.all).countP (·.2.isSentIn c.id c.state) = 1 := by
  have hvisit : LoudVisit c (W.begun k) [] [] :=
    .before (hb.rests hc) (List.forall_mem_nil _) (List.forall_mem_nil _)
  have hend := hb.tick_induct
    (fun hun hact hclock h => h.take hun hd hs hdue hbuild hact hclock) hτ hvisit
  cases hend with
  | before h hes hns =>
    obtain ⟨n, hn, hid⟩ := hout
    exact absurd hid (hns n hn)
  | during hj hm =>
    -- everything is at its end
    obtain ⟨n, v, hsettled⟩ := settled_of_isIdle hτ.ends.idle hj
    rw [hsettled] at hm
    cases hm
  | after hpassed hjobs hes => exact hes

end Workshop

end Parley
