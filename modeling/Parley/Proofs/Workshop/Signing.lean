import Mathlib.Data.List.Induction
import Parley.Proofs.Workshop.Agreements

/-!
# The agreements of one negotiation

A provider makes an agreement when it is about to send one, and stores it when it learns that it was
taken.  An attempt that fails leaves nothing behind, and the next one makes an agreement of its own,
with the date of its own second.

* `exists_agreementOf_sent` : every agreement that a worker sends in a run was made of what was
  there at first, at the moment of some turn.
* `state_eq_of_between` : all of them are sent in one stay.
* `exists_agreement_of_stored` : what is stored when a negotiation becomes agreed is the agreement
  that was sent last.
* `one_agreement_iff` : so all agreements of a negotiation are one and the same iff they have the
  same date.
* `dates_differ` : two attempts a few seconds apart send two agreements.

The proof: no duty changes the offers or the other participant, and none changes the agreement as
long as it may be sent, so the copy that a job holds is as good as what was there at first
(`exists_terms_of_run`).  An attempt carries the agreement that it began with until its answer is
recorded (`Member.Goes.draft?_cases`), and since nobody else has a job about the negotiation,
nothing is sent about it between the sending and the recording (`getLast?_agreementsSent`).

What this does **not** say: which of the agreements the other side has.  An attempt without an
answer may have reached it, and then it has an agreement that is stored nowhere on this side.
-/

namespace Parley

/-- The agreement that was sent about the negotiation of an id. -/
def Event.agreementSent? (id : String) : Event → Option Agreement
  | sent n m _ => if n.id = id then m.agreement? else none
  | _ => none

/-- The agreements that were sent about the negotiation of an id, in their order. -/
def agreementsSent {ι : Type} (id : String) (es : List (ι × Event)) : List Agreement :=
  es.filterMap (·.2.agreementSent? id)

theorem Event.agreementSent?_of_ne {id : String} {e : Event} (h : e.copy.id ≠ id) :
    e.agreementSent? id = none := by
  cases e with
  | sent n m a => exact if_neg h
  | saved n a changed | refused n e | ended n v => rfl

section

variable {ι : Type} {id : String}

theorem agreementsSent_append (es fs : List (ι × Event)) :
    agreementsSent id (es ++ fs) = agreementsSent id es ++ agreementsSent id fs :=
  List.filterMap_append

end

theorem Event.eq_of_ofSave {n n' changed changed' : Negotiation} {a a' : Option Answer}
    {r : Except StoreError Ledger} (h : ofSave n a changed r = .saved n' a' changed') :
    changed = changed' := by
  cases r <;> cases h
  rfl

namespace Member

/-- The agreement that the member sends, or has sent. -/
def draft? : Member → Option Agreement
  | handling _ (.attempting m _ _) => m.agreement?
  | _ => none

/-- The agreement that the member has sent, if the answer to it is not recorded yet. -/
def sentDraft? : Member → Option Agreement
  | handling _ (.attempting m _ (.answered _)) => m.agreement?
  | handling _ (.attempting m _ (.found ..)) => m.agreement?
  | _ => none

theorem draft?_of_sentDraft? {m : Member} {a : Agreement} (h : m.sentDraft? = some a) :
    m.draft? = some a := by
  cases m with
  | received n | releasing n v | settled n v => cases h
  | handling n g =>
    cases g with
    | storing n | finished v => cases h
    | attempting m t stage => cases stage <;> first | exact h | cases h

theorem holds_of_draft? {m : Member} {a : Agreement} (h : m.draft? = some a) :
    m.holds = true := by
  cases m with
  | handling n g => rfl
  | received n | releasing n v | settled n v => cases h

theorem sentDraft?_of_answer? {m : Member} (h : m.answer? = none) : m.sentDraft? = none := by
  cases m with
  | received n | releasing n v | settled n v => rfl
  | handling n g =>
    cases g with
    | storing n | finished v => rfl
    | attempting m t stage => cases stage <;> first | rfl | cases h

/-- What is stored is the copy moved on, or what the answer makes of what was read again. -/
theorem settle_of_saved {c : Chance} {save : Negotiation → Except StoreError Ledger}
    {m next : Member} {n changed : Negotiation} {answer : Option Answer}
    (h : .saved n answer changed ∈ m.events c save next) :
    (∃ n', m = .handling n' (.storing changed)) ∨
    ∃ n' message t a current, m = .handling n' (.attempting message t (.found a current)) ∧
      t.settle c.clock a current = .ok changed := by
  have hended (n' : Negotiation) (w : Option Verdict) :
      Event.saved n answer changed ∉ (w.map (.ended n')).toList := by
    cases w <;> simp
  cases m with
  | received n' | releasing n' v => exact absurd h (hended n' _)
  | settled n' v => cases h
  | handling n' g =>
    have h : Event.saved n answer changed ∈ (g.event? c save n').toList :=
      (List.mem_append.1 h).resolve_right (hended n' _)
    rw [Option.mem_toList] at h
    cases g with
    | finished v => cases h
    | storing changed' =>
      obtain rfl := Event.eq_of_ofSave (Option.some.inj h)
      exact .inl ⟨n', rfl⟩
    | attempting message t stage =>
      cases stage with
      | early | answered a => cases h
      | sending => cases Option.some.inj h
      | found a current =>
        cases hsettle : t.settle c.clock a current with
        | error e => simp only [Handling.event?, hsettle] at h; cases h
        | ok changed' =>
          simp only [Handling.event?, hsettle] at h
          obtain rfl := Event.eq_of_ofSave (Option.some.inj h)
          exact .inr ⟨n', message, t, a, current, rfl, hsettle⟩

/-- Where a member stores that a negotiation is agreed, the negotiation carries the agreement that
the member has sent. -/
theorem Follows.sentDraft?_of_saved {ctx : Context} {side : Side} {d : Duty} {c : Chance}
    {save : Negotiation → Except StoreError Ledger} {m next : Member} {n changed : Negotiation}
    {answer : Option Answer} (hf : m.Follows ctx d)
    (hd : Duty.of? side m.negotiation.state = some d) (hagreeing : m.negotiation.state = .agreeing)
    (h : .saved n answer changed ∈ m.events c save next) (hagreed : changed.state = .agreed) :
    ∃ b, changed.agreement = some b ∧ m.sentDraft? = some b := by
  obtain rfl : d = .sendAgreement := (Duty.eq_sendAgreement_iff hd).2 hagreeing
  rcases settle_of_saved h with
    ⟨n', rfl⟩ | ⟨n', message, attempt, a, current, rfl, hsettle⟩
  · -- this duty stores nothing before its message is answered
    cases hf with
    | storing hs hmoved => cases hs
  · cases hf with
    | @attempting messageId now s stage hp hlooked =>
      obtain rfl : current = n' := hlooked a current rfl
      obtain ⟨hmessage, ⟨hne, -⟩ | ⟨-, b, hb, -⟩⟩ := Duty.agreement_of_plan hp
      · exact absurd rfl hne
      rcases Duty.agreement_of_settle hd hp hsettle with ⟨-, hst⟩ | ⟨-, hstored⟩
      · exact absurd hagreed hst
      · exact ⟨b, hstored.trans hb, hmessage.trans hb⟩

section

variable {ctx : Context} {d : Duty} {holder : String} {c : Chance} {l l' : Ledger} {m m' : Member}
  {es : List Event}

theorem Goes.draft?_cases (h : Goes ctx d holder c l m m' l' es) :
    (∃ n, m = .received n) ∨ m'.draft? = none ∨ m'.draft? = m.draft? := by
  cases h with
  | @begins n | @passes n => exact .inl ⟨n, rfl⟩
  | sends | finds => exact .inr (.inr rfl)
  | stores | delays | releases | misses | rests => exact .inr (.inl rfl)

theorem Goes.sentDraft?_cases (h : Goes ctx d holder c l m m' l' es) :
    (es.filterMap (·.agreementSent? m.negotiation.id) = [] ∧
      (m'.sentDraft? = none ∨ m'.sentDraft? = m.sentDraft?)) ∨
    (es.filterMap (·.agreementSent? m.negotiation.id) = m.draft?.toList ∧
      m'.sentDraft? = m.draft?) := by
  cases h with
  | begins hf ha => exact .inl ⟨rfl, .inl (sentDraft?_of_answer? ha)⟩
  | passes | delays | rests | releases | misses => exact .inl ⟨rfl, .inl rfl⟩
  | stores => exact .inl ⟨rfl, .inl rfl⟩
  | finds => exact .inl ⟨rfl, .inr rfl⟩
  | @sends n messageId now s hp =>
    have hevent : (Event.sent n s.message c.answer).agreementSent? n.id =
        s.message.agreement? := if_pos rfl
    refine .inr ⟨?_, rfl⟩
    show [Event.sent n s.message c.answer].filterMap (·.agreementSent? n.id) =
      s.message.agreement?.toList
    rw [List.filterMap_cons, hevent]
    cases s.message.agreement? <;> rfl

end

end Member

namespace Workshop

variable {k : Worker} {l : Ledger} {us : List (Turn Unit)} {t : Turn Unit}

theorem history_concat (k : Worker) (l : Ledger) (us : List (Turn Unit)) (t : Turn Unit) :
    (opening l).history (fun _ => k) (us ++ [t]) = (opening l).history (fun _ => k) us ++
      ((opening l).run (fun _ => k) us).events (fun _ => k) t := by
  rw [history_append]
  simp only [history, List.append_nil]

theorem run_concat (k : Worker) (l : Ledger) (us : List (Turn Unit)) (t : Turn Unit) :
    (opening l).run (fun _ => k) (us ++ [t]) =
      ((opening l).run (fun _ => k) us).take (fun _ => k) t := run_append ..

/-- What a turn of a lone worker can be: one of which nothing can be noticed and which begins no
attempt, or a step of one job, which leaves the jobs about other negotiations as they are. -/
theorem Orderly.turn_cases {W : Workshop Unit} (ho : W.Orderly fun _ => k) (t : Turn Unit) :
    (W.events (fun _ => k) t = [] ∧ ∀ place j,
      (W.take (fun _ => k) t).job? () place = some j →
      W.job? () place = some j ∨ j.member.draft? = none) ∨
    ∃ place j, W.job? () place = some j ∧
      W.events (fun _ => k) t = (W.eventsOf (fun _ => k) t j).map ((), ·) ∧
      ∀ place' j', (W.take (fun _ => k) t).job? () place' = some j' →
        j' = ⟨j.processor, j.since, (W.proceed (fun _ => k) t j).1⟩ ∨
        W.job? () place' = some j' ∧ j'.id ≠ j.id := by
  rcases take_cases (fun _ => k) W t with
    ⟨h, he⟩ | ⟨h, he⟩ | ⟨p, ps, -, -, h, he⟩ | ⟨place, j, -, hj, h, he⟩
  · rw [h]
    exact .inl ⟨he, fun _ _ hi => .inl hi⟩
  · rw [h]
    refine .inl ⟨he, fun place i hi => .inl ?_⟩
    rwa [job?_started] at hi
  · rw [h]
    refine .inl ⟨he, fun place i hi => .inr ?_⟩
    rw [job?_leased_self (t := t)] at hi
    obtain ⟨n, -, rfl⟩ := Option.map_eq_some_iff.1 hi
    rfl
  · rw [h]
    refine .inr ⟨place, j, hj, he, fun place' i hi => ?_⟩
    rcases job?_stepped_cases hj hi with ⟨-, -, rfl⟩ | ⟨hne, hi⟩
    · exact .inl rfl
    · exact .inr ⟨hi, fun hid => hne ⟨rfl, ho.distinct () place' place i j hi hj hid⟩⟩

theorem Orderly.agreementsSent_step {W : Workshop Unit} (ho : W.Orderly fun _ => k) {place : ℕ}
    {j : Job} (hj : W.job? t.worker place = some j)
    (he : W.events (fun _ => k) t = (W.eventsOf (fun _ => k) t j).map ((), ·)) :
    (∀ id, id ≠ j.id → agreementsSent id (W.events (fun _ => k) t) = []) ∧
    ((agreementsSent j.id (W.events (fun _ => k) t) = [] ∧
        ((W.proceed (fun _ => k) t j).1.sentDraft? = none ∨
          (W.proceed (fun _ => k) t j).1.sentDraft? = j.member.sentDraft?)) ∨
      (agreementsSent j.id (W.events (fun _ => k) t) = j.member.draft?.toList ∧
        (W.proceed (fun _ => k) t j).1.sentDraft? = j.member.draft?)) := by
  obtain ⟨d, -, -, hgoes⟩ := ho.goes hj
  -- all that can be noticed of a step is about the copy of the job
  have hsent (id : String) : agreementsSent id (W.events (fun _ => k) t) =
      (W.eventsOf (fun _ => k) t j).filterMap (·.agreementSent? id) := by
    rw [he, agreementsSent, List.filterMap_map]
    rfl
  constructor
  · intro id hid
    rw [hsent, List.filterMap_eq_nil_iff]
    intro e hmem
    refine Event.agreementSent?_of_ne ?_
    rw [hgoes.copy_eq e hmem]
    exact hid.symm
  · rw [hsent]
    exact hgoes.sentDraft?_cases

/-! ### Where the agreements come from -/

/-- What an agreement would be made of stays as it is, as long as it may be sent. -/
theorem exists_terms_of_run {id : String} {m : Negotiation}
    (hm : ((opening l).run (fun _ => k) us).ledger.find? id = some m) :
    ∃ n, l.find? id = some n ∧ n.SameTerms m ∧
      (m.agreement = n.agreement ∨ Duty.of? k.manager.side m.state = none) := by
  have ho : (opening l : Workshop Unit).Orderly fun _ => k := orderly_opening l
  have ht := timely_of_subsingleton (fun _ : Unit => k) (opening l) us
  refine ho.run_induct (Q := fun o => ∀ m : Negotiation, o = some m → ∃ n : Negotiation,
    l.find? id = some n ∧ n.SameTerms m ∧
    (m.agreement = n.agreement ∨ Duty.of? k.manager.side m.state = none))
    ?_ (fun _ _ _ => rfl) ht ?_ m hm
  · rintro - d n' answer changed hd hmakes hn' _ ⟨rfl⟩
    obtain ⟨n, hn, hterms, hagreement | hnone⟩ := hn' n' rfl
    · refine ⟨n, hn, hterms.trans (hmakes.sameTerms hd), ?_⟩
      rcases hmakes.agreement_cases hd with ⟨hsame, -⟩ | ⟨rfl, hagreed, -⟩
      · exact .inl (hsame.trans hagreement)
      · -- where the agreement was taken, the side that sent it has nothing to do
        rw [hagreed]
        exact .inr (Duty.of?_goal_of_sends hd rfl)
    · rw [hnone] at hd
      cases hd
  · intro n hn
    exact ⟨n, hn, .refl n, .inl rfl⟩

theorem agreementOf_of_begin {W : Workshop Unit} {j : Job} {d : Duty} {n : Negotiation}
    {a : Agreement} (hd : Duty.of? k.manager.side n.state = some d)
    (hhandler : j.processor.handler = d.begin k.manager.context) (hn : j.member = .received n)
    (ha : (W.proceed (fun _ => k) t j).1.draft? = some a) :
    Duty.agreementOf k.manager.context t.chance.clock n = .ok (some a) := by
  have hstep : (W.proceed (fun _ => k) t j).1 =
      .ofHandling n (d.begin k.manager.context t.chance.messageId t.chance.clock n) := by
    rw [proceed, hn, hhandler]
    rfl
  rw [hstep] at ha
  rcases Duty.begin_cases hd k.manager.context t.chance.messageId t.chance.clock with
    ⟨-, moved, -, hb⟩ | ⟨-, ⟨s, stage, hp, -, hb⟩ | hb | ⟨e, hb⟩⟩
  · rw [hb] at ha; cases ha
  · rw [hb] at ha
    have ha : s.message.agreement? = some a := ha
    obtain ⟨hmessage, ⟨-, hnone⟩ | ⟨-, b, hb, hof⟩⟩ := Duty.agreement_of_plan hp
    · rw [hmessage, hnone] at ha
      cases ha
    · rw [hmessage, hb] at ha
      rw [hof, ha]
  · rw [hb] at ha; cases ha
  · rw [hb] at ha; cases ha

theorem exists_agreementOf_draft? (k : Worker) (l : Ledger) (us : List (Turn Unit)) {place : ℕ}
    {j : Job} {a : Agreement} (hj : ((opening l).run (fun _ => k) us).job? () place = some j)
    (ha : j.member.draft? = some a) :
    ∃ t ∈ us, Duty.agreementOf k.manager.context t.chance.clock j.member.negotiation =
      .ok (some a) := by
  induction us using List.reverseRecOn generalizing place j with
  | nil => cases hj
  | append_singleton us t ih =>
    have ho := orderly_run_opening k l us
    have hbefore {place : ℕ} {i : Job}
        (hi : ((opening l).run (fun _ => k) us).job? () place = some i)
        (ha : i.member.draft? = some a) : ∃ u ∈ us ++ [t],
        Duty.agreementOf k.manager.context u.chance.clock i.member.negotiation =
          .ok (some a) := by
      obtain ⟨u, hu, hof⟩ := ih hi ha
      exact ⟨u, List.mem_append_left _ hu, hof⟩
    rw [run_concat] at hj
    rcases ho.turn_cases t with ⟨-, hjobs⟩ | ⟨place', i, hi, -, hjobs⟩
    · rcases hjobs place j hj with hj | hnone
      · exact hbefore hj ha
      · rw [hnone] at ha
        cases ha
    · rcases hjobs place j hj with rfl | ⟨hj, -⟩
      · obtain ⟨d, hd, hhandler, hgoes⟩ := ho.goes hi
        have hcopy := hgoes.negotiation_eq
        rcases hgoes.draft?_cases with ⟨n, hn⟩ | hnone | hsame
        · -- the attempt begins in this turn
          rw [hn] at hd hcopy
          refine ⟨t, List.mem_append_right _ (List.mem_singleton_self t), ?_⟩
          rw [show Member.negotiation _ = n from hcopy]
          exact agreementOf_of_begin hd hhandler hn ha
        · rw [show Member.draft? _ = none from hnone] at ha
          cases ha
        · rw [show Member.draft? _ = _ from hsame] at ha
          rw [show Member.negotiation _ = _ from hcopy]
          exact hbefore hi ha
      · exact hbefore hj ha

theorem exists_agreementOf_sent (k : Worker) (l : Ledger) (us : List (Turn Unit)) {id : String}
    {a : Agreement} (ha : a ∈ agreementsSent id ((opening l).history (fun _ => k) us)) :
    ∃ n, l.find? id = some n ∧
      ∃ t ∈ us, Duty.agreementOf k.manager.context t.chance.clock n = .ok (some a) := by
  induction us using List.reverseRecOn with
  | nil => cases ha
  | append_singleton us t ih =>
    have ho := orderly_run_opening k l us
    rw [history_concat, agreementsSent_append, List.mem_append] at ha
    rcases ha with ha | ha
    · obtain ⟨n, hn, u, hu, hof⟩ := ih ha
      exact ⟨n, hn, u, List.mem_append_left _ hu, hof⟩
    rcases ho.turn_cases t with ⟨he, -⟩ | ⟨place, j, hj, he, -⟩
    · rw [he] at ha
      cases ha
    obtain ⟨hother, hstep⟩ := ho.agreementsSent_step hj he
    by_cases hid : id = j.id
    · subst hid
      rcases hstep with ⟨hnil, -⟩ | ⟨hsent, -⟩
      · rw [hnil] at ha
        cases ha
      · -- it was made of the copy, and that is as good as what was there at first
        rw [hsent, Option.mem_toList] at ha
        obtain ⟨u, hu, hof⟩ := exists_agreementOf_draft? k l us hj ha
        obtain ⟨d, hd, -, -⟩ := ho.sound () place j hj
        obtain ⟨n, hn, hterms, hagreement | hnone⟩ :=
          exists_terms_of_run (ho.find?_of_holds hj (Member.holds_of_draft? ha))
        · exact ⟨n, hn, u, List.mem_append_left _ hu,
            Duty.agreementOf_congr hterms.offers_eq hterms.counterPartyId_eq hagreement hof⟩
        · rw [hnone] at hd
          cases hd
    · rw [hother id hid] at ha
      cases ha

/-- What the answer to be recorded is about is what was sent last. -/
theorem getLast?_agreementsSent (k : Worker) (l : Ledger) (us : List (Turn Unit)) {place : ℕ}
    {j : Job} {a : Agreement} (hj : ((opening l).run (fun _ => k) us).job? () place = some j)
    (ha : j.member.sentDraft? = some a) :
    (agreementsSent j.id ((opening l).history (fun _ => k) us)).getLast? = some a := by
  induction us using List.reverseRecOn generalizing place j with
  | nil => cases hj
  | append_singleton us t ih =>
    have ho := orderly_run_opening k l us
    rw [run_concat] at hj
    rw [history_concat, agreementsSent_append]
    rcases ho.turn_cases t with ⟨he, hjobs⟩ | ⟨place', i, hi, he, hjobs⟩
    · rw [he, show agreementsSent j.id [] = [] from rfl, List.append_nil]
      rcases hjobs place j hj with hj | hnone
      · exact ih hj ha
      · rw [Member.draft?_of_sentDraft? ha] at hnone
        cases hnone
    · obtain ⟨hother, hstep⟩ := ho.agreementsSent_step hi he
      rcases hjobs place j hj with rfl | ⟨hj, hne⟩
      · -- the step of the job itself: it sends its draft, or goes on with what it sent
        obtain ⟨d, -, -, hgoes⟩ := ho.goes hi
        have hid : Job.id ⟨i.processor, i.since,
            (((opening l).run (fun _ => k) us).proceed (fun _ => k) t i).1⟩ = i.id :=
          congrArg Negotiation.id hgoes.negotiation_eq
        rw [hid]
        rcases hstep with ⟨hnil, hnone | hsame⟩ | ⟨hsent, hdraft⟩
        · rw [show Member.sentDraft? _ = none from hnone] at ha
          cases ha
        · rw [hnil, List.append_nil]
          exact ih hi (hsame.symm.trans ha)
        · rw [hsent, hdraft.symm.trans ha]
          exact List.getLast?_concat ..
      · -- nothing was sent in this turn about another negotiation
        rw [hother _ hne, List.append_nil]
        exact ih hj ha

/-! ### Which one is stored -/

/-- **What is stored is what was sent last.**  If an agreed negotiation takes the place of one that
was being agreed on, it carries the agreement that was sent last about it. -/
theorem exists_agreement_of_stored {id : String} {n m : Negotiation}
    (hn : ((opening l).run (fun _ => k) us).ledger.find? id = some n)
    (hagreeing : n.state = .agreeing)
    (hm : ((opening l).run (fun _ => k) (us ++ [t])).ledger.find? id = some m)
    (hagreed : m.state = .agreed) :
    ∃ a, m.agreement = some a ∧
      (agreementsSent id ((opening l).history (fun _ => k) us)).getLast? = some a := by
  have ho := orderly_run_opening k l us
  have hid := Ledger.id_of_find? hn
  rw [run_concat] at hm
  rcases ho.find?_take t id with
    hsame | ⟨-, n', answer, changed, hn', -, -, hchanged, hsaved⟩
  · rw [hsame, hn] at hm
    cases hm
    rw [hagreeing] at hagreed
    cases hagreed
  obtain rfl : n = n' := by rw [hn] at hn'; exact Option.some.inj hn'
  obtain rfl : m = changed := by rw [hm] at hchanged; exact Option.some.inj hchanged
  -- it is stored in the step of a job about it
  rcases ho.turn_cases t with ⟨he, -⟩ | ⟨place, j, hj, he, -⟩
  · rw [he] at hsaved
    cases hsaved
  rw [he] at hsaved
  obtain ⟨e, hmem, he⟩ := List.mem_map.1 hsaved
  obtain rfl : e = .saved n answer m := (Prod.mk.inj he).2
  obtain ⟨d', -, -, hgoes⟩ := ho.goes hj
  obtain ⟨d, hd, -, hf⟩ := ho.sound _ _ _ hj
  have hcopy : n = j.member.negotiation := hgoes.copy_eq _ hmem
  have hjid : j.id = id := (congrArg Negotiation.id hcopy).symm.trans hid
  obtain ⟨b, hstored, hsent⟩ := hf.sentDraft?_of_saved hd (hcopy ▸ hagreeing) hmem hagreed
  refine ⟨b, hstored, ?_⟩
  rw [← hjid]
  exact getLast?_agreementsSent k l us hj hsent

/-! ### One stay -/

theorem code_le_of_makes {ctx : Context} {side : Side} {d : Duty} {n changed : Negotiation}
    {answer : Option Answer} (h : d.Makes ctx n answer changed)
    (hd : Duty.of? side n.state = some d) : n.state.code ≤ changed.state.code := by
  have hgoal : n.state.code ≤ d.goal.code := by
    revert hd
    cases side <;> cases n.state <;> rintro ⟨⟩ <;> decide
  have hend : n.state.code ≤ State.terminated.code := by cases n.state <;> decide
  rcases h.cases hd with ⟨-, -, hst, -⟩ | ⟨-, a, -, hst, -⟩
  · rw [hst]
    exact hgoal
  · rw [hst]
    cases Attempt.route ctx.policy n.stateCount a with
    | success content => exact hgoal
    | failure cause => exact le_refl _
    | fatal f => exact hend
    | exhausted cause =>
      rw [Duty.after]
      split_ifs
      · exact hend
      · -- the states in which a side has something to do come before the end
        revert hd
        cases side <;> cases n.state <;> rintro ⟨⟩ <;> decide

/-- A negotiation that a lone worker finds in one state twice was in it all the while. -/
theorem state_eq_of_between {vs ws : List (Turn Unit)} {id : String} {n m p : Negotiation}
    (hn : ((opening l).run (fun _ => k) us).ledger.find? id = some n)
    (hm : ((opening l).run (fun _ => k) (us ++ vs)).ledger.find? id = some m)
    (hp : ((opening l).run (fun _ => k) (us ++ vs ++ ws)).ledger.find? id = some p)
    (hstate : n.state = p.state) : m.state = n.state := by
  have hle (us vs : List (Turn Unit)) {n m : Negotiation}
      (hn : ((opening l).run (fun _ => k) us).ledger.find? id = some n)
      (hm : ((opening l).run (fun _ => k) (us ++ vs)).ledger.find? id = some m) :
      n.state.code ≤ m.state.code := by
    rw [run_append] at hm
    refine (orderly_run_opening k l us).run_induct
      (Q := fun o => ∀ m : Negotiation, o = some m → n.state.code ≤ m.state.code)
      ?_ (fun _ _ _ => rfl) (timely_of_subsingleton _ _ vs) ?_ m hm
    · rintro - d n' answer changed hd hmakes hn' _ ⟨rfl⟩
      exact (hn' n' rfl).trans (code_le_of_makes hmakes hd)
    · intro n' hn'
      rw [hn] at hn'
      cases hn'
      exact le_refl _
  -- the codes only go up, and they are the same in the end
  have hcode : m.state.code = n.state.code :=
    le_antisymm ((hle _ _ hm hp).trans (hstate ▸ le_refl _)) (hle _ _ hn hm)
  have hof := State.ofCode?_code m.state
  rw [hcode, State.ofCode?_code] at hof
  exact (Option.some.inj hof).symm

/-! ### Whether it is one -/

/-- In a run of a worker that has the ledger to itself, all agreements that it sends about a
negotiation are one and the same, and that one is stored when the negotiation becomes agreed.  They
are all sent in one stay, since no state is entered again after it was left. -/
def OneAgreement (k : Worker) (l : Ledger) (ts : List (Turn Unit)) (id : String) : Prop :=
  ∃ a, (∀ b ∈ agreementsSent id ((opening l).history (fun _ => k) ts), b = a) ∧
    ∀ us t n m, us ++ [t] <+: ts →
      ((opening l).run (fun _ => k) us).ledger.find? id = some n → n.state = .agreeing →
      ((opening l).run (fun _ => k) (us ++ [t])).ledger.find? id = some m → m.state = .agreed →
      m.agreement = some a

theorem mem_agreementsSent_of_prefix {ts : List (Turn Unit)} {id : String} {a : Agreement}
    (hp : us <+: ts) (ha : a ∈ agreementsSent id ((opening l).history (fun _ => k) us)) :
    a ∈ agreementsSent id ((opening l).history (fun _ => k) ts) := by
  obtain ⟨vs, rfl⟩ := hp
  rw [history_append, agreementsSent_append]
  exact List.mem_append_left _ ha

/-- **A negotiation has one agreement iff its agreements have one date.**  Every agreement that a
worker sends about a negotiation in a run was made of what was there at first, at the moment of some
turn; a negotiation that becomes agreed carries the one that was sent last.  So they are all one and
the same iff no two of them were made in different seconds. -/
theorem one_agreement_iff (k : Worker) (l : Ledger) (ts : List (Turn Unit)) (id : String) :
    let sent := agreementsSent id ((opening l).history (fun _ => k) ts)
    (∀ a ∈ sent, ∃ n, l.find? id = some n ∧
      ∃ t ∈ ts, Duty.agreementOf k.manager.context t.chance.clock n = .ok (some a)) ∧
    (∀ us t n m, us ++ [t] <+: ts →
      ((opening l).run (fun _ => k) us).ledger.find? id = some n → n.state = .agreeing →
      ((opening l).run (fun _ => k) (us ++ [t])).ledger.find? id = some m → m.state = .agreed →
      ∃ a, m.agreement = some a ∧
        (agreementsSent id ((opening l).history (fun _ => k) us)).getLast? = some a) ∧
    (OneAgreement k l ts id ↔ ∀ a ∈ sent, ∀ b ∈ sent, a.signedAt = b.signedAt) := by
  intro sent
  have hmade (a : Agreement) (ha : a ∈ sent) := exists_agreementOf_sent k l ts ha
  have hlast (us : List (Turn Unit)) (t : Turn Unit) (n m : Negotiation) (_ : us ++ [t] <+: ts)
      (hn : ((opening l).run (fun _ => k) us).ledger.find? id = some n)
      (hagreeing : n.state = .agreeing)
      (hm : ((opening l).run (fun _ => k) (us ++ [t])).ledger.find? id = some m)
      (hagreed : m.state = .agreed) := exists_agreement_of_stored hn hagreeing hm hagreed
  refine ⟨hmade, hlast, ?_, fun hdates => ?_⟩
  -- made of the same negotiation, two agreements differ in their dates at most
  · rintro ⟨a, hsame, -⟩ b hb c hc
    rw [hsame b hb, hsame c hc]
  · have hone : ∀ a ∈ sent, ∀ b ∈ sent, a = b := by
      intro a ha b hb
      obtain ⟨n, hn, t, -, hof⟩ := hmade a ha
      obtain ⟨n', hn', t', -, hof'⟩ := hmade b hb
      obtain rfl : n = n' := by rw [hn] at hn'; exact Option.some.inj hn'
      exact Duty.eq_of_agreementOf hof hof' (hdates a ha b hb)
    obtain ⟨a, ha⟩ : ∃ a, ∀ b ∈ sent, b = a := by
      cases hs : sent with
      | nil => exact ⟨default, List.forall_mem_nil _⟩
      | cons a as => exact ⟨a, fun b hb => hone b (hs ▸ hb) a (hs ▸ List.mem_cons_self ..)⟩
    refine ⟨a, ha, fun us t n m hp hn hagreeing hm hagreed => ?_⟩
    -- what is stored was sent, so it is the same as everything else that was sent
    obtain ⟨b, hb, hget⟩ := hlast us t n m hp hn hagreeing hm hagreed
    have hmem : b ∈ sent := mem_agreementsSent_of_prefix
      ((List.prefix_append us [t]).trans hp) (List.mem_of_getLast? hget)
    rw [hb, ha b hmem]

/-! ### Two attempts -/

/-- A request that the provider agreed to. -/
def agreeable : Negotiation := { Negotiation.specimen with state := .agreeing }

/-- A provider. -/
def scribe : Worker := ⟨"worker", 60000, .provider, "provider", {}, 5, false⟩

/-- A round in which the agreement is sent and its answer recorded. -/
def signingRound (now : Moment) (answer : Answer) : List (Turn Unit) :=
  let acts : List Act :=
    [.start, .lease, .lease] ++ List.replicate 4 (.proceed 0) ++ List.replicate 3 .lease
  acts.map fun act => ⟨(), act, now, now, "message-1", answer⟩

/-- **Two attempts send two agreements.**  No answer comes to the first one, which the other side
may have taken all the same; the second one, four seconds later, is dated anew. -/
theorem dates_differ :
    ¬ ∀ (k : Worker) (l : Ledger) (ts : List (Turn Unit)) (id : String),
      k.manager.side = .provider → OneAgreement k l ts id := by
  intro h
  obtain ⟨a, hsame, -⟩ := h scribe (Ledger.empty.put ⟨agreeable, none⟩)
    (signingRound 5000 (.error default) ++ signingRound 9000 (.ok (.succeeded default)))
    "negotiation-1" rfl
  have hdates : (agreementsSent "negotiation-1"
      ((opening (Ledger.empty.put ⟨agreeable, none⟩)).history (fun _ => scribe)
        (signingRound 5000 (.error default) ++
          signingRound 9000 (.ok (.succeeded default))))).map (·.signedAt) = [5, 9] := by
    decide +kernel
  have hall : ∀ date ∈ ([5, 9] : List UInt64), date = a.signedAt := by
    rw [← hdates]
    intro date hdate
    obtain ⟨b, hb, rfl⟩ := List.mem_map.1 hdate
    rw [hsame b hb]
  have hfirst := hall 5 (by simp)
  have hsecond := hall 9 (by simp)
  rw [← hsecond] at hfirst
  exact absurd hfirst (by decide)

end Workshop

end Parley
