import Parley.Proofs.Handling.Sending
import Parley.Proofs.Workshop.Footprint

/-!
# Handlings that fail

A negotiation that is handed out goes through a handler, whatever state it is in and whatever is
stored by then.  Unless it counts as processed, nothing comes of it but the end of its lease.

* `Member.run_received` : a member is handled, and then its lease is given back or not.
* `Ledger.Frees`, `Ledger.Spares` : a ledger after the lease on one record was ended, or was left to
  somebody else.
* `Verdict.Excuses` : what may have been sent all the same.
* `Duty.spared_run` : the handling itself, from stage to stage.
* `failed_spares` : the handling, and the lease that is given back afterwards.
* `offering_sends_and_fails` : a handler that is not made for the state of a negotiation may send a
  message before it fails.

What this does **not** say: that a message which was sent before the ledger refused to store is
taken back.  The other side has it.
-/

namespace Parley

variable {σ : Type} {v : Venue σ}

/-! ### A handling and what follows it -/

namespace Member

variable {handler : Handler} {n : Negotiation} {w : Verdict}

/-- A handling goes to its end, and then the member goes to its own. -/
theorem run_handling (n : Negotiation) (h : Handling) (s : σ) :
    (handling n h).run v handler s =
      (ofHandling n (h.run v s).1).run v handler (h.run v s).2 := by
  -- the induction is on the steps of the handling that are left
  induction hr : h.rank using Nat.strongRecOn generalizing h s with
  | ind r ih =>
    rw [run_of_rank_ne_zero (show (handling n h).rank ≠ 0 from Nat.succ_ne_zero _)]
    show (ofHandling n (h.step v s).1).run v handler (h.step v s).2 = _
    cases hf : h.isFinished with
    | true =>
      cases h with
      | finished w => rw [Handling.run_finished]; rfl
      | storing n' | attempting m t stage => cases hf
    | false =>
      rw [Handling.run_of_not_finished hf]
      cases hnext : (h.step v s).1 with
      | finished w => rw [Handling.run_finished]
      | storing n' | attempting m t stage =>
        have hlt := Handling.rank_step_lt (v := v) hf s
        rw [← hnext, ← ih _ (hr ▸ hlt) _ _ rfl, hnext]
        rfl

theorem run_received (n : Negotiation) (s : σ) :
    (received n).run v handler s =
      (ofHandling n ((handler (v.freshId s).1 (v.now (v.freshId s).2) n).run v
        (v.freshId s).2).1).run v handler
        ((handler (v.freshId s).1 (v.now (v.freshId s).2) n).run v (v.freshId s).2).2 := by
  set h := handler (v.freshId s).1 (v.now (v.freshId s).2) n with hh
  rw [run_of_rank_ne_zero (show (received n).rank ≠ 0 from Nat.succ_ne_zero _)]
  show (ofHandling n h).run v handler (v.freshId s).2 = _
  cases h with
  | finished w => rw [Handling.run_finished]
  | storing n' | attempting m t stage => exact run_handling ..

/-- Unless a negotiation was processed, its lease is given back in the end. -/
theorem run_ofHandling_of_ne (hw : w ≠ .outcome .processed) (s : σ) :
    (ofHandling n (.finished w)).run v handler s =
      (.settled n w, (v.atDesk (·.release n.id) s).2) := by
  have hof : ofHandling n (.finished w) = .releasing n w := by
    rcases w with (_ | _ | _) | _ | _
    · exact absurd rfl hw
    all_goals rfl
  rw [hof, run_of_rank_ne_zero (show (releasing n w).rank ≠ 0 from Nat.succ_ne_zero _)]
  exact run_of_rank_eq_zero rfl _

end Member

/-! ### What is left of a ledger -/

namespace Ledger

variable {l l' l'' : Ledger} {id holder : String} {now : Moment}

/-- The lease on the record of an id was ended, and nothing else was done. -/
def Frees (l l' : Ledger) (id : String) : Prop := ∀ i, l'.record? i =
  if i = id then (l.record? i).map fun x => ⟨x.negotiation, none⟩ else l.record? i

theorem frees_setLease (l : Ledger) (id : String) : l.Frees (l.setLease [id] none) id := by
  intro i
  split_ifs with hi
  · subst hi
    rw [record?_setLease]
    refine Option.map_congr fun x hx => Record.withLease_of_mem _ ?_
    exact List.mem_singleton.2 (id_of_record? hx)
  · exact record?_setLease_of_not_mem fun hm => hi (List.mem_singleton.1 hm)

theorem Frees.trans (h : l.Frees l' id) (h' : l'.Frees l'' id) : l.Frees l'' id := by
  intro i
  rw [h' i, h i]
  split_ifs
  · rw [Option.map_map]
    rfl
  · rfl

theorem Frees.blocker?_eq_none (h : l.Frees l' id) (x : Record) (hx : l'.record? id = some x) :
    x.blocker? holder now = none := by
  rw [h id, if_pos rfl] at hx
  obtain ⟨y, -, rfl⟩ := Option.map_eq_some_iff.1 hx
  rfl

theorem free_iff : (∀ x, l.record? id = some x → x.blocker? holder now = none) ↔
    ∀ le, l.leaseOf? id = some le → le.holder = holder ∨ le.expiry ≤ now := by
  rw [leaseOf?]
  cases l.record? id with
  | none => simp
  | some x => simp [Record.blocker?_eq_none_iff]

/-- What a ledger is after a handling that failed, by a worker who leases as `holder`. -/
structure Spares (l l' : Ledger) (id holder : String) (now : Moment) : Prop where
  /-- Every negotiation is stored as it was. -/
  find?_eq : ∀ i, l'.find? i = l.find? i
  /-- The leases on other records are as they were. -/
  others : ∀ i, i ≠ id → l'.leaseOf? i = l.leaseOf? i
  /-- A live lease that somebody else has is kept. -/
  held : ∀ le, l.leaseOf? id = some le → le.holder ≠ holder → now < le.expiry →
    l'.leaseOf? id = some le
  /-- If there is none, no lease is left. -/
  freed : (∀ le, l.leaseOf? id = some le → le.holder = holder ∨ le.expiry ≤ now) →
    l'.leaseOf? id = none

theorem Frees.spares (h : l.Frees l' id)
    (hfree : ∀ x, l.record? id = some x → x.blocker? holder now = none) :
    l.Spares l' id holder now where
  find?_eq i := by
    rw [find?, find?, h i]
    split_ifs
    · rw [Option.map_map]
      rfl
    · rfl
  others i hi := by rw [leaseOf?, leaseOf?, h i, if_neg hi]
  held le hle hne hlt := by
    rcases free_iff.1 hfree le hle with hown | hexpired
    · exact absurd hown hne
    · exact absurd hlt (UInt64.not_lt.2 hexpired)
  freed _ := by
    rw [leaseOf?, h id, if_pos rfl, Option.bind_map]
    cases l.record? id <;> rfl

theorem spares_of_held {x : Record} {other : String} (hx : l.record? id = some x)
    (hb : x.blocker? holder now = some other) : l.Spares l id holder now where
  find?_eq _ := rfl
  others _ _ := rfl
  held _ hle _ _ := hle
  freed h := by
    rw [free_iff.2 h x hx] at hb
    cases hb

end Ledger

/-! ### The handling -/

/-- What may have been sent by a handler that failed: nothing, or one message, if the ledger then
refused to store what came of the answer, or if the answer leads nowhere from the state of the
negotiation, which can only be if the handler is not made for it. -/
inductive Verdict.Excuses (d : Duty) (st : State) : Verdict → List (Message × Answer) → Prop where
  | silent (w : Verdict) : Excuses d st w []
  | store (e : StoreError) (m : Message) (a : Answer) :
      Excuses d st (.failed (.retry (.store e))) [(m, a)]
  | transition (e : TransitionError) (m : Message) (a : Answer)
      (hd : ∀ side, Duty.of? side st ≠ some d) :
      Excuses d st (.failed (.retry (.transition e))) [(m, a)]

/-- The end `r` of a handling that began in the world `s` is to count as processed, or nothing came
of it but the end of the lease. -/
def Duty.Spared (v : Venue σ) (sent : σ → List (Message × Answer)) (d : Duty) (n : Negotiation)
    (s : σ) (r : Handling × σ) : Prop :=
  ∃ w, r.1 = .finished w ∧ (w ≠ .outcome .processed →
    (∃ news, sent r.2 = sent s ++ news ∧ w.Excuses d n.state news) ∧
    ((v.desk r.2).ledger = (v.desk s).ledger ∨
      (∀ x, (v.desk s).ledger.record? n.id = some x →
        x.blocker? (v.desk s).handle.holder (v.desk s).now = none) ∧
      (v.desk s).ledger.Frees (v.desk r.2).ledger n.id))

namespace Duty

variable {k : Worker} {sent : σ → List (Message × Answer)} {d : Duty} {ctx : Context}
  {messageId : String} {clock : Moment} {n : Negotiation} {s : Sending} {u : σ}

theorem spared_finished (w : Verdict) : d.Spared v sent n u ((Handling.finished w).run v u) := by
  rw [Handling.run_finished]
  exact ⟨w, rfl, fun _ => ⟨⟨[], (List.append_nil _).symm, .silent w⟩, .inl rfl⟩⟩

theorem spared_processed {r : Handling × σ} (h : r.1 = .finished (.outcome .processed)) :
    d.Spared v sent n u r := ⟨_, h, fun hne => absurd rfl hne⟩

variable (hv : v.Quiet k sent)
include hv

theorem spared_storing (moved : Negotiation) :
    d.Spared v sent n u ((Handling.storing moved).run v u) := by
  have ho : (v.desk u).handle.outages = [] := by rw [hv.handle_desk]
  rcases Desk.save_cases ho moved with ⟨hsave, -⟩ | ⟨x, other, -, -, hsave⟩
  · refine spared_processed ?_
    rw [Handling.run_of_step_finished rfl (Handling.step_storing hsave)]
  · have hstep : (Handling.storing moved).step v u =
        (.finished (.failed (.store (.alreadyLeased moved.id other))), v.glance u) := by
      show (Handling.ofSave ((v.desk u).save moved).1, v.setDesk ((v.desk u).save moved).2 u) = _
      rw [hsave]
      rfl
    rw [Handling.run_of_step_finished rfl hstep]
    refine ⟨_, rfl, fun _ => ⟨⟨[], ?_, .silent _⟩, .inl (hv.ledger_setDesk ..)⟩⟩
    rw [List.append_nil]
    exact hv.sent_setDesk ..

theorem spared_early (m : Message) (policy : RetryPolicy) :
    d.Spared v sent n u ((Handling.attempting m (s.attempt policy n) .early).run v u) := by
  have hback := Handling.givesBack_run_early hv.toServes m (s.attempt policy n) u
  have hsent := Handling.sent_run_of_outgoing hv.remembers
    (show (Handling.attempting m (s.attempt policy n) .early).outgoing? = none from rfl) u
  rcases (v.desk u).ledger.checkLease_cases n.id (v.desk u).handle.holder (v.desk u).now with
    ⟨-, hfree⟩ | ⟨x, other, hx, hb, -⟩
  · obtain ⟨hend, hrecords⟩ := hback.free hfree
    exact ⟨_, hend, fun _ => ⟨⟨[], by rw [hsent, List.append_nil], .silent _⟩,
      .inr ⟨hfree, hrecords⟩⟩⟩
  · obtain ⟨hend, hledger⟩ := hback.held x other hx hb
    exact ⟨_, hend, fun _ => ⟨⟨[], by rw [hsent, List.append_nil], .silent _⟩, .inl hledger⟩⟩

theorem spared_sending (hp : d.plan ctx messageId clock n = .send s) :
    d.Spared v sent n u
      ((Handling.attempting s.message (s.attempt ctx.policy n) .sending).run v u) := by
  set a := (v.dispatch s.message u).1 with ha
  set u' := (v.dispatch s.message u).2 with hu'
  have hsent : sent ((Handling.attempting s.message (s.attempt ctx.policy n) .sending).run v u).2 =
      sent u ++ [(s.message, a)] := by
    rw [Handling.run_sending, Handling.sent_run_of_outgoing hv.remembers rfl]
    exact hv.sent_dispatch ..
  have hglance : (v.desk (v.glance u')).ledger = (v.desk u).ledger :=
    (hv.ledger_setDesk ..).trans (hv.ledger_dispatch ..)
  rw [Handling.run_sending] at hsent ⊢
  by_cases hfound : ∃ c, (v.desk u').ledger.find? n.id = some c ∧ c.state = n.state
  swap
  · -- the answer is dropped
    refine spared_processed ?_
    rw [Handling.run_answered_of_moved hv.toServes fun c hc hstate => hfound ⟨c, hc, hstate⟩]
  obtain ⟨c, hc, hstate⟩ := hfound
  rw [Handling.run_answered_of_same hv.toServes hc hstate] at hsent ⊢
  cases hsettle : (s.attempt ctx.policy n).settle (v.now (v.glance u')) a c with
  | error e =>
    have hunbound (side : Side) : Duty.of? side n.state ≠ some d := by
      intro hd
      obtain ⟨-, changed, -, hok, -⟩ :=
        settle_cases hd hp hstate ctx.policy (v.now (v.glance u')) a
      rw [hok] at hsettle
      cases hsettle
    rw [Handling.run_found_of_error hsettle] at hsent ⊢
    exact ⟨_, rfl, fun _ => ⟨⟨_, hsent, .transition e s.message a hunbound⟩,
      .inl ((hv.ledger_setDesk ..).trans hglance)⟩⟩
  | ok changed =>
    have hstores := Handling.stores_run_found (m := s.message) hv.toServes hsettle
    set desk := v.desk (v.glance u')
    rcases desk.ledger.checkLease_cases changed.id desk.handle.holder desk.now with
      ⟨-, hfree⟩ | ⟨x, other, hx, hb, -⟩
    · exact spared_processed (hstores.free hfree).1
    · obtain ⟨hend, hledger⟩ := hstores.held x other hx hb
      exact ⟨_, hend, fun _ => ⟨⟨_, hsent, .store _ s.message a⟩, .inl (hledger.trans hglance)⟩⟩

/-- **A handling that fails changes nothing** but its lease, and has sent nothing but what is
excused. -/
theorem spared_run (d : Duty) (ctx : Context) (messageId : String) (clock : Moment)
    (n : Negotiation) (u : σ) :
    d.Spared v sent n u ((d.begin ctx messageId clock n).run v u) := by
  unfold Duty.begin
  cases hp : d.plan ctx messageId clock n with
  | advance target =>
    show d.Spared v sent n u ((Handling.advance target clock n).run v u)
    unfold Handling.advance
    cases n.moveTo target clock with
    | ok moved => exact spared_storing hv moved
    | error e => exact spared_finished _
  | send s =>
    show d.Spared v sent n u ((Handling.attempting s.message (s.attempt ctx.policy n)
      ((s.attempt ctx.policy n).start clock)).run v u)
    unfold Attempt.start
    split_ifs
    · exact spared_sending hv hp
    · exact spared_early hv s.message ctx.policy
  | skip => exact spared_finished _
  | refuse e => exact spared_finished _

end Duty

/-! ### The member -/

theorem Desk.spares_release {d : Desk} {l : Ledger} {id : String} (ho : d.handle.outages = [])
    (h : d.ledger = l ∨
      (∀ x, l.record? id = some x → x.blocker? d.handle.holder d.now = none) ∧
      l.Frees d.ledger id) :
    l.Spares (d.release id).2.ledger id d.handle.holder d.now := by
  rcases d.ledger.checkLease_cases id d.handle.holder d.now with
    ⟨-, hfree⟩ | ⟨x, other, hx, hb, he⟩
  · rw [release_eq_ok ho hfree]
    have hfrees := d.ledger.frees_setLease id
    rcases h with rfl | ⟨hfree', h⟩
    · exact hfrees.spares hfree
    · exact (h.trans hfrees).spares hfree'
  · have hsame : (d.release id).2 = d := by
      rw [release, call_eq ho, Ledger.release, he]
      rfl
    rw [hsame]
    rcases h with rfl | ⟨-, h⟩
    · exact Ledger.spares_of_held hx hb
    · rw [h.blocker?_eq_none x hx] at hb
      cases hb

/-- **A negotiation that does not count as processed is left as it was.**  Whatever the handler, the
negotiation, what is stored and leased, and the answer to a message: nothing in the ledger is
changed but that the lease on the negotiation ends, unless it is a live one that somebody else has;
and no message was sent before the failure that is not excused. -/
theorem failed_spares {k : Worker} {sent : σ → List (Message × Answer)} {now : Moment}
    (hv : v.Quiet k sent) (hnow : ∀ u, (v.desk u).now = now) (d : Duty) (ctx : Context)
    (n : Negotiation) (s : σ) :
    let r := (Member.received n).run v (d.begin ctx) s
    ∃ w, r.1 = .settled n w ∧ (w ≠ .outcome .processed →
      (v.desk s).ledger.Spares (v.desk r.2).ledger n.id k.holder now ∧
      ∃ news, sent r.2 = sent s ++ news ∧ w.Excuses d n.state news) := by
  intro r
  have hr : r = _ := Member.run_received n s
  set u := (v.freshId s).2 with hu
  obtain ⟨w, hend, hspared⟩ :=
    Duty.spared_run hv d ctx (v.freshId s).1 (v.now u) n u
  set e := (d.begin ctx (v.freshId s).1 (v.now u) n).run v u with he
  rw [hend] at hr
  by_cases hw : w = .outcome .processed
  · subst hw
    refine ⟨_, ?_, fun h => absurd rfl h⟩
    rw [hr]
    exact congrArg Prod.fst (Member.run_of_rank_eq_zero rfl e.2)
  rw [Member.run_ofHandling_of_ne hw] at hr
  refine ⟨w, by rw [hr], fun _ => ?_⟩
  obtain ⟨⟨news, hnews, hexcuses⟩, hledger⟩ := hspared hw
  have hholder (u : σ) : (v.desk u).handle.holder = k.holder := by rw [hv.handle_desk]
  have hsent : sent r.2 = sent e.2 := by
    rw [hr]
    exact hv.sent_setDesk ..
  have hreleased : (v.desk r.2).ledger = ((v.desk e.2).release n.id).2.ledger := by
    rw [hr]
    exact hv.ledger_setDesk ..
  refine ⟨?_, news, by rw [hsent, hnews, hu, hv.sent_freshId], hexcuses⟩
  rw [hholder, hnow, hu, hv.ledger_freshId] at hledger
  rw [hreleased, ← hholder e.2, ← hnow e.2]
  refine Desk.spares_release (by rw [hv.handle_desk]) ?_
  rw [hholder, hnow]
  exact hledger

/-- Nothing can be agreed to when the id of the offer is no contract id; the lease is given back. -/
theorem failed_spares_malformed :
    let v := Workshop.steady ⟨5000, 5000, "message-1", default⟩ ⟨"worker", 60000, default⟩
    let n : Negotiation :=
      { Negotiation.specimen with state := .agreeing, offers := [⟨"1234", "asset", default⟩] }
    let s := (Ledger.empty.put ⟨n, some ⟨"worker", 4000, 60000⟩⟩, [])
    let r := (Member.received n).run v (Duty.sendAgreement.begin default) s
    v.Quiet ⟨"worker", 60000, default⟩ Prod.snd ∧ (∀ u, (v.desk u).now = 5000) ∧
    r.1.verdict? = some (.outcome .notProcessed) ∧ s.1.leaseOf? n.id ≠ none ∧
    r.2.1.find? n.id = s.1.find? n.id ∧ r.2.1.leaseOf? n.id = none := by
  intro v n s r
  have hv := Workshop.quiet_steady ⟨5000, 5000, "message-1", default⟩ ⟨"worker", 60000, default⟩
  have hnow : ∀ u, (v.desk u).now = 5000 := fun _ => rfl
  have hverdict : r.1.verdict? = some (.outcome .notProcessed) := by decide +kernel
  have hlease : s.1.leaseOf? n.id = some ⟨"worker", 4000, 60000⟩ := by decide +kernel
  obtain ⟨w, hw, hspares⟩ := failed_spares hv hnow .sendAgreement default n s
  obtain rfl : w = .outcome .notProcessed := by
    rw [show r.1 = .settled n w from hw] at hverdict
    exact Option.some.inj hverdict
  have hleft := (hspares (by decide)).1
  refine ⟨hv, hnow, hverdict, by rw [hlease]; nofun, hleft.find?_eq n.id, hleft.freed ?_⟩
  intro le hle
  obtain rfl := Option.some.inj (hlease.symm.trans hle)
  exact .inl rfl

/-- **A message is sent and then the handling fails**, though the ledger refuses nothing: an offer
about a negotiation that was accepted already. -/
theorem offering_sends_and_fails :
    ¬ ∀ (c : Chance) (k : Worker) (d : Duty) (ctx : Context) (n : Negotiation) (l : Ledger)
      (w : Verdict), let r := (Member.received n).run (Workshop.steady c k) (d.begin ctx) (l, [])
      r.1.verdict? = some w → w ≠ .outcome .processed →
        r.2.2 = [] ∨ ∃ e, w = .failed (.store e) ∨ w = .failed (.retry (.store e)) := by
  intro h
  let n : Negotiation := { Negotiation.specimen with state := .accepted }
  let l := Ledger.empty.put ⟨n, some ⟨"worker", 4000, 60000⟩⟩
  have hverdict : ((Member.received n).run (Workshop.steady
      ⟨5000, 5000, "message-1", .ok (.succeeded default)⟩ ⟨"worker", 60000, default⟩)
      (Duty.sendOffer.begin default) (l, [])).1.verdict? =
        some (.failed (.retry (.transition (.illegal "negotiation-1" .accepted .offered)))) := by
    decide +kernel
  rcases h _ _ _ _ _ _ _ hverdict nofun with hsilent | ⟨e, he | he⟩
  · revert hsilent
    rw [← List.length_eq_zero_iff]
    decide +kernel
  · cases he
  · cases he

end Parley
