import Parley.Proofs.Workshop.Footprint

/-!
# What a handling comes to

The steps of a handling read in one: how it ends, and what is stored about its negotiation then.

* `Handling.upshot` is computed from the stage that the handling has reached, the worker's clock
  and the answer that its message gets, if one is still to be sent.  For a duty it does not depend
  on the id of the message (`Duty.upshot_begin`).
* `Handling.Follows.step_upshot` : a step leaves the upshot as it is and the ledger too, or it is
  the step in which the upshot is stored.
* `Member.Heads`, `heads_step` : so it is for a member of a batch, which gives its lease back in the
  end.
* `Member.Underway`, `Underway.step` : what is known of a member that was leased under a worker's
  name is kept by its steps; `Underway.ends_run`, `exists_ends_run` : so a run of the member stores
  its upshot and sends its message, and does nothing else.
-/

namespace Parley

/-! ### Handlings -/

/-- What becomes of a negotiation when an answer is recorded on it: how the handling ends, and what
is stored then. -/
def Attempt.record (t : Attempt) (clock : Moment) (answer : Answer) (current : Negotiation) :
    Verdict × Negotiation :=
  match t.settle clock answer current with
  | .ok changed => (.outcome .processed, changed)
  | .error e => (.failed (.retry (.transition e)), current)

/-- What a handling of a negotiation comes to: how it ends, and what is stored then.  The answer is
the one that a message will get that is not sent yet. -/
def Handling.upshot (clock : Moment) (answer : Answer) (n : Negotiation) :
    Handling → Verdict × Negotiation
  | storing changed => (.outcome .processed, changed)
  | attempting _ _ .early => (.outcome .delayed, n)
  | attempting _ t .sending => t.record clock answer n
  | attempting _ t (.answered a) => t.record clock a n
  | attempting _ t (.found a current) => t.record clock a current
  | finished v => (v, n)

theorem Handling.Concerns.id_upshot {n : Negotiation} {h : Handling} (hc : h.Concerns n.id)
    (clock : Moment) (answer : Answer) : (h.upshot clock answer n).2.id = n.id := by
  have hrecord {s : Sending} {policy : RetryPolicy} {n' current : Negotiation} (a : Answer)
      (hid : current.id = n.id) :
      ((s.attempt policy n').record clock a current).2.id = n.id := by
    unfold Attempt.record
    cases hs : (s.attempt policy n').settle clock a current with
    | ok changed => exact (Sending.id_of_settle hs).trans hid
    | error e => exact hid
  cases hc with
  | storing hid => exact hid
  | finished v => rfl
  | @attempting m s policy n' stage hid hfound =>
    cases stage with
    | early => rfl
    | sending => exact hrecord answer rfl
    | answered a => exact hrecord a rfl
    | found a current => exact hrecord a (hfound a current rfl)

/-- Two messages with the same consequences; they may differ in their headers. -/
structure Sending.Alike (s s' : Sending) : Prop where
  /-- They lead to the same state. -/
  success : s'.success = s.success
  /-- They carry the same agreement. -/
  agreement : s'.agreement = s.agreement
  /-- They are followed by the same notice. -/
  notifies : s'.notifies = s.notifies
  /-- They are of the same kind. -/
  kindName : s'.message.kindName = s.message.kindName

theorem Sending.Alike.attempt_eq {s s' : Sending} (h : s.Alike s') (policy : RetryPolicy)
    (n : Negotiation) : s'.attempt policy n = s.attempt policy n := by
  obtain ⟨hsuccess, hagreement, hnotifies, hkind⟩ := h
  have hsucceed : s'.succeed = s.succeed := by
    unfold Sending.succeed
    rw [hsuccess, hagreement]
  have hexhaust : s'.exhaust = s.exhaust := by
    unfold Sending.exhaust
    rw [hnotifies, hkind]
  rw [Sending.attempt, Sending.attempt, Sending.reactions, Sending.reactions, hsucceed, hexhaust]

/-- Two plans that differ in the id of the message only. -/
inductive Plan.Alike : Plan → Plan → Prop where
  /-- They do not differ. -/
  | same (p : Plan) : Alike p p
  /-- The messages have the same consequences. -/
  | send {s s' : Sending} (h : s.Alike s') : Alike (.send s) (.send s')

namespace Duty

theorem sendWith_alike (n : Negotiation) {f : Header → Sending}
    (hf : ∀ head head', (f head).Alike (f head')) (id id' : String) :
    (sendWith n id f).Alike (sendWith n id' f) := by
  unfold sendWith Negotiation.header Header.make
  split_ifs
  · exact .same _
  · exact .same _
  · exact .same _
  · exact .send (hf _ _)

theorem plan_alike (d : Duty) (ctx : Context) (now : Moment) (n : Negotiation) (id id' : String) :
    (d.plan ctx id now n).Alike (d.plan ctx id' now n) := by
  cases d with
  | takeRequest | beginFinalizing | beginRequesting | beginVerifying => exact .same _
  | sendAcceptance | sendApproval | sendTermination =>
    exact sendWith_alike n (fun _ _ => ⟨rfl, rfl, rfl, rfl⟩) id id'
  | sendOffer | sendRequest =>
    unfold plan
    cases n.lastOffer? with
    | none => exact .same _
    | some o => exact sendWith_alike n (fun _ _ => ⟨rfl, rfl, rfl, rfl⟩) id id'
  | sendAgreement =>
    unfold plan
    rcases agreementOf ctx now n with e | (_ | a)
    · exact .same _
    · exact .same _
    · exact sendWith_alike n (fun _ _ => ⟨rfl, rfl, rfl, rfl⟩) id id'
  | sendFinalization =>
    unfold plan
    cases n.agreement with
    | none => exact .same _
    | some a => exact sendWith_alike n (fun _ _ => ⟨rfl, rfl, rfl, rfl⟩) id id'

/-- What the handling of a duty comes to does not depend on the id of the message. -/
theorem upshot_begin (d : Duty) (ctx : Context) (clock : Moment) (a : Answer) (n : Negotiation)
    (id id' : String) :
    (d.begin ctx id' clock n).upshot clock a n = (d.begin ctx id clock n).upshot clock a n := by
  have halike := d.plan_alike ctx clock n id id'
  unfold Duty.begin
  generalize d.plan ctx id clock n = p at halike ⊢
  generalize d.plan ctx id' clock n = p' at halike ⊢
  cases halike with
  | same => rfl
  | @send s s' h =>
    show (Handling.attempting s'.message (s'.attempt ctx.policy n)
        ((s'.attempt ctx.policy n).start clock)).upshot clock a n =
      (Handling.attempting s.message (s.attempt ctx.policy n)
        ((s.attempt ctx.policy n).start clock)).upshot clock a n
    rw [h.attempt_eq]
    unfold Attempt.start
    split_ifs <;> rfl

/-- What a duty about a negotiation comes to, at a moment of the worker's clock and with the answer
that the message gets, if one is sent. -/
def upshot (d : Duty) (ctx : Context) (clock : Moment) (a : Answer) (n : Negotiation) :
    Verdict × Negotiation :=
  (d.begin ctx "" clock n).upshot clock a n

end Duty

section

variable {ctx : Context} {side : Side} {d : Duty} {n : Negotiation} {h : Handling}
  {holder : String} {since span : Moment} {c : Chance} {l : Ledger} {a : Answer}

/-- The end of a lease on a record is the storing of the same negotiation once more. -/
theorem Ledger.setLease_none_eq_put {lease : Option Lease}
    (h : l.record? n.id = some ⟨n, lease⟩) : l.setLease [n.id] none = l.put ⟨n, none⟩ := by
  have hc : l.contains n.id = true := contains_eq_true_iff.2 ⟨_, h⟩
  have hn := record?_eq_some_iff.1 h
  have hmap : l.records.map (·.withLease [n.id] none) =
      l.records.map (Record.replaceBy ⟨n, none⟩) := by
    refine List.map_congr_left fun r hr => ?_
    by_cases hid : r.id = n.id
    · obtain rfl := eq_of_mem_of_id_eq hr hn.1 hid
      rw [Record.withLease_of_mem _ (List.mem_singleton.2 hid), Record.replaceBy]
      exact (if_pos rfl).symm
    · rw [Record.withLease_of_not_mem _ (by simpa using hid), Record.replaceBy]
      exact (if_neg hid).symm
  rw [put, dif_pos (show l.contains (Record.id ⟨n, none⟩) = true from hc)]
  simp only [setLease, mapRecords, hmap]

/-- **A step leaves the upshot as it is**, and the ledger too, or it is the step in which the upshot
is stored, which ends the lease. -/
theorem Handling.Follows.step_upshot (hd : Duty.of? side n.state = some d) (hf : h.Follows ctx d n)
    (hheld : l.record? n.id = some ⟨n, some ⟨holder, since, span⟩⟩)
    (hanswer : h.outgoing?.isSome = true → c.answer = a) :
    (∃ next, h.step (c.venue holder span) l = (next, l) ∧ next.isFinished = false ∧
      next.upshot c.clock a n = h.upshot c.clock a n) ∨
    ∃ o stored, h.upshot c.clock a n = (.outcome o, stored) ∧ stored.id = n.id ∧
      (o = .processed ∨ (o = .delayed ∧ stored = n)) ∧
      h.step (c.venue holder span) l = (.finished (.outcome o), l.put ⟨stored, none⟩) := by
  have hfree := Member.blocker?_own c.now hheld
  cases hf with
  | @storing now changed hs hmoved =>
    have hid := Negotiation.id_of_moveTo hmoved
    exact .inr ⟨.processed, changed, rfl, hid, .inl rfl,
      Handling.step_storing (v := c.venue holder span)
        (Desk.save_eq_ok (d := ⟨⟨holder, span, []⟩, l, c.now⟩) rfl (hid ▸ hfree))⟩
  | @attempting messageId now s stage hp hfound =>
    cases stage with
    | sending =>
      obtain rfl : c.answer = a := hanswer rfl
      exact .inl ⟨_, rfl, rfl, rfl⟩
    | early =>
      refine .inr ⟨.delayed, n, rfl, rfl, .inr ⟨rfl, rfl⟩, ?_⟩
      have hstep := Handling.step_early (v := c.venue holder span) (m := s.message)
        (t := s.attempt ctx.policy n)
        (Desk.release_eq_ok (d := ⟨⟨holder, span, []⟩, l, c.now⟩) rfl hfree)
      rw [hstep, ← Ledger.setLease_none_eq_put hheld]
      rfl
    | answered b =>
      have hfind : l.find? n.id = some n := Ledger.find?_eq_some_iff.2 ⟨_, hheld⟩
      refine .inl ⟨.attempting s.message (s.attempt ctx.policy n) (.found b n), ?_, rfl, rfl⟩
      rw [Handling.step_answered_eq, show (s.attempt ctx.policy n).negotiation.id = n.id from rfl,
        hfind]
      exact Prod.ext (if_pos rfl) rfl
    | found b current =>
      obtain rfl := hfound b current rfl
      obtain ⟨changed, hsettle, hid, -, -⟩ := Duty.exists_settle hd hp ctx.policy c.clock b
      refine .inr ⟨.processed, changed, ?_, hid, .inl rfl,
        Handling.step_found (v := c.venue holder span) hsettle
          (Desk.save_eq_ok (d := ⟨⟨holder, span, []⟩, l, c.now⟩) rfl (hid ▸ hfree))⟩
      show (s.attempt ctx.policy current).record c.clock b current = _
      rw [Attempt.record, hsettle]

end

/-! ### Members -/

namespace Member

theorem Follows.concerns {ctx : Context} {d : Duty} {m : Member} (h : m.Follows ctx d) :
    m.Concerns := by
  cases m with
  | handling n g =>
    have hg : g.Follows ctx d n := h
    cases hg with
    | storing hs hmoved => exact .storing (Negotiation.id_of_moveTo hmoved)
    | attempting hp hfound => exact .attempting rfl fun a current he => hfound a current he ▸ rfl
  | received n | releasing n v | settled n v => trivial

theorem rank_le (m : Member) : m.rank ≤ 6 := by
  cases m with
  | received n => exact Nat.le_refl 6
  | handling n h =>
    have := h.rank_le
    show h.rank + 2 ≤ 6
    omega
  | releasing n w => exact Nat.le_add_left 1 5
  | settled n w => exact Nat.zero_le 6

theorem isSome_verdict?_of_rank {m : Member} (h : m.rank = 0) : m.verdict?.isSome = true := by
  cases m with
  | settled n w => rfl
  | received n | releasing n w => cases h
  | handling n g => exact absurd h (Nat.succ_ne_zero _)

theorem rank_step_le {σ : Type} (v : Venue σ) (handler : Handler) (m : Member) (s : σ) :
    (m.step v handler s).1.rank ≤ m.rank - 1 := by
  by_cases h : m.rank = 0
  · cases m with
    | settled n w => exact Nat.le_refl 0
    | received n | releasing n w => cases h
    | handling n g => exact absurd h (Nat.succ_ne_zero _)
  · exact Nat.le_sub_one_of_lt (rank_step_lt v handler m s h)

/-- A member is on its way to an upshot. -/
def Heads (handler : Handler) (clock : Moment) (a : Answer) (u : Verdict × Negotiation) :
    Member → Prop
  | received n => ∀ messageId, (handler messageId clock n).upshot clock a n = u
  | handling n h => h.upshot clock a n = u
  | releasing n v => u = (v, n)
  | settled _ v => u.1 = v

section

variable {ctx : Context} {side : Side} {d : Duty} {n : Negotiation} {h : Handling}
  {handler : Handler} {holder : String} {since span clock : Moment} {c : Chance} {l : Ledger}
  {a : Answer} {u : Verdict × Negotiation} {m : Member}

theorem heads_ofHandling (hu : h.upshot clock a n = u) :
    (ofHandling n h).Heads handler clock a u := by
  unfold ofHandling
  split
  · exact hu ▸ rfl
  · exact hu.symm
  · exact hu

/-- A step keeps a member on its way, and once the member does not rely on its lease any more, its
upshot is stored. -/
theorem heads_step (hd : Duty.of? side m.negotiation.state = some d) (hf : m.Follows ctx d)
    (hheld : m.holds = true →
      l.record? m.negotiation.id = some ⟨m.negotiation, some ⟨holder, since, span⟩⟩)
    (hdone : m.holds = false → l.record? m.negotiation.id = some ⟨u.2, none⟩)
    (hanswer : m.outgoing?.isSome = true → c.answer = a)
    (hu : m.Heads (d.begin ctx) c.clock a u) :
    (m.step (c.venue holder span) (d.begin ctx) l).1.Heads (d.begin ctx) c.clock a u ∧
    ((m.step (c.venue holder span) (d.begin ctx) l).1.holds = false →
      (m.step (c.venue holder span) (d.begin ctx) l).2.record? m.negotiation.id =
        some ⟨u.2, none⟩) := by
  cases m with
  | settled n v => exact ⟨hu, hdone⟩
  | received n =>
    refine ⟨heads_ofHandling (hu c.messageId), fun hh => ?_⟩
    -- nothing is settled yet when the handling begins
    have hd : Duty.of? side n.state = some d := hd
    have hh : (ofHandling n (d.begin ctx c.messageId c.clock n)).holds = false := hh
    rcases Duty.begin_cases hd ctx c.messageId c.clock with
      ⟨-, moved, -, hb⟩ | ⟨-, ⟨s, stage, -, -, hb⟩ | hb | ⟨e, hb⟩⟩
    · rw [hb] at hh; cases hh
    · rw [hb] at hh; cases hh
    · rw [hb] at hh; cases hh
    · rw [hb] at hh; cases hh
  | handling n h =>
    show (ofHandling n (h.step (c.venue holder span) l).1).Heads (d.begin ctx) c.clock a u ∧
      ((ofHandling n (h.step (c.venue holder span) l).1).holds = false →
        (h.step (c.venue holder span) l).2.record? n.id = some ⟨u.2, none⟩)
    rcases hf.step_upshot hd (hheld rfl) hanswer with
      ⟨next, hstep, hgoing, hsame⟩ | ⟨o, stored, hup, hid, ho, hstep⟩
    · rw [hstep]
      refine ⟨heads_ofHandling (hsame.trans hu), fun hh => ?_⟩
      cases next with
      | finished v => cases hgoing
      | storing n' => cases hh
      | attempting m t stage => cases hh
    · rw [hstep]
      have hu : h.upshot c.clock a n = u := hu
      obtain rfl : u = (.outcome o, stored) := hu.symm.trans hup
      refine ⟨?_, fun _ => Ledger.record?_put.trans (if_pos hid)⟩
      rcases ho with rfl | ⟨rfl, rfl⟩
      · rfl
      · rfl
  | releasing n v =>
    obtain rfl : u = (v, n) := hu
    refine ⟨rfl, fun _ => ?_⟩
    -- the lease on the record is the member's own, or there is none any more
    have hr : ∃ lease, l.record? n.id = some ⟨n, lease⟩ ∧
        ∀ le, lease = some le → le.holder = holder := by
      cases hh : (releasing n v).holds with
      | true => exact ⟨_, hheld hh, by rintro le ⟨rfl⟩; rfl⟩
      | false => exact ⟨none, hdone hh, nofun⟩
    obtain ⟨lease, hr, hown⟩ := hr
    show (Desk.release ⟨⟨holder, span, []⟩, l, c.now⟩ n.id).2.ledger.record? n.id = _
    rw [Desk.release_eq_ok (d := ⟨⟨holder, span, []⟩, l, c.now⟩) rfl
      (Ledger.blocker?_of_own hr hown), Ledger.setLease_none_eq_put hr]
    exact Ledger.record?_put.trans (if_pos rfl)

end

/-- A member that was leased under a worker's name, and whose record nobody else touches, is on its
way to what its duty comes to: either the record is as it was leased, or it holds the upshot. -/
structure Underway (k : Worker) (d : Duty) (since clock : Moment) (a : Answer) (l : Ledger)
    (m : Member) : Prop where
  /-- The duty is what the worker has to do about the negotiation. -/
  duty : Duty.of? k.manager.side m.negotiation.state = some d
  /-- The member goes on as the duty asks. -/
  follows : m.Follows k.manager.context d
  /-- What the member relies on is there. -/
  held : m.holds = true →
    l.record? m.negotiation.id = some ⟨m.negotiation, some ⟨k.holder, since, k.span⟩⟩
  /-- Afterwards its upshot is there. -/
  stored : m.holds = false → l.record? m.negotiation.id =
    some ⟨(d.upshot k.manager.context clock a m.negotiation).2, none⟩
  /-- The member comes to its upshot. -/
  heads : m.Heads (d.begin k.manager.context) clock a
    (d.upshot k.manager.context clock a m.negotiation)

theorem Goes.not_received {ctx : Context} {d : Duty} {holder : String} {c : Chance}
    {l l' : Ledger} {m m' : Member} {es : List Event} (h : Goes ctx d holder c l m m' l' es)
    (n : Negotiation) : m' ≠ .received n := by cases h <;> nofun

theorem Goes.outgoing?_eq_none {ctx : Context} {d : Duty} {holder : String} {c : Chance}
    {l l' : Ledger} {m m' : Member} {es : List Event} (h : Goes ctx d holder c l m m' l' es)
    (hm : ∀ n, m ≠ .received n) : m'.outgoing? = none := by
  cases h with
  | begins | passes => exact absurd rfl (hm _)
  | _ => rfl

/-- What a ledger, a member and the list of what was sent have become by way of one negotiation,
about which this was sent. -/
structure Advances (k : Worker) (d : Duty) (since clock : Moment) (a : Answer) (n : Negotiation)
    (news : List (Message × Answer)) (l l' : Ledger) (es es' : List (Message × Answer))
    (m' : Member) : Prop where
  /-- The member is on its way to its upshot. -/
  underway : m'.Underway k d since clock a l'
  /-- No other record was changed. -/
  others : ∀ id, id ≠ n.id → l'.record? id = l.record? id
  /-- No record was put in or taken out. -/
  ids : l'.ids = l.ids
  /-- Nothing else was sent. -/
  sent : es' = es ++ news

theorem Advances.trans {k : Worker} {d : Duty} {since clock : Moment} {a : Answer}
    {n : Negotiation} {news news' es es₁ es₂ : List (Message × Answer)} {l l₁ l₂ : Ledger}
    {m₁ m₂ : Member} (h : Advances k d since clock a n news l l₁ es es₁ m₁)
    (h' : Advances k d since clock a n news' l₁ l₂ es₁ es₂ m₂) :
    Advances k d since clock a n (news ++ news') l l₂ es es₂ m₂ :=
  ⟨h'.underway, fun id hid => (h'.others id hid).trans (h.others id hid), h'.ids.trans h.ids,
    by rw [h'.sent, h.sent, List.append_assoc]⟩

theorem outgoing?_ofHandling (n : Negotiation) (h : Handling) :
    (ofHandling n h).outgoing? = h.outgoing? := by
  unfold ofHandling
  split
  · rfl
  · rfl
  · rfl

theorem sent_step_eq {σ : Type} {v : Venue σ} {k : Worker} {sent : σ → List (Message × Answer)}
    (hv : v.Quiet k sent) (handler : Handler) (m : Member) (s : σ) :
    sent (m.step v handler s).2 = sent s ++
      (m.outgoing?.map fun message => (message, (v.dispatch message s).1)).toList := by
  cases m with
  | received n => exact (hv.sent_freshId s).trans (List.append_nil _).symm
  | releasing n w => exact (hv.sent_setDesk ..).trans (List.append_nil _).symm
  | settled n w => exact (List.append_nil _).symm
  | handling n h => exact sent_handling_step hv h s

namespace Underway

variable {k : Worker} {d : Duty} {since clock : Moment} {a : Answer} {l l' : Ledger} {m : Member}

theorem received {n : Negotiation} (hd : Duty.of? k.manager.side n.state = some d)
    (hr : l.record? n.id = some ⟨n, some ⟨k.holder, since, k.span⟩⟩) :
    (Member.received n).Underway k d since clock a l where
  duty := hd
  follows := trivial
  held _ := hr
  stored h := nomatch h
  heads messageId := d.upshot_begin k.manager.context clock a n "" messageId

theorem congr (h : m.Underway k d since clock a l)
    (hr : l'.record? m.negotiation.id = l.record? m.negotiation.id) :
    m.Underway k d since clock a l' :=
  ⟨h.duty, h.follows, fun hh => hr.trans (h.held hh), fun hh => hr.trans (h.stored hh), h.heads⟩

theorem of_settled {n : Negotiation} {v : Verdict}
    (h : (Member.settled n v).Underway k d since clock a l) :
    v = (d.upshot k.manager.context clock a n).1 ∧
    l.record? n.id = some ⟨(d.upshot k.manager.context clock a n).2, none⟩ :=
  ⟨h.heads.symm, h.stored rfl⟩

variable {c : Chance}

theorem goes (h : m.Underway k d since clock a l) (c : Chance) :
    m.Goes k.manager.context d k.holder c l
      (m.step (c.venue k.holder k.span) (d.begin k.manager.context) l).1
      (m.step (c.venue k.holder k.span) (d.begin k.manager.context) l).2
      (m.events c (l.save · k.holder c.now)
        (m.step (c.venue k.holder k.span) (d.begin k.manager.context) l).1) :=
  goes_of_step h.duty h.follows h.held

theorem record?_of_ne (h : m.Underway k d since clock a l) (c : Chance) {id : String}
    (hid : id ≠ m.negotiation.id) :
    (m.step (c.venue k.holder k.span) (d.begin k.manager.context) l).2.record? id =
      l.record? id :=
  (h.goes c).record?_of_ne h.duty hid

theorem ids_step (h : m.Underway k d since clock a l) (c : Chance) :
    (m.step (c.venue k.holder k.span) (d.begin k.manager.context) l).2.ids = l.ids :=
  (h.goes c).ids_eq h.duty fun hh => Ledger.find?_eq_some_iff.2 ⟨_, h.held hh⟩

/-- **A step keeps a member underway**, if the clock stands still and the message gets the
answer. -/
theorem step (h : m.Underway k d since clock a l) (hclock : c.clock = clock)
    (hanswer : m.outgoing?.isSome = true → c.answer = a) :
    (m.step (c.venue k.holder k.span) (d.begin k.manager.context) l).1.Underway k d since clock a
      (m.step (c.venue k.holder k.span) (d.begin k.manager.context) l).2 := by
  subst hclock
  have hgoes := h.goes c
  obtain ⟨hheads, hstored⟩ := heads_step h.duty h.follows h.held h.stored hanswer h.heads
  have hn := hgoes.negotiation_eq
  refine ⟨hn ▸ h.duty, hgoes.follows, fun hh => ?_, ?_, ?_⟩
  · obtain ⟨hh', hl⟩ := hgoes.ledger_eq_of_holds hh
    rw [hl, hn]
    exact h.held hh'
  · rw [hn]
    exact hstored
  · rw [hn]
    exact hheads

/-! ### Running to the end -/

section

variable {σ : Type} {v : Venue σ} {sent : σ → List (Message × Answer)}

theorem goes_quiet (hv : v.Quiet k sent) {s : σ}
    (h : m.Underway k d since clock a (v.desk s).ledger) :
    ∃ es, m.Goes k.manager.context d k.holder (v.chance s m) (v.desk s).ledger
      (m.step v (d.begin k.manager.context) s).1
      (v.desk (m.step v (d.begin k.manager.context) s).2).ledger es := by
  have hgoes := h.goes (v.chance s m)
  rw [step_chance hv] at hgoes
  exact ⟨_, hgoes⟩

theorem advances_step (hv : v.Quiet k sent) (hclock : ∀ u, v.now u = clock) {s : σ}
    (h : m.Underway k d since clock a (v.desk s).ledger)
    (hanswer : ∀ message, m.outgoing? = some message → (v.dispatch message s).1 = a) :
    Advances k d since clock a m.negotiation (m.outgoing?.map (·, a)).toList (v.desk s).ledger
      (v.desk (m.step v (d.begin k.manager.context) s).2).ledger (sent s)
      (sent (m.step v (d.begin k.manager.context) s).2)
      (m.step v (d.begin k.manager.context) s).1 := by
  have hc : (v.chance s m).clock = clock := by cases m <;> exact hclock _
  have hca : m.outgoing?.isSome = true → (v.chance s m).answer = a := by
    intro hsome
    obtain ⟨message, hmessage⟩ := Option.isSome_iff_exists.1 hsome
    rw [← hanswer message hmessage]
    cases m with
    | received n | releasing n w | settled n w => cases hmessage
    | handling n g =>
      show (((handling n g).outgoing?.map fun message => (v.dispatch message s).1).getD default) = _
      rw [hmessage]
      rfl
  obtain ⟨es, hgoes⟩ := h.goes_quiet hv
  have hnext := h.step hc hca
  rw [step_chance hv] at hnext
  refine ⟨hnext, fun id hid => hgoes.record?_of_ne h.duty hid,
    hgoes.ids_eq h.duty fun hh => Ledger.find?_eq_some_iff.2 ⟨_, h.held hh⟩, ?_⟩
  rw [sent_step_eq hv]
  cases hmessage : m.outgoing? with
  | none => rfl
  | some message => rw [Option.map_some, Option.map_some, hanswer message hmessage]

theorem ends_run (hv : v.Quiet k sent) (hclock : ∀ u, v.now u = clock) (s : σ)
    (h : m.Underway k d since clock a (v.desk s).ledger) (hm : ∀ n, m ≠ .received n)
    (hanswer : ∀ message, m.outgoing? = some message → (v.dispatch message s).1 = a) :
    (∃ w, (m.run v (d.begin k.manager.context) s).1 = .settled m.negotiation w) ∧
    Advances k d since clock a m.negotiation (m.outgoing?.map (·, a)).toList (v.desk s).ledger
      (v.desk (m.run v (d.begin k.manager.context) s).2).ledger (sent s)
      (sent (m.run v (d.begin k.manager.context) s).2)
      (m.run v (d.begin k.manager.context) s).1 := by
  -- the induction is on the steps that are left
  induction hr : m.rank using Nat.strong_induction_on generalizing m s with
  | h rank ih =>
    by_cases hzero : m.rank = 0
    · rw [run_of_rank_eq_zero hzero]
      cases m with
      | settled n w => exact ⟨⟨w, rfl⟩, h, fun _ _ => rfl, rfl, (List.append_nil _).symm⟩
      | received n | releasing n w => cases hzero
      | handling n g => exact absurd hzero (Nat.succ_ne_zero _)
    · rw [run_of_rank_ne_zero hzero]
      have hstep := h.advances_step hv hclock hanswer
      obtain ⟨es, hgoes⟩ := h.goes_quiet hv
      have hout := hgoes.outgoing?_eq_none hm
      have hend := ih _ (hr ▸ rank_step_lt v _ m s hzero) _ hstep.underway hgoes.not_received
        (by rw [hout]; nofun) rfl
      rw [negotiation_step, hout] at hend
      have hboth := hstep.trans hend.2
      rw [Option.map_none, Option.toList_none, List.append_nil] at hboth
      exact ⟨hend.1, hboth⟩

/-- A member that was just leased comes to its end, with the answer that its message gets. -/
theorem exists_ends_run (hv : v.Quiet k sent) (hclock : ∀ u, v.now u = clock) (s : σ)
    {n : Negotiation} (hd : Duty.of? k.manager.side n.state = some d)
    (hr : (v.desk s).ledger.record? n.id = some ⟨n, some ⟨k.holder, since, k.span⟩⟩) :
    ∃ messageId a, (∃ w, ((Member.received n).run v (d.begin k.manager.context) s).1 =
        .settled n w) ∧
      Advances k d since clock a n
        ((d.begin k.manager.context messageId clock n).outgoing?.map (·, a)).toList
        (v.desk s).ledger
        (v.desk ((Member.received n).run v (d.begin k.manager.context) s).2).ledger (sent s)
        (sent ((Member.received n).run v (d.begin k.manager.context) s).2)
        ((Member.received n).run v (d.begin k.manager.context) s).1 := by
  set next := (Member.received n).step v (d.begin k.manager.context) s with hnext
  have hout : next.1.outgoing? =
      (d.begin k.manager.context (v.freshId s).1 clock n).outgoing? := by
    rw [← hclock (v.freshId s).2]
    exact outgoing?_ofHandling ..
  let a : Answer :=
    (next.1.outgoing?.map fun message => (v.dispatch message next.2).1).getD default
  have hstart : (Member.received n).Underway k d since clock a (v.desk s).ledger := received hd hr
  have hstep := hstart.advances_step hv hclock nofun
  obtain ⟨es, hgoes⟩ := hstart.goes_quiet hv
  have hend := hstep.underway.ends_run hv hclock _ hgoes.not_received fun message hmessage => by
    show _ = (next.1.outgoing?.map fun message => (v.dispatch message next.2).1).getD default
    rw [hnext, hmessage]
    rfl
  rw [negotiation_step, ← hnext, hout] at hend
  refine ⟨(v.freshId s).1, a, ?_⟩
  rw [run_of_rank_ne_zero (show (Member.received n).rank ≠ 0 from Nat.succ_ne_zero 5)]
  exact ⟨hend.1, hstep.trans hend.2⟩

end

end Underway

end Member

end Parley
