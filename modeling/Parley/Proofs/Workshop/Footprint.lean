import Parley.Proofs.Workshop.Leases

/-!
# The footprint of a step

Whatever the record of its negotiation holds by now, and whoever leased it, the next step of a
member reads and writes that one record.

* `Member.Concerns` : what a member is about to store has the id of what was handed out;
  `concerns_step` : it stays so, since no duty changes an id (`Duty.concerns_begin`).
* `Touch` : what may be done to the record of an id: nothing, or its lease ends, with or without a
  negotiation stored.
* `Handling.exists_touches`, `Member.exists_touch` : which of these a step does, and what becomes of
  the member, is settled by the record of the member's negotiation.  Whoever blocks that record
  keeps every step from touching it, and a member that touched it does not rely on its lease any
  more.
* `record?_step_of_ne`, `step_congr`, `step_cases` : what follows for one step.
-/

namespace Parley

/-! ### Ids -/

theorem Sending.id_of_settle {s : Sending} {n current changed : Negotiation} {policy : RetryPolicy}
    {now : Moment} {a : Answer} (h : (s.attempt policy n).settle now a current = .ok changed) :
    changed.id = current.id := by
  have hgiveUp {detail : Option String} (h : current.giveUp detail now = .ok changed) :
      changed.id = current.id := by
    obtain ⟨moved, hmoved, rfl⟩ := Negotiation.giveUp_eq_ok_iff.1 h
    simpa using Negotiation.id_of_moveTo hmoved
  rw [Attempt.settle] at h
  cases hr : Attempt.route (s.attempt policy n).policy current.stateCount a with
  | success content =>
    rw [hr] at h
    have h : s.succeed now current = .ok changed := h
    cases hm : current.moveTo s.success now with
    | error e =>
      rw [Sending.succeed, hm] at h
      cases h
    | ok moved =>
      rw [Sending.succeed_eq_ok hm] at h
      obtain rfl := Except.ok.inj h
      exact Sending.id_sign.trans (Negotiation.id_of_moveTo hm)
  | failure cause =>
    rw [hr] at h
    exact Negotiation.id_of_moveTo h
  | fatal f =>
    rw [hr] at h
    exact hgiveUp h
  | exhausted cause =>
    rw [hr] at h
    have h : s.exhaust n.side.counterpartRole cause now current = .ok changed := h
    rw [Sending.exhaust] at h
    split_ifs at h
    · obtain ⟨moved, hmoved, rfl⟩ := Negotiation.terminate_eq_ok_iff.1 h
      simpa using Negotiation.id_of_moveTo hmoved
    · exact hgiveUp h

/-- The handling is about the negotiation of an id: that is what it looks up, gives back and
stores. -/
inductive Handling.Concerns (id : String) : Handling → Prop where
  /-- The negotiation that is to be stored has the id. -/
  | storing {n : Negotiation} (hid : n.id = id) : Concerns id (.storing n)
  /-- The message is about the negotiation, and so is what was looked up. -/
  | attempting {m : Message} {s : Sending} {policy : RetryPolicy} {n : Negotiation} {stage : Stage}
      (hid : n.id = id) (hfound : ∀ a current, stage = .found a current → current.id = id) :
      Concerns id (.attempting m (s.attempt policy n) stage)
  /-- Nothing is looked up or stored any more. -/
  | finished (v : Verdict) : Concerns id (.finished v)

theorem Duty.concerns_begin (d : Duty) (ctx : Context) (messageId : String) (now : Moment)
    (n : Negotiation) : (d.begin ctx messageId now n).Concerns n.id := by
  unfold Duty.begin
  cases d.plan ctx messageId now n with
  | advance target =>
    show (Handling.advance target now n).Concerns n.id
    unfold Handling.advance
    cases hm : n.moveTo target now with
    | ok moved => exact .storing (Negotiation.id_of_moveTo hm)
    | error e => exact .finished _
  | send s =>
    refine .attempting rfl fun a current hstage => ?_
    unfold Attempt.start at hstage
    split_ifs at hstage
  | skip => exact .finished _
  | refuse e => exact .finished _

/-- The handler is about the negotiation that it is given. -/
def Handler.Proper (handler : Handler) : Prop :=
  ∀ messageId now n, (handler messageId now n).Concerns n.id

theorem Manager.proper_of_mem_processors {m : Manager} {p : Processor} (h : p ∈ m.processors) :
    p.handler.Proper := by
  obtain ⟨d, -, hhandler⟩ := Manager.mem_processors h
  rw [hhandler]
  exact d.concerns_begin m.context

namespace Member

/-- The member is about the negotiation that was handed out. -/
def Concerns : Member → Prop
  | handling n h => h.Concerns n.id
  | _ => True

theorem concerns_ofHandling {n : Negotiation} {h : Handling} (hc : h.Concerns n.id) :
    (ofHandling n h).Concerns := by
  unfold ofHandling
  split
  · trivial
  · trivial
  · exact hc

end Member

/-! ### What a step does to the ledger -/

/-- What a step may do to the record of an id. -/
inductive Touch where
  /-- Nothing. -/
  | nothing
  /-- It ends the lease. -/
  | release
  /-- It stores a negotiation, which ends the lease too. -/
  | store (negotiation : Negotiation)

namespace Touch

variable {id holder : String} {now : Moment} {l l' : Ledger} {touch : Touch}

/-- The ledger afterwards. -/
def on (id : String) (l : Ledger) : Touch → Ledger
  | nothing => l
  | release => l.setLease [id] none
  | store n => l.put ⟨n, none⟩

/-- What is stored has the id, and nothing is done to a record that somebody else's live lease is
on. -/
structure Fits (id holder : String) (now : Moment) (r : Option Record) (touch : Touch) : Prop where
  /-- The id of what is stored. -/
  id_eq : ∀ n, touch = .store n → n.id = id
  /-- Nobody blocks the record. -/
  free : touch ≠ .nothing → ∀ x, r = some x → x.blocker? holder now = none

theorem fits_nothing (r : Option Record) : Fits id holder now r nothing :=
  ⟨fun _ h => (nomatch h), fun h => absurd rfl h⟩

theorem record?_on_of_ne {r : Option Record} (h : touch.Fits id holder now r) {i : String}
    (hi : i ≠ id) : (touch.on id l).record? i = l.record? i := by
  cases touch with
  | nothing => rfl
  | release => exact Ledger.record?_setLease_of_not_mem fun hm => hi (List.mem_singleton.1 hm)
  | store n =>
    refine Ledger.record?_put.trans (if_neg ?_)
    show n.id ≠ i
    rw [h.id_eq n rfl]
    exact hi.symm

theorem record?_on_congr (h : l'.record? id = l.record? id) :
    (touch.on id l').record? id = (touch.on id l).record? id := by
  cases touch with
  | nothing => exact h
  | release => rw [on, on, Ledger.record?_setLease, Ledger.record?_setLease, h]
  | store n => rw [on, on, Ledger.record?_put, Ledger.record?_put, h]

theorem leaseOf?_on {r : Option Record} (h : touch.Fits id holder now r) (ht : touch ≠ .nothing) :
    (touch.on id l).leaseOf? id = none := by
  cases touch with
  | nothing => exact absurd rfl ht
  | release => exact Ledger.leaseOf?_setLease_none
  | store n => exact Ledger.leaseOf?_put_none (h.id_eq n rfl)

end Touch

theorem Ledger.checkLease_cases_of_record? (id holder : String) (now : Moment)
    (r : Option Record) :
    ((∀ x, r = some x → x.blocker? holder now = none) ∧
      ∀ l : Ledger, l.record? id = r → l.checkLease id holder now = .ok ()) ∨
    ∃ e, ∀ l : Ledger, l.record? id = r → l.checkLease id holder now = .error e := by
  cases hb : r.bind (·.blocker? holder now) with
  | none =>
    refine .inl ⟨?_, fun l hl => by rw [checkLease, hl, hb]⟩
    rintro x rfl
    exact hb
  | some other => exact .inr ⟨.alreadyLeased id other, fun l hl => by rw [checkLease, hl, hb]⟩

theorem Desk.exists_touch_save (n : Negotiation) (holder : String) (span now : Moment)
    (r : Option Record) :
    ∃ x touch, Touch.Fits n.id holder now r touch ∧ (touch ≠ .nothing → x = .ok ()) ∧
      ∀ l : Ledger, l.record? n.id = r →
        Desk.save ⟨⟨holder, span, []⟩, l, now⟩ n =
          (x, ⟨⟨holder, span, []⟩, touch.on n.id l, now⟩) := by
  rcases Ledger.checkLease_cases_of_record? n.id holder now r with ⟨hfree, hok⟩ | ⟨e, he⟩
  · refine ⟨.ok (), .store n, ⟨fun _ h => by cases h; rfl, fun _ => hfree⟩, fun _ => rfl, ?_⟩
    intro l hl
    rw [Desk.save, Desk.call_eq rfl, Ledger.save, hok l hl]
    rfl
  · refine ⟨.error e, .nothing, Touch.fits_nothing r, fun h => absurd rfl h, fun l hl => ?_⟩
    rw [Desk.save, Desk.call_eq rfl, Ledger.save, he l hl]
    rfl

theorem Desk.exists_touch_release (id holder : String) (span now : Moment) (r : Option Record) :
    ∃ x touch, Touch.Fits id holder now r touch ∧ (touch ≠ .nothing → x = .ok ()) ∧
      ∀ l : Ledger, l.record? id = r →
        Desk.release ⟨⟨holder, span, []⟩, l, now⟩ id =
          (x, ⟨⟨holder, span, []⟩, touch.on id l, now⟩) := by
  rcases Ledger.checkLease_cases_of_record? id holder now r with ⟨hfree, hok⟩ | ⟨e, he⟩
  · refine ⟨.ok (), .release, ⟨fun _ h => (nomatch h), fun _ => hfree⟩, fun _ => rfl, ?_⟩
    intro l hl
    rw [Desk.release, Desk.call_eq rfl, Ledger.release, hok l hl]
    rfl
  · refine ⟨.error e, .nothing, Touch.fits_nothing r, fun h => absurd rfl h, fun l hl => ?_⟩
    rw [Desk.release, Desk.call_eq rfl, Ledger.release, he l hl]
    rfl

/-- A step of an attempt, other than the sending of its message, is made at the desk. -/
theorem Handling.step_attempting {m : Message} {t : Attempt} {stage : Stage}
    (h : (attempting m t stage).outgoing? = none) (c : Chance) (holder : String) (span : Moment)
    (l : Ledger) : (attempting m t stage).step (c.venue holder span) l =
      (ofProgress m t (t.step c.clock ⟨⟨holder, span, []⟩, l, c.now⟩ stage).1,
        (t.step c.clock ⟨⟨holder, span, []⟩, l, c.now⟩ stage).2.ledger) := by
  rw [step, h]
  rfl

/-- What a handling with an answer becomes when its negotiation is looked up. -/
def Handling.ofLookup (m : Message) (t : Attempt) (a : Answer) : Option Negotiation → Handling
  | none => .finished (.outcome .processed)
  | some current =>
    if current.state = t.negotiation.state then .attempting m t (.found a current)
    else .finished (.outcome .processed)

theorem Handling.step_answered_eq (m : Message) (t : Attempt) (a : Answer) (c : Chance)
    (holder : String) (span : Moment) (l : Ledger) :
    (attempting m t (.answered a)).step (c.venue holder span) l =
      (ofLookup m t a (l.find? t.negotiation.id), l) := by
  have hfind := Desk.find_eq (d := ⟨⟨holder, span, []⟩, l, c.now⟩) rfl t.negotiation.id
  rw [step_attempting rfl]
  simp only [Attempt.step, hfind]
  cases l.find? t.negotiation.id with
  | none => rfl
  | some current =>
    simp only [ofLookup]
    split_ifs <;> rfl

/-- What the next step of a handling comes to if the record of its id is `r`: what the handling
becomes, and what is done to the record.  If something is done, the handling ends, as processed or
delayed. -/
structure Handling.Touches (c : Chance) (holder : String) (span : Moment) (id : String)
    (r : Option Record) (h next : Handling) (touch : Touch) : Prop where
  concerns : next.Concerns id
  fits : Touch.Fits id holder c.now r touch
  ends : touch ≠ .nothing →
    next = .finished (.outcome .processed) ∨ next = .finished (.outcome .delayed)
  step_eq : ∀ l : Ledger, l.record? id = r →
    h.step (c.venue holder span) l = (next, touch.on id l)

namespace Handling

section

variable (c : Chance) (holder : String) (span : Moment) {id : String} {r : Option Record}

theorem Touches.of_same {h next : Handling} (hc : next.Concerns id)
    (hstep : ∀ l : Ledger, l.record? id = r → h.step (c.venue holder span) l = (next, l)) :
    h.Touches c holder span id r next .nothing where
  concerns := hc
  fits := Touch.fits_nothing r
  ends h := absurd rfl h
  step_eq := hstep

theorem exists_touches_storing (n : Negotiation) (r : Option Record) :
    ∃ next touch, (storing n).Touches c holder span n.id r next touch := by
  obtain ⟨x, touch, hfits, hx, hsave⟩ := Desk.exists_touch_save n holder span c.now r
  refine ⟨ofSave x, touch, ?_, hfits, fun ht => ?_, fun l hl => ?_⟩
  · cases x <;> exact .finished _
  · rw [hx ht]
    exact .inl rfl
  · show (ofSave (Desk.save ⟨⟨holder, span, []⟩, l, c.now⟩ n).1,
      (Desk.save ⟨⟨holder, span, []⟩, l, c.now⟩ n).2.ledger) = _
    rw [hsave l hl]

theorem exists_touches_early (m : Message) (t : Attempt) (r : Option Record) :
    ∃ next touch,
      (attempting m t .early).Touches c holder span t.negotiation.id r next touch := by
  obtain ⟨x, touch, hfits, hx, hrelease⟩ :=
    Desk.exists_touch_release t.negotiation.id holder span c.now r
  refine ⟨ofResult (x.mapError .store |>.map fun _ => .delayed), touch, ?_, hfits, fun ht => ?_,
    fun l hl => ?_⟩
  · cases x <;> exact .finished _
  · rw [hx ht]
    exact .inr rfl
  · rw [step_attempting rfl, Attempt.step, hrelease l hl]
    cases x <;> rfl

/-- What is looked up when there is an answer is what the record holds. -/
theorem exists_touches_answered (m : Message) {s : Sending} {policy : RetryPolicy}
    {n : Negotiation} (a : Answer) (hid : ∀ x, r = some x → x.id = n.id) :
    ∃ next touch, (attempting m (s.attempt policy n) (.answered a)).Touches c holder span n.id r
      next touch := by
  refine ⟨ofLookup m (s.attempt policy n) a (r.map (·.negotiation)), .nothing,
    .of_same c holder span ?_ fun l hl => ?_⟩
  · cases r with
    | none => exact .finished _
    | some x =>
      rw [Option.map_some, ofLookup]
      split_ifs
      · exact .attempting rfl fun _ _ h => by cases h; exact hid x rfl
      · exact .finished _
  · have hfind : l.find? n.id = r.map (·.negotiation) := by rw [Ledger.find?, hl]
    rw [step_answered_eq, ← hfind]
    rfl

theorem exists_touches_found (m : Message) {s : Sending} {policy : RetryPolicy}
    {n current : Negotiation} (a : Answer) (hcurrent : current.id = n.id) (r : Option Record) :
    ∃ next touch, (attempting m (s.attempt policy n) (.found a current)).Touches c holder span n.id
      r next touch := by
  cases hs : (s.attempt policy n).settle c.clock a current with
  | error e =>
    refine ⟨.finished (.failed (.retry (.transition e))), .nothing,
      .of_same c holder span (.finished _) fun l _ => ?_⟩
    rw [step_attempting rfl]
    simp only [Attempt.step, hs]
    rfl
  | ok changed =>
    have hn : changed.id = n.id := (Sending.id_of_settle hs).trans hcurrent
    obtain ⟨x, touch, hfits, hx, hsave⟩ := Desk.exists_touch_save changed holder span c.now r
    rw [hn] at hfits hsave
    refine ⟨ofResult (x.mapError .store |>.map fun _ => .processed), touch, ?_, hfits,
      fun ht => ?_, fun l hl => ?_⟩
    · cases x <;> exact .finished _
    · rw [hx ht]
      exact .inl rfl
    · rw [step_attempting rfl]
      simp only [Attempt.step, hs, hsave l hl]
      cases x <;> rfl

end

/-- A step of a handling is settled by the record of its negotiation. -/
theorem exists_touches {id : String} {h : Handling} (hc : h.Concerns id) (c : Chance)
    (holder : String) (span : Moment) {r : Option Record} (hid : ∀ x, r = some x → x.id = id) :
    ∃ next touch, h.Touches c holder span id r next touch := by
  cases hc with
  | finished v => exact ⟨_, .nothing, .of_same c holder span (.finished v) fun _ _ => rfl⟩
  | @storing n hn =>
    subst hn
    exact exists_touches_storing c holder span n r
  | @attempting m s policy n stage hn hfound =>
    subst hn
    cases stage with
    | sending =>
      exact ⟨.attempting m (s.attempt policy n) (.answered c.answer), .nothing,
        .of_same c holder span (.attempting rfl (by simp)) fun _ _ => rfl⟩
    | early => exact exists_touches_early c holder span m (s.attempt policy n) r
    | answered a => exact exists_touches_answered c holder span m a hid
    | found a current =>
      exact exists_touches_found c holder span m a (hfound a current rfl) r

end Handling

namespace Member

section

variable {handler : Handler} {m : Member}

/-- **A step is settled by the record of the member's negotiation**: what the member becomes, and
what is done to the record.  A member that did something to it does not rely on its lease any
more. -/
theorem exists_touch (hp : handler.Proper) (hc : m.Concerns) (c : Chance) (holder : String)
    (span : Moment) {r : Option Record} (hid : ∀ x, r = some x → x.id = m.negotiation.id) :
    ∃ next touch, next.Concerns ∧ Touch.Fits m.negotiation.id holder c.now r touch ∧
      (touch ≠ .nothing → next.holds = false) ∧ (next.holds = true → m.holds = true) ∧
      ∀ l : Ledger, l.record? m.negotiation.id = r →
        m.step (c.venue holder span) handler l = (next, touch.on m.negotiation.id l) := by
  cases m with
  | received n =>
    exact ⟨_, .nothing, concerns_ofHandling (hp c.messageId c.clock n), Touch.fits_nothing r,
      fun h => absurd rfl h, fun _ => rfl, fun _ _ => rfl⟩
  | settled n v =>
    exact ⟨.settled n v, .nothing, trivial, Touch.fits_nothing r, fun h => absurd rfl h, id,
      fun _ _ => rfl⟩
  | releasing n v =>
    obtain ⟨x, touch, hfits, -, hrelease⟩ := Desk.exists_touch_release n.id holder span c.now r
    refine ⟨.settled n v, touch, trivial, hfits, fun _ => rfl, fun h => (nomatch h), ?_⟩
    intro l hl
    show (settled n v, (Desk.release ⟨⟨holder, span, []⟩, l, c.now⟩ n.id).2.ledger) = _
    rw [hrelease l hl]
    rfl
  | handling n h =>
    obtain ⟨next, touch, hnext, hfits, hend, hstep⟩ :=
      Handling.exists_touches hc c holder span hid
    refine ⟨ofHandling n next, touch, concerns_ofHandling hnext, hfits, ?_, fun _ => rfl, ?_⟩
    · intro ht
      rcases hend ht with rfl | rfl
      · rfl
      · rfl
    · intro l hl
      show (ofHandling n (h.step (c.venue holder span) l).1,
        (h.step (c.venue holder span) l).2) = _
      rw [hstep l hl]
      rfl

variable (hp : handler.Proper) (hc : m.Concerns) (c : Chance) (holder : String) (span : Moment)
include hp hc

theorem concerns_step (l : Ledger) : (m.step (c.venue holder span) handler l).1.Concerns := by
  obtain ⟨next, touch, hnext, -, -, -, hstep⟩ :=
    exists_touch hp hc c holder span fun _ => Ledger.id_of_record?
  rw [hstep l rfl]
  exact hnext

theorem holds_of_holds_step {l : Ledger}
    (hh : (m.step (c.venue holder span) handler l).1.holds = true) : m.holds = true := by
  obtain ⟨next, touch, -, -, -, hholds, hstep⟩ :=
    exists_touch hp hc c holder span fun _ => Ledger.id_of_record?
  rw [hstep l rfl] at hh
  exact hholds hh

theorem record?_step_of_ne (l : Ledger) {id : String} (hid : id ≠ m.negotiation.id) :
    (m.step (c.venue holder span) handler l).2.record? id = l.record? id := by
  obtain ⟨next, touch, -, hfits, -, -, hstep⟩ :=
    exists_touch hp hc c holder span fun _ => Ledger.id_of_record?
  rw [hstep l rfl]
  exact Touch.record?_on_of_ne hfits hid

theorem step_congr {l l' : Ledger}
    (h : l'.record? m.negotiation.id = l.record? m.negotiation.id) :
    (m.step (c.venue holder span) handler l').1 = (m.step (c.venue holder span) handler l).1 ∧
    (m.step (c.venue holder span) handler l').2.record? m.negotiation.id =
      (m.step (c.venue holder span) handler l).2.record? m.negotiation.id := by
  obtain ⟨next, touch, -, -, -, -, hstep⟩ :=
    exists_touch hp hc c holder span fun _ => Ledger.id_of_record?
  rw [hstep l' h, hstep l rfl]
  exact ⟨rfl, Touch.record?_on_congr h⟩

/-- A step leaves the ledger as it is, or it ends the lease on its record.  Nobody blocks the record
then, and the member does not rely on its lease afterwards. -/
theorem step_cases (l : Ledger) :
    (m.step (c.venue holder span) handler l).2 = l ∨
    ((m.step (c.venue holder span) handler l).1.holds = false ∧
      (m.step (c.venue holder span) handler l).2.leaseOf? m.negotiation.id = none ∧
      ∀ r, l.record? m.negotiation.id = some r → r.blocker? holder c.now = none) := by
  obtain ⟨next, touch, -, hfits, hend, -, hstep⟩ :=
    exists_touch hp hc c holder span fun _ => Ledger.id_of_record?
  rw [hstep l rfl]
  cases touch with
  | nothing => exact .inl rfl
  | release => exact .inr ⟨hend (nomatch ·), Touch.leaseOf?_on hfits (nomatch ·),
      hfits.free (nomatch ·)⟩
  | store n => exact .inr ⟨hend (nomatch ·), Touch.leaseOf?_on hfits (nomatch ·),
      hfits.free (nomatch ·)⟩

end

end Member

end Parley
