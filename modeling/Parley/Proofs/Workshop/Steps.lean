import Parley.Proofs.Handling.Stale
import Parley.Proofs.Workshop.Basic

/-!
# Steps of a member

What the next step of a member of a batch can be, as long as its lease keeps the record for it.

* `Member.Goes` lists the steps: what becomes of the member and of the ledger, and what can be
  noticed.
* `goes_of_step` : a member that holds its record makes one of them.  In particular it finds the
  copy that was handed out when it looks again, and storing is not refused.
* `Goes.record?_of_ne`, `Goes.ledger_eq_of_holds`, `Goes.ledger_eq_of_blocked` : the records that a
  step leaves alone.
-/

namespace Parley

/-- What may be stored about a negotiation by way of a duty: where it moves on at once, or what an
answer makes of it. -/
inductive Duty.Makes (ctx : Context) (d : Duty) (n : Negotiation) :
    Option Answer → Negotiation → Prop where
  /-- The negotiation moved on. -/
  | advance {now : Moment} {changed : Negotiation} (hs : d.sends = false)
      (h : n.moveTo d.goal now = .ok changed) : Makes ctx d n none changed
  /-- The negotiation with an answer recorded. -/
  | record {messageId : String} {now later : Moment} {s : Sending} {answer : Answer}
      {changed : Negotiation} (hp : d.plan ctx messageId now n = .send s)
      (h : (s.attempt ctx.policy n).settle later answer n = .ok changed) :
      Makes ctx d n (some answer) changed

section

variable {ctx : Context} {side : Side} {d : Duty} {n changed : Negotiation}
  {answer : Option Answer}

theorem Duty.Makes.sameTerms (h : d.Makes ctx n answer changed)
    (hd : Duty.of? side n.state = some d) : n.SameTerms changed := by
  cases h with
  | advance hs h => exact Negotiation.sameTerms_of_moveTo h
  | @record messageId now later s a changed hp h =>
    obtain ⟨moved, m, hmoved, hsettle, hm⟩ := Duty.settle_cases hd hp rfl ctx.policy later a
    obtain rfl : changed = m := by rw [h] at hsettle; exact Except.ok.inj hsettle
    refine (Negotiation.sameTerms_of_moveTo hmoved).trans ?_
    split_ifs at hm
    · exact hm ▸ s.sameTerms_sign moved
    · exact hm ▸ moved.sameTerms_withDetail _

theorem Duty.Makes.id_eq (h : d.Makes ctx n answer changed)
    (hd : Duty.of? side n.state = some d) : changed.id = n.id := (h.sameTerms hd).id_eq

theorem Duty.Makes.cases (h : d.Makes ctx n answer changed)
    (hd : Duty.of? side n.state = some d) :
    (d.sends = false ∧ answer = none ∧ changed.state = d.goal ∧ changed.stateCount = 1) ∨
    (d.sends = true ∧ ∃ a, answer = some a ∧
      changed.state = d.after n.state (Attempt.route ctx.policy n.stateCount a) ∧
      changed.stateCount = if changed.state = n.state then n.stateCount + 1 else 1) := by
  cases h with
  | advance hs h =>
    refine .inl ⟨hs, rfl, Negotiation.state_of_moveTo h, ?_⟩
    rw [Negotiation.stateCount_of_moveTo h, if_neg (Duty.goal_ne hd)]
  | @record messageId now later s a changed hp h =>
    obtain ⟨m, hm, -, hstate, hcount⟩ := Duty.exists_settle hd hp ctx.policy later a
    obtain rfl : changed = m := by rw [h] at hm; exact Except.ok.inj hm
    exact .inr ⟨(Duty.sends_of_plan hp).1, a, rfl, hstate, hcount⟩

end

/-- How the handling of a negotiation by way of a duty can stand; what was looked up again is the
copy that was handed out. -/
inductive Handling.Follows (ctx : Context) (d : Duty) (n : Negotiation) : Handling → Prop where
  /-- The negotiation is to be stored where the duty leads. -/
  | storing {now : Moment} {changed : Negotiation} (hs : d.sends = false)
      (h : n.moveTo d.goal now = .ok changed) : Follows ctx d n (.storing changed)
  /-- The message of the duty is being sent. -/
  | attempting {messageId : String} {now : Moment} {s : Sending} {stage : Stage}
      (hp : d.plan ctx messageId now n = .send s)
      (hfound : ∀ answer current, stage = .found answer current → current = n) :
      Follows ctx d n (.attempting s.message (s.attempt ctx.policy n) stage)

namespace Member

/-- The member relies on its lease: it was not given back yet, and nothing was stored. -/
def holds : Member → Bool
  | received _ | handling .. => true
  | releasing _ v => v ≠ .outcome .delayed
  | settled .. => false

/-- The answer that is there and not recorded yet. -/
def answer? : Member → Option Answer
  | handling _ (.attempting _ _ (.answered a)) => some a
  | handling _ (.attempting _ _ (.found a _)) => some a
  | _ => none

/-- How a member can stand that is handled by way of a duty. -/
def Follows (ctx : Context) (d : Duty) : Member → Prop
  | received _ => True
  | handling n h => h.Follows ctx d n
  | releasing _ v => v ≠ .outcome .processed
  | settled .. => True

/-- The steps of members.  In `Goes … m m' l' es` a member `m` on a bench whose worker leases as
`holder` becomes `m'`, the ledger `l` becomes `l'`, and `es` can be noticed. -/
inductive Goes (ctx : Context) (d : Duty) (holder : String) (c : Chance) (l : Ledger) :
    Member → Member → Ledger → List Event → Prop where
  /-- The handling begins. -/
  | begins {n : Negotiation} {h : Handling} (hf : h.Follows ctx d n)
      (ha : (handling n h).answer? = none) :
      Goes ctx d holder c l (.received n) (.handling n h) l []
  /-- Nothing can be done. -/
  | passes {n : Negotiation} {v : Verdict} (hp : v ≠ .outcome .processed)
      (hd : v ≠ .outcome .delayed) :
      Goes ctx d holder c l (.received n) (.releasing n v) l []
  /-- The message is sent and answered. -/
  | sends {n : Negotiation} {messageId : String} {now : Moment} {s : Sending}
      (hp : d.plan ctx messageId now n = .send s) :
      Goes ctx d holder c l
        (.handling n (.attempting s.message (s.attempt ctx.policy n) .sending))
        (.handling n (.attempting s.message (s.attempt ctx.policy n) (.answered c.answer))) l
        [.sent n s.message c.answer]
  /-- The stored negotiation is read again, and it is the copy. -/
  | finds {n : Negotiation} {messageId : String} {now : Moment} {s : Sending} {a : Answer}
      (hp : d.plan ctx messageId now n = .send s) :
      Goes ctx d holder c l
        (.handling n (.attempting s.message (s.attempt ctx.policy n) (.answered a)))
        (.handling n (.attempting s.message (s.attempt ctx.policy n) (.found a n))) l []
  /-- The changed negotiation is stored. -/
  | stores {n changed : Negotiation} {h : Handling}
      (hm : d.Makes ctx n (handling n h).answer? changed) :
      Goes ctx d holder c l (.handling n h) (.settled n (.outcome .processed))
        (l.put ⟨changed, none⟩)
        [.saved n (handling n h).answer? changed, .ended n (.outcome .processed)]
  /-- It is too early, and the lease is given back. -/
  | delays {n : Negotiation} {m : Message} {t : Attempt} :
      Goes ctx d holder c l (.handling n (.attempting m t .early))
        (.releasing n (.outcome .delayed)) (l.setLease [n.id] none) []
  /-- The lease is given back. -/
  | releases {n : Negotiation} {v : Verdict} (hp : v ≠ .outcome .processed)
      (hfree : ∀ r, l.record? n.id = some r → r.blocker? holder c.now = none) :
      Goes ctx d holder c l (.releasing n v) (.settled n v) (l.setLease [n.id] none)
        [.ended n v]
  /-- There is a lease of somebody else by now, and it stays. -/
  | misses {n : Negotiation} {v : Verdict} (hp : v ≠ .outcome .processed) :
      Goes ctx d holder c l (.releasing n v) (.settled n v) l [.ended n v]
  /-- Nothing is left to do. -/
  | rests {n : Negotiation} {v : Verdict} :
      Goes ctx d holder c l (.settled n v) (.settled n v) l []

section

variable {ctx : Context} {side : Side} {d : Duty} {holder : String} {since span : Moment}
  {c : Chance} {l : Ledger} {m : Member}

theorem blocker?_own {n : Negotiation} (now : Moment)
    (h : l.record? n.id = some ⟨n, some ⟨holder, since, span⟩⟩) (r : Record)
    (hr : l.record? n.id = some r) : r.blocker? holder now = none :=
  Ledger.blocker?_of_own h (by rintro le ⟨rfl⟩; rfl) r hr

theorem goes_of_received {n : Negotiation} (hd : Duty.of? side n.state = some d) :
    Goes ctx d holder c l (.received n) (ofHandling n (d.begin ctx c.messageId c.clock n)) l
      ((ofHandling n (d.begin ctx c.messageId c.clock n)).verdict?.map (.ended n)).toList := by
  rcases Duty.begin_cases hd ctx c.messageId c.clock with
    ⟨hs, moved, hmoved, hb⟩ | ⟨-, ⟨s, stage, hp, rfl | rfl, hb⟩ | hb | ⟨e, hb⟩⟩
  · rw [hb]; exact .begins (.storing hs hmoved) rfl
  · rw [hb]; exact .begins (.attempting hp (by simp)) rfl
  · rw [hb]; exact .begins (.attempting hp (by simp)) rfl
  · rw [hb]; exact .passes (by simp) (by simp)
  · rw [hb]; exact .passes (by simp) (by simp)

theorem goes_of_save {n changed : Negotiation} {h : Handling}
    (hheld : l.record? n.id = some ⟨n, some ⟨holder, since, span⟩⟩)
    (hm : d.Makes ctx n (handling n h).answer? changed) (hid : changed.id = n.id)
    (hstep : ∀ d', Desk.save ⟨⟨holder, span, []⟩, l, c.now⟩ changed = (.ok (), d') →
      h.step (c.venue holder span) l = (.finished (.outcome .processed), d'.ledger))
    (hevent : h.event? c (l.save · holder c.now) n =
      some (.ofSave n (handling n h).answer? changed (l.save changed holder c.now))) :
    Goes ctx d holder c l (.handling n h)
      ((handling n h).step (c.venue holder span) (d.begin ctx) l).1
      ((handling n h).step (c.venue holder span) (d.begin ctx) l).2
      ((handling n h).events c (l.save · holder c.now)
        ((handling n h).step (c.venue holder span) (d.begin ctx) l).1) := by
  have hfree : ∀ r, l.record? changed.id = some r → r.blocker? holder c.now = none := by
    rw [hid]; exact blocker?_own c.now hheld
  have hnext : (handling n h).step (c.venue holder span) (d.begin ctx) l =
      (.settled n (.outcome .processed), l.put ⟨changed, none⟩) := by
    simp only [step, hstep _ (Desk.save_eq_ok (d := ⟨⟨holder, span, []⟩, l, c.now⟩) rfl hfree)]
    rfl
  rw [hnext, events, hevent, Ledger.save_eq_ok hfree]
  exact .stores hm

theorem goes_of_handling {n : Negotiation} {h : Handling} (hd : Duty.of? side n.state = some d)
    (hf : h.Follows ctx d n)
    (hheld : l.record? n.id = some ⟨n, some ⟨holder, since, span⟩⟩) :
    Goes ctx d holder c l (.handling n h)
      ((handling n h).step (c.venue holder span) (d.begin ctx) l).1
      ((handling n h).step (c.venue holder span) (d.begin ctx) l).2
      ((handling n h).events c (l.save · holder c.now)
        ((handling n h).step (c.venue holder span) (d.begin ctx) l).1) := by
  cases hf with
  | storing hs hmoved =>
    exact goes_of_save hheld (.advance hs hmoved) (Negotiation.id_of_moveTo hmoved)
      (fun d' hsave => Handling.step_storing (v := c.venue holder span) hsave) rfl
  | @attempting messageId now s stage hp hfound =>
    cases stage with
    | early =>
      have hstep := Handling.step_early (v := c.venue holder span) (m := s.message)
        (t := s.attempt ctx.policy n)
        (Desk.release_eq_ok (d := ⟨⟨holder, span, []⟩, l, c.now⟩) rfl (blocker?_own c.now hheld))
      simp only [step, hstep]
      exact .delays
    | sending => exact .sends hp
    | answered a =>
      -- the record is there, under the worker's lease, and it holds the copy
      have hfind := Desk.find_eq (d := ⟨⟨holder, span, []⟩, l, c.now⟩) rfl n.id
      rw [Ledger.find?_eq_some_iff.2 ⟨_, hheld⟩] at hfind
      have hstep := Handling.step_answered (v := c.venue holder span) (m := s.message)
        (t := s.attempt ctx.policy n) (a := a) hfind rfl
      simp only [step, hstep]
      exact .finds hp
    | found a current =>
      obtain rfl := hfound a current rfl
      obtain ⟨changed, hsettle, hid, -, -⟩ := Duty.exists_settle hd hp ctx.policy c.clock a
      exact goes_of_save hheld (.record hp hsettle) hid
        (fun d' hsave => Handling.step_found (v := c.venue holder span) hsettle hsave)
        (by simp only [Handling.event?, hsettle]; rfl)

/-- **A member goes on as its duty asks.**  As long as the record of a member that relies on its
lease holds the copy that was handed out, under that lease, the next step is one of those listed. -/
theorem goes_of_step (hd : Duty.of? side m.negotiation.state = some d) (hf : m.Follows ctx d)
    (hheld : m.holds = true → l.record? m.negotiation.id =
      some ⟨m.negotiation, some ⟨holder, since, span⟩⟩) :
    Goes ctx d holder c l m (m.step (c.venue holder span) (d.begin ctx) l).1
      (m.step (c.venue holder span) (d.begin ctx) l).2
      (m.events c (l.save · holder c.now) (m.step (c.venue holder span) (d.begin ctx) l).1) := by
  cases m with
  | received n => exact goes_of_received hd
  | handling n h => exact goes_of_handling hd hf (hheld rfl)
  | settled n v => exact .rests
  | releasing n v =>
    show Goes ctx d holder c l (.releasing n v) (.settled n v)
      (Desk.release ⟨⟨holder, span, []⟩, l, c.now⟩ n.id).2.ledger [.ended n v]
    rcases Desk.release_cases (d := ⟨⟨holder, span, []⟩, l, c.now⟩) rfl n.id with
      ⟨hr, hfree⟩ | ⟨e, hr⟩
    · rw [hr]; exact .releases hf hfree
    · rw [hr]; exact .misses hf

end

/-! ### What a step leaves alone -/

section

variable {ctx : Context} {side : Side} {d : Duty} {holder : String} {c : Chance} {l l' : Ledger}
  {m m' : Member} {es : List Event}

theorem Goes.negotiation_eq (h : Goes ctx d holder c l m m' l' es) :
    m'.negotiation = m.negotiation := by cases h <;> rfl

theorem Goes.follows (h : Goes ctx d holder c l m m' l' es) : m'.Follows ctx d := by
  cases h with
  | begins hf ha => exact hf
  | passes hp hd => exact hp
  | sends hp => exact .attempting hp (by simp)
  | finds hp => exact .attempting hp (by rintro a current ⟨rfl⟩; rfl)
  | delays => simp [Follows]
  | _ => trivial

theorem Goes.copy_eq (h : Goes ctx d holder c l m m' l' es) :
    ∀ e ∈ es, e.copy = m.negotiation := by
  intro e he
  cases h with
  | begins | passes | finds | delays | rests => cases he
  | sends | releases | misses => rw [List.mem_singleton.1 he]; rfl
  | stores =>
    rcases List.mem_pair.1 he with rfl | rfl
    · rfl
    · rfl

theorem Goes.ledger_eq_of_holds (h : Goes ctx d holder c l m m' l' es) (hh : m'.holds = true) :
    m.holds = true ∧ l' = l := by
  cases h with
  | begins | passes | sends | finds => exact ⟨rfl, rfl⟩
  | stores | delays | releases | misses | rests => simp [holds] at hh

theorem Goes.record?_of_ne (h : Goes ctx d holder c l m m' l' es)
    (hd : Duty.of? side m.negotiation.state = some d) {id : String}
    (hid : id ≠ m.negotiation.id) : l'.record? id = l.record? id := by
  cases h with
  | begins | passes | sends | finds | misses | rests => rfl
  | delays | releases =>
    exact Ledger.record?_setLease_of_not_mem fun h => hid (List.mem_singleton.1 h)
  | @stores n changed h hm =>
    rw [Ledger.record?_put, if_neg]
    show changed.id ≠ id
    rw [hm.id_eq hd]
    exact hid.symm

/-- A member that gave its lease back touches nothing that somebody else leased since. -/
theorem Goes.ledger_eq_of_blocked (h : Goes ctx d holder c l m m' l' es)
    (hh : m.holds = false) {r : Record} {other : String}
    (hr : l.record? m.negotiation.id = some r) (hb : r.blocker? holder c.now = some other) :
    l' = l := by
  cases h with
  | begins | passes | sends | finds | misses | rests => rfl
  | stores | delays => cases hh
  | releases hp hfree =>
    rw [hfree r hr] at hb
    cases hb

end

end Member

end Parley
