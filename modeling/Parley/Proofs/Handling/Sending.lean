import Parley.Proofs.Handling.Duty
import Parley.Proofs.Handling.Run
import Parley.Proofs.Workshop.Leases
import Parley.Proofs.Workshop.Rounds

/-!
# What sending a message comes to

One attempt to send a message, from the copy that was handed over to the end: what was sent, what is
stored, what has become of the lease, and how the handling ended.  Two versions of the negotiation
play a part: whether it is too early is seen from the copy, and everything else is done to what is
stored when the answer is there.

* `Attempt.route_retryable` : the answers after which a message may be sent again.
* `Venue.GivesBack`, `Venue.Stores` : the two ways in which the ledger is changed, and what stands
  in their way.
* `Sending.TooEarly` : whether the message is sent at all; `begin_of_early`, `begin_of_due` : how the
  handler of a duty begins then.
* `Sending.settle_attemptWith_again` and its siblings : what an answer makes of what is stored,
  field by field.
* `Sending.run_attempt` : all of it, for any message and anything at all that follows when it was
  taken.
-/

namespace Parley

variable {σ : Type}

/-- A venue in which it is remembered what the worker sent: the messages, and the answers to them.
-/
structure Venue.Remembers (v : Venue σ) (sent : σ → List (Message × Answer)) : Prop where
  /-- Nothing is sent at the desk. -/
  sent_setDesk : ∀ d s, sent (v.setDesk d s) = sent s
  /-- What is sent is remembered. -/
  sent_dispatch : ∀ m s, sent (v.dispatch m s).2 = sent s ++ [(m, (v.dispatch m s).1)]

theorem Venue.Quiet.remembers {v : Venue σ} {k : Worker} {sent : σ → List (Message × Answer)}
    (hv : v.Quiet k sent) : v.Remembers sent := ⟨hv.sent_setDesk, hv.sent_dispatch⟩

/-! ### Answers -/

/-- Why a message was not taken that may be sent again: it was refused for now, or no answer was
obtained. -/
def Answer.cause? : Answer → Option String
  | .ok (.succeeded _) => none
  | .ok (.failed f) => if f.isFatal then none else some f.detail
  | .error e => some e.message

namespace Attempt

theorem start_of_lt {t : Attempt} {now : Moment} (h : now < dueAt t.policy t.negotiation) :
    t.start now = .early := by
  rw [start, isDue, decide_eq_false (UInt64.not_le.2 h), if_neg Bool.false_ne_true]

theorem start_of_le {t : Attempt} {now : Moment} (h : dueAt t.policy t.negotiation ≤ now) :
    t.start now = .sending := by
  rw [start, isDue, decide_eq_true h, if_pos rfl]

theorem route_retryable {a : Answer} {cause : String} (h : Answer.cause? a = some cause)
    (policy : RetryPolicy) (stateCount : UInt32) :
    route policy stateCount a = retryable policy stateCount cause := by
  rcases a with e | content | f
  · cases h; rfl
  · cases h
  · simp only [Answer.cause?] at h
    split_ifs at h with hf
    · cases h
      exact if_neg hf

theorem route_fatal {f : Failure} (hf : f.isFatal = true) (policy : RetryPolicy)
    (stateCount : UInt32) : route policy stateCount (.ok (.failed f)) = .fatal f := if_pos hf

end Attempt

/-! ### The ends of an attempt -/

namespace Venue

/-- A lease was given back at a desk, and nothing else was touched; but a record that somebody else
holds stays as it is. -/
structure GivesBack (v : Venue σ) (d : Desk) (id : String) (r : Handling × σ) : Prop where
  /-- Nobody else holds the record. -/
  free : (∀ x, d.ledger.record? id = some x → x.blocker? d.handle.holder d.now = none) →
    r.1 = .finished (.outcome .delayed) ∧
    ∀ i, (v.desk r.2).ledger.record? i =
      if i = id then (d.ledger.record? i).map fun x => ⟨x.negotiation, none⟩
      else d.ledger.record? i
  /-- Somebody else does. -/
  held : ∀ x other, d.ledger.record? id = some x → x.blocker? d.handle.holder d.now = some other →
    r.1 = .finished (.failed (.retry (.store (.alreadyLeased id other)))) ∧
    (v.desk r.2).ledger = d.ledger

/-- A negotiation was stored at a desk, with no lease on it, and nothing else was touched; but a
record that somebody else holds stays as it is. -/
structure Stores (v : Venue σ) (d : Desk) (changed : Negotiation) (r : Handling × σ) : Prop where
  /-- Nobody else holds the record. -/
  free : (∀ x, d.ledger.record? changed.id = some x →
      x.blocker? d.handle.holder d.now = none) →
    r.1 = .finished (.outcome .processed) ∧
    ∀ i, (v.desk r.2).ledger.record? i =
      if i = changed.id then some ⟨changed, none⟩ else d.ledger.record? i
  /-- Somebody else does. -/
  held : ∀ x other, d.ledger.record? changed.id = some x →
    x.blocker? d.handle.holder d.now = some other →
    r.1 = .finished (.failed (.retry (.store (.alreadyLeased changed.id other)))) ∧
    (v.desk r.2).ledger = d.ledger

end Venue

namespace Handling

variable {v : Venue σ} {holder : String} {span now : Moment} {s : σ} {m : Message} {t : Attempt}
  {a : Answer} {c changed : Negotiation} {sent : σ → List (Message × Answer)}

theorem run_of_step_finished {h : Handling} {w : Verdict} {s' : σ} (hf : h.isFinished = false)
    (hstep : h.step v s = (.finished w, s')) : h.run v s = (.finished w, s') := by
  rw [run_of_not_finished hf, hstep, run_finished]

/-- A message is sent in the first step of a handling or not at all. -/
theorem outgoing?_step (h : Handling) (s : σ) : (h.step v s).1.outgoing? = none := by
  have hfinish {α : Type} (m : Message) (t : Attempt) (o : Outcome)
      (x : Except StoreError α × Desk) :
      (ofProgress m t (Attempt.finish o x).1).outgoing? = none := by
    obtain ⟨w, hw⟩ := rank_finish m t o x
    rw [hw]
    rfl
  cases h with
  | finished w => rfl
  | storing n =>
    show (ofSave ((v.desk s).save n).1).outgoing? = none
    cases ((v.desk s).save n).1 <;> rfl
  | attempting m t stage =>
    cases stage with
    | sending => rfl
    | early => exact hfinish ..
    | found a c =>
      show (ofProgress m t (t.step (v.now s) (v.desk s) (.found a c)).1).outgoing? = none
      simp only [Attempt.step]
      cases t.settle (v.now s) a c with
      | error e => rfl
      | ok changed => exact hfinish ..
    | answered a =>
      show (ofProgress m t (t.step (v.now s) (v.desk s) (.answered a)).1).outgoing? = none
      simp only [Attempt.step]
      rcases (v.desk s).find t.negotiation.id with ⟨_ | _ | c, d⟩
      · rfl
      · rfl
      · by_cases hstate : c.state = t.negotiation.state
        · simp only [if_pos hstate]
          rfl
        · simp only [if_neg hstate]
          rfl

theorem sent_run_of_outgoing (hsent : v.Remembers sent) {h : Handling} (hout : h.outgoing? = none)
    (s : σ) : sent (h.run v s).2 = sent s := by
  -- the induction is on the steps that are left
  induction hr : h.rank using Nat.strongRecOn generalizing h s with
  | ind r ih =>
    by_cases hf : h.isFinished = true
    · cases h with
      | finished w => rw [run_finished]
      | storing n | attempting m t stage => cases hf
    · rw [Bool.not_eq_true] at hf
      have hstep : sent (h.step v s).2 = sent s := by
        rw [step, hout]
        cases h with
        | finished w => rfl
        | storing n | attempting m t stage => exact hsent.sent_setDesk ..
      rw [run_of_not_finished hf, ih _ (hr ▸ rank_step_lt hf s) (outgoing?_step h s) _ rfl, hstep]

section

variable (hv : v.Serves holder span)
include hv

theorem givesBack_run_early (m : Message) (t : Attempt) (s : σ) :
    v.GivesBack (v.desk s) t.negotiation.id ((attempting m t .early).run v s) := by
  have ho : (v.desk s).handle.outages = [] := by rw [hv.handle_desk]
  rcases (v.desk s).ledger.checkLease_cases t.negotiation.id (v.desk s).handle.holder
    (v.desk s).now with ⟨-, hok⟩ | ⟨x, other, hx, hb, he⟩
  · rw [run_of_step_finished rfl (step_early (Desk.release_eq_ok ho hok))]
    refine ⟨fun _ => ⟨rfl, fun i => ?_⟩, fun x other hx hb => ?_⟩
    · rw [hv.ledger_setDesk]
      show ((v.desk s).ledger.setLease _ none).record? i = _
      split_ifs with hi
      · subst hi
        rw [Ledger.record?_setLease]
        refine Option.map_congr fun x hx => ?_
        rw [Record.withLease_of_mem]
        rw [Ledger.id_of_record? hx]
        exact List.mem_singleton_self _
      · exact Ledger.record?_setLease_of_not_mem (by simpa using hi)
    · rw [hok x hx] at hb; cases hb
  · have hrelease : (v.desk s).release t.negotiation.id =
        (.error (.alreadyLeased t.negotiation.id other), v.desk s) := by
      rw [Desk.release, Desk.call_eq ho, Ledger.release, he]
      rfl
    have hstep : (attempting m t .early).step v s =
        (.finished (.failed (.retry (.store (.alreadyLeased t.negotiation.id other)))),
          v.glance s) := by
      show (ofProgress m t (Attempt.finish .delayed ((v.desk s).release t.negotiation.id)).1,
        v.setDesk (Attempt.finish .delayed ((v.desk s).release t.negotiation.id)).2 s) = _
      rw [hrelease]
      rfl
    rw [run_of_step_finished rfl hstep]
    refine ⟨fun hfree => ?_, fun y other' hy hb' => ?_⟩
    · rw [hfree x hx] at hb; cases hb
    · obtain rfl : x = y := Option.some.inj (hx.symm.trans hy)
      obtain rfl : other = other' := Option.some.inj (hb.symm.trans hb')
      exact ⟨rfl, hv.ledger_setDesk ..⟩

theorem stores_run_found (hsettle : t.settle (v.now s) a c = .ok changed) :
    v.Stores (v.desk s) changed ((attempting m t (.found a c)).run v s) := by
  have ho : (v.desk s).handle.outages = [] := by rw [hv.handle_desk]
  rcases Desk.save_cases ho changed with ⟨hsave, hok⟩ | ⟨x, other, hx, hb, hsave⟩
  · rw [run_of_step_finished rfl (step_found hsettle hsave)]
    refine ⟨fun _ => ⟨rfl, fun i => ?_⟩, fun x other hx hb => ?_⟩
    · rw [hv.ledger_setDesk]
      refine Ledger.record?_put.trans (if_congr eq_comm rfl rfl)
    · rw [hok x hx] at hb; cases hb
  · have hstep : (attempting m t (.found a c)).step v s =
        (.finished (.failed (.retry (.store (.alreadyLeased changed.id other)))), v.glance s) := by
      have hfinish : t.step (v.now s) (v.desk s) (.found a c) =
          (.finished (.error (.store (.alreadyLeased changed.id other))), v.desk s) := by
        simp only [Attempt.step, hsettle, hsave]
        rfl
      show (ofProgress m t (t.step (v.now s) (v.desk s) (.found a c)).1,
        v.setDesk (t.step (v.now s) (v.desk s) (.found a c)).2 s) = _
      rw [hfinish]
      rfl
    rw [run_of_step_finished rfl hstep]
    refine ⟨fun hfree => ?_, fun y other' hy hb' => ?_⟩
    · rw [hfree x hx] at hb; cases hb
    · obtain rfl : x = y := Option.some.inj (hx.symm.trans hy)
      obtain rfl : other = other' := Option.some.inj (hb.symm.trans hb')
      exact ⟨rfl, hv.ledger_setDesk ..⟩

theorem desk_glance (hnow : ∀ u, (v.desk u).now = now) (s : σ) :
    v.desk (v.glance s) = v.desk s := by
  have hhandle : (v.desk (v.glance s)).handle = (v.desk s).handle := by
    rw [hv.handle_desk, hv.handle_desk]
  have hledger : (v.desk (v.glance s)).ledger = (v.desk s).ledger := hv.ledger_setDesk ..
  have htime : (v.desk (v.glance s)).now = (v.desk s).now := by rw [hnow, hnow]
  cases hd : v.desk s
  cases hd' : v.desk (v.glance s)
  rw [hd, hd'] at hhandle hledger htime
  cases hhandle
  cases hledger
  cases htime
  rfl

theorem run_answered_of_moved
    (hmoved : ∀ c, (v.desk s).ledger.find? t.negotiation.id = some c →
      c.state ≠ t.negotiation.state) :
    (attempting m t (.answered a)).run v s = (.finished (.outcome .processed), v.glance s) := by
  have ho : (v.desk s).handle.outages = [] := by rw [hv.handle_desk]
  have hstep : t.step (v.now s) (v.desk s) (.answered a) =
      (.finished (.ok .processed), v.desk s) := by
    simp only [Attempt.step, Desk.find_eq ho]
    cases hc : (v.desk s).ledger.find? t.negotiation.id with
    | none => rfl
    | some c => exact if_neg (hmoved c hc)
  refine run_of_step_finished rfl ?_
  show (ofProgress m t (t.step (v.now s) (v.desk s) (.answered a)).1,
    v.setDesk (t.step (v.now s) (v.desk s) (.answered a)).2 s) = _
  rw [hstep]
  rfl

theorem run_answered_of_same (hc : (v.desk s).ledger.find? t.negotiation.id = some c)
    (hstate : c.state = t.negotiation.state) :
    (attempting m t (.answered a)).run v s =
      (attempting m t (.found a c)).run v (v.glance s) := by
  have ho : (v.desk s).handle.outages = [] := by rw [hv.handle_desk]
  rw [run_of_not_finished rfl, step_answered ((Desk.find_eq ho _).trans (by rw [hc])) hstate]
  rfl

end

theorem run_found_of_error {e : TransitionError} (hsettle : t.settle (v.now s) a c = .error e) :
    (attempting m t (.found a c)).run v s =
      (.finished (.failed (.retry (.transition e))), v.glance s) := by
  refine run_of_step_finished rfl ?_
  have hstep : t.step (v.now s) (v.desk s) (.found a c) =
      (.finished (.error (.transition e)), v.desk s) := by simp only [Attempt.step, hsettle]
  show (ofProgress m t (t.step (v.now s) (v.desk s) (.found a c)).1,
    v.setDesk (t.step (v.now s) (v.desk s) (.found a c)).2 s) = _
  rw [hstep]
  rfl

end Handling

namespace Negotiation

theorem moveTo_of_canMoveTo {c : Negotiation} {target : State}
    (h : c.state.canMoveTo target = true) (now : Moment) :
    c.moveTo target now = .ok { c with
      state := target
      stateCount := if target = c.state then c.stateCount + 1 else 1
      stateSince := now
      updatedAt := now } := if_pos h

theorem giveUp_of_not_final {c : Negotiation} (h : c.state.isFinal = false) (detail : String)
    (now : Moment) :
    c.giveUp (some detail) now = .ok { c with
      state := .terminated
      stateCount := 1
      stateSince := now
      updatedAt := now
      errorDetail := some detail } := by
  have hne : State.terminated ≠ c.state := by
    intro heq
    rw [← heq] at h
    cases h
  have hmoved := moveTo_of_canMoveTo (State.canMoveTo_terminated h) now
  rw [if_neg hne] at hmoved
  exact giveUp_eq_ok_iff.2 ⟨_, hmoved, rfl⟩

end Negotiation

namespace Sending

/-- An attempt to send the message with anything at all that follows when it was taken. -/
def attemptWith (s : Sending) (onSuccess : Reaction) (policy : RetryPolicy) (n : Negotiation) :
    Attempt :=
  ⟨n, policy, { s.reactions n with onSuccess := some fun _ => onSuccess }⟩

/-- What a duty sends is an attempt of this kind: a success moves to the goal of the duty. -/
theorem attemptWith_succeed (s : Sending) (policy : RetryPolicy) (n : Negotiation) :
    s.attemptWith s.succeed policy n = s.attempt policy n := rfl

/-- It is too early to send anything about a copy: its state was entered before, and the delay since
then is not over. -/
def TooEarly (policy : RetryPolicy) (n : Negotiation) (now : Moment) : Prop :=
  1 < n.stateCount ∧ now < n.stateSince.later (policy.delayFor (n.stateCount - 1))

theorem tooEarly_iff {policy : RetryPolicy} {n : Negotiation} {now : Moment} :
    TooEarly policy n now ↔ now < Attempt.dueAt policy n := by
  rw [Attempt.dueAt, TooEarly, Negotiation.isRetry]
  by_cases h : 1 < n.stateCount
  · rw [decide_eq_true h, if_pos rfl, and_iff_right h]
  · rw [decide_eq_false h, if_neg Bool.false_ne_true]
    exact iff_of_false (fun he => h he.1) UInt64.not_lt_zero

section

variable {d : Duty} {ctx : Context} {messageId : String} {clock : Moment} {n : Negotiation}
  {s : Sending}

theorem begin_of_early (hp : d.plan ctx messageId clock n = .send s)
    (hearly : TooEarly ctx.policy n clock) : d.begin ctx messageId clock n =
      .attempting s.message (s.attempt ctx.policy n) .early := by
  rw [Duty.begin, hp, Plan.begin, Attempt.start_of_lt (tooEarly_iff.1 hearly)]

theorem begin_of_due (hp : d.plan ctx messageId clock n = .send s)
    (hearly : ¬TooEarly ctx.policy n clock) : d.begin ctx messageId clock n =
      .attempting s.message (s.attempt ctx.policy n) .sending := by
  have hdue : Attempt.dueAt ctx.policy n ≤ clock :=
    UInt64.not_lt.1 fun h => hearly (tooEarly_iff.2 h)
  rw [Duty.begin, hp, Plan.begin, Attempt.start_of_le hdue]

end

variable {v : Venue σ} {holder : String} {span now clock : Moment} {s : Sending}
  {onSuccess : Reaction} {policy : RetryPolicy} {n c changed : Negotiation} {a : Answer} {w : σ}
  {cause : String}

/-! ### What an answer makes of what is stored -/

theorem settle_attemptWith_fatal {f : Failure} (hf : f.isFatal = true)
    (hc : c.state.isFinal = false) :
    (s.attemptWith onSuccess policy n).settle clock (.ok (.failed f)) c =
      .ok { c with
        state := .terminated
        stateCount := 1
        stateSince := clock
        updatedAt := clock
        errorDetail := some f.detail } := by
  rw [Attempt.settle, Attempt.route_fatal hf]
  exact Negotiation.giveUp_of_not_final hc f.detail clock

theorem settle_attemptWith_again (ha : Answer.cause? a = some cause)
    (hc : c.state.isFinal = false) (hstate : c.state = n.state)
    (hcount : c.stateCount ≤ policy.maxRetries) :
    (s.attemptWith onSuccess policy n).settle clock a c =
      .ok { c with stateCount := c.stateCount + 1, stateSince := clock, updatedAt := clock } := by
  have hroute : Attempt.route policy c.stateCount a = .failure cause := by
    rw [Attempt.route_retryable ha, Attempt.retryable, RetryPolicy.isExhausted,
      decide_eq_false (UInt32.not_lt.2 hcount)]
    rfl
  have hmoved := Negotiation.moveTo_of_canMoveTo (State.canMoveTo_self hc) clock
  rw [if_pos rfl] at hmoved
  have hreaction : Attempt.reaction? (s.attemptWith onSuccess policy n).reactions
      (Attempt.route policy c.stateCount a) = some fun now m => m.moveTo n.state now := by
    rw [hroute]
    rfl
  have hsettle : (s.attemptWith onSuccess policy n).settle clock a c = c.moveTo n.state clock :=
    Attempt.settle_of_reaction hreaction clock
  rw [hsettle, ← hstate]
  exact hmoved

theorem settle_attemptWith_exhausted (ha : Answer.cause? a = some cause)
    (hcount : policy.maxRetries < c.stateCount) :
    (s.attemptWith onSuccess policy n).settle clock a c =
      s.exhaust n.side.counterpartRole cause clock c := by
  have hroute : Attempt.route policy c.stateCount a = .exhausted cause := by
    rw [Attempt.route_retryable ha, Attempt.retryable, RetryPolicy.isExhausted,
      decide_eq_true hcount]
    rfl
  have hreaction : Attempt.reaction? (s.attemptWith onSuccess policy n).reactions
      (Attempt.route policy c.stateCount a) = some (s.exhaust n.side.counterpartRole cause) := by
    rw [hroute]
    rfl
  exact Attempt.settle_of_reaction hreaction clock

theorem exhaust_of_notifies (hs : s.notifies = true) (hc : c.state.isFinal = false)
    (role cause : String) (clock : Moment) :
    s.exhaust role cause clock c = .ok { c with
      state := .terminating
      stateCount := if .terminating = c.state then c.stateCount + 1 else 1
      stateSince := clock
      updatedAt := clock
      errorDetail := some (exhaustedDetail s.message.kindName role cause) } := by
  rw [exhaust, if_pos hs]
  exact Negotiation.terminate_eq_ok_iff.2
    ⟨_, Negotiation.moveTo_of_canMoveTo (State.canMoveTo_terminating hc) clock, rfl⟩

theorem exhaust_of_not_notifies (hs : s.notifies = false) (hc : c.state.isFinal = false)
    (role cause : String) (clock : Moment) :
    s.exhaust role cause clock c = .ok { c with
      state := .terminated
      stateCount := 1
      stateSince := clock
      updatedAt := clock
      errorDetail := some (appendDetail c.errorDetail
        (exhaustedDetail s.message.kindName role cause)) } := by
  rw [exhaust, if_neg (Bool.eq_false_iff.1 hs)]
  exact Negotiation.giveUp_of_not_final hc _ clock

/-- What has become of the negotiation `c` that was found in the same state when the answer `a` was
there; `d` is the desk then, and `r` the end. -/
structure Records (v : Venue σ) (s : Sending) (onSuccess : Reaction) (policy : RetryPolicy)
    (n : Negotiation) (clock : Moment) (a : Answer) (d : Desk) (c : Negotiation)
    (r : Handling × σ) : Prop where
  /-- The message was taken, and what follows can be stored. -/
  taken : ∀ content changed, a = .ok (.succeeded content) → onSuccess clock c = .ok changed →
    v.Stores d changed r
  /-- The message was taken, and what follows cannot be done. -/
  stuck : ∀ content e, a = .ok (.succeeded content) → onSuccess clock c = .error e →
    r.1 = .finished (.failed (.retry (.transition e))) ∧ (v.desk r.2).ledger = d.ledger
  /-- The message was refused for good. -/
  fatal : ∀ f, a = .ok (.failed f) → f.isFatal = true →
    v.Stores d { c with
      state := .terminated
      stateCount := 1
      stateSince := clock
      updatedAt := clock
      errorDetail := some f.detail } r
  /-- The message was not taken, and may be sent again: the state is entered once more. -/
  again : ∀ cause, a.cause? = some cause → c.stateCount ≤ policy.maxRetries →
    ∃ count : UInt32, count.toNat = c.stateCount.toNat + 1 ∧
      v.Stores d { c with stateCount := count, stateSince := clock, updatedAt := clock } r
  /-- It was sent often enough, and the other side is still to be told. -/
  notified : ∀ cause, a.cause? = some cause → policy.maxRetries < c.stateCount →
    s.notifies = true →
    v.Stores d { c with
      state := .terminating
      stateCount := if .terminating = c.state then c.stateCount + 1 else 1
      stateSince := clock
      updatedAt := clock
      errorDetail := some (exhaustedDetail s.message.kindName n.side.counterpartRole cause) } r
  /-- It was sent often enough, and was the notice itself: the detail goes behind the reason. -/
  ended : ∀ cause, a.cause? = some cause → policy.maxRetries < c.stateCount →
    s.notifies = false →
    v.Stores d { c with
      state := .terminated
      stateCount := 1
      stateSince := clock
      updatedAt := clock
      errorDetail := some (appendDetail c.errorDetail
        (exhaustedDetail s.message.kindName n.side.counterpartRole cause)) } r

theorem records_run_found (hv : v.Serves holder span) (hclock : ∀ u, v.now u = clock)
    (hc : c.state.isFinal = false) (hstate : c.state = n.state)
    (hmax : policy.maxRetries.toNat < UInt32.size - 1) (w : σ) :
    s.Records v onSuccess policy n clock a (v.desk w) c
      ((Handling.attempting s.message (s.attemptWith onSuccess policy n) (.found a c)).run
        v w) := by
  have hstores {changed : Negotiation}
      (h : (s.attemptWith onSuccess policy n).settle clock a c = .ok changed) :
      v.Stores (v.desk w) changed ((Handling.attempting s.message
        (s.attemptWith onSuccess policy n) (.found a c)).run v w) :=
    Handling.stores_run_found hv (by rw [hclock]; exact h)
  refine ⟨?_, ?_, ?_, ?_, ?_, ?_⟩
  · rintro content changed rfl h
    exact hstores h
  · rintro content e rfl h
    rw [Handling.run_found_of_error (by rw [hclock]; exact h)]
    exact ⟨rfl, hv.ledger_setDesk ..⟩
  · rintro f rfl hf
    exact hstores (settle_attemptWith_fatal hf hc)
  · intro cause ha hcount
    have hroom : c.stateCount.toNat + 1 < UInt32.size := by
      have := UInt32.le_iff_toNat_le.1 hcount
      omega
    refine ⟨c.stateCount + 1, ?_,
      hstores (settle_attemptWith_again ha hc hstate hcount)⟩
    rw [UInt32.toNat_add]
    exact Nat.mod_eq_of_lt hroom
  · intro cause ha hcount hs
    refine hstores ((settle_attemptWith_exhausted ha hcount).trans ?_)
    exact exhaust_of_notifies hs hc ..
  · intro cause ha hcount hs
    refine hstores ((settle_attemptWith_exhausted ha hcount).trans ?_)
    exact exhaust_of_not_notifies hs hc ..

/-! ### One attempt from the copy to the end -/

/-- What one attempt comes to that begins with the copy `n` in the world `w` and ends with `r`. -/
structure Post (v : Venue σ) (sent : σ → List (Message × Answer)) (s : Sending)
    (onSuccess : Reaction) (policy : RetryPolicy) (n : Negotiation) (clock : Moment) (w : σ)
    (r : Handling × σ) : Prop where
  /-- It was too early: nothing is sent, and the lease is given back. -/
  early : TooEarly policy n clock → sent r.2 = sent w ∧ v.GivesBack (v.desk w) n.id r
  /-- Else the message is sent, once. -/
  sent : ¬TooEarly policy n clock →
    sent r.2 = sent w ++ [(s.message, (v.dispatch s.message w).1)]
  /-- If by then the negotiation is gone or in another state, nothing is stored. -/
  moved : ¬TooEarly policy n clock →
    (∀ c, (v.desk (v.dispatch s.message w).2).ledger.find? n.id = some c → c.state ≠ n.state) →
    r.1 = .finished (.outcome .processed) ∧
      (v.desk r.2).ledger = (v.desk (v.dispatch s.message w).2).ledger
  /-- If it is in the same state, the answer is recorded in it. -/
  found : ¬TooEarly policy n clock → ∀ c,
    (v.desk (v.dispatch s.message w).2).ledger.find? n.id = some c → c.state = n.state →
    s.Records v onSuccess policy n clock (v.dispatch s.message w).1
      (v.desk (v.dispatch s.message w).2) c r

/-- **What sending a message comes to**, whatever the message, the retry policy, the answer, what
follows when the message was taken, and what goes on in the ledger while it is on its way. -/
theorem run_attempt {sent : σ → List (Message × Answer)} (hv : v.Serves holder span)
    (hsent : v.Remembers sent) (hclock : ∀ u, v.now u = clock) (hnow : ∀ u, (v.desk u).now = now)
    (hn : n.state.isFinal = false) (hmax : policy.maxRetries.toNat < UInt32.size - 1)
    (s : Sending) (onSuccess : Reaction) (w : σ) :
    s.Post v sent onSuccess policy n clock w
      ((Handling.attempting s.message (s.attemptWith onSuccess policy n)
        ((s.attemptWith onSuccess policy n).start clock)).run v w) := by
  set t := s.attemptWith onSuccess policy n with ht
  by_cases hearly : TooEarly policy n clock
  · rw [Attempt.start_of_lt (t := t) (tooEarly_iff.1 hearly)]
    exact ⟨fun _ => ⟨Handling.sent_run_of_outgoing hsent rfl w,
      Handling.givesBack_run_early hv s.message t w⟩, absurd hearly, absurd hearly, absurd hearly⟩
  · have hdue : Attempt.dueAt policy n ≤ clock :=
      UInt64.not_lt.1 fun h => hearly (tooEarly_iff.2 h)
    rw [Attempt.start_of_le (t := t) hdue, Handling.run_sending]
    refine ⟨fun h => absurd h hearly, fun _ => ?_, fun _ hmoved => ?_, fun _ c hc hstate => ?_⟩
    · rw [Handling.sent_run_of_outgoing hsent rfl, hsent.sent_dispatch]
    · rw [Handling.run_answered_of_moved hv hmoved]
      exact ⟨rfl, hv.ledger_setDesk ..⟩
    · rw [Handling.run_answered_of_same hv hc hstate,
        ← Handling.desk_glance hv hnow (v.dispatch s.message w).2]
      exact records_run_found hv hclock (hstate ▸ hn) hstate hmax _

/-- An offer that no answer is obtained to is entered once more. -/
theorem run_attempt_timeout :
    let v := Workshop.steady ⟨5000, 5000, "message-1", .error (.timeout 100)⟩
      ⟨"worker", 60000, default⟩
    let n := Negotiation.specimen
    let s : Sending := { message := .offer default default, success := .offered }
    let t := s.attemptWith s.succeed {} n
    let w := (Ledger.empty.put ⟨n, some ⟨"worker", 4000, 60000⟩⟩, [])
    let r := (Handling.attempting s.message t (t.start 5000)).run v w
    v.Serves "worker" 60000 ∧ v.Remembers Prod.snd ∧ (∀ u, v.now u = 5000) ∧
    (∀ u, (v.desk u).now = 5000) ∧ n.state.isFinal = false ∧
    ({} : RetryPolicy).maxRetries.toNat < UInt32.size - 1 ∧
    r.2.2 = [(s.message, .error (.timeout 100))] ∧
    ∃ count : UInt32, count.toNat = 2 ∧
      r.2.1.record? n.id =
        some ⟨{ n with stateCount := count, stateSince := 5000, updatedAt := 5000 }, none⟩ := by
  intro v n s t w r
  have hquiet := Workshop.quiet_steady ⟨5000, 5000, "message-1", .error (.timeout 100)⟩
    ⟨"worker", 60000, default⟩
  have hv : v.Serves "worker" 60000 := hquiet.toServes
  have hsent : v.Remembers Prod.snd := ⟨hquiet.sent_setDesk, hquiet.sent_dispatch⟩
  have hn : n.state.isFinal = false := rfl
  have hmax : ({} : RetryPolicy).maxRetries.toNat < UInt32.size - 1 := by decide
  have hclock : ∀ u, v.now u = 5000 := fun _ => rfl
  have hnow : ∀ u, (v.desk u).now = 5000 := fun _ => rfl
  have hpost := run_attempt hv hsent hclock hnow hn hmax s s.succeed w
  have hlate : ¬TooEarly {} n 5000 := fun h => absurd h.1 (by decide)
  have hfind : w.1.find? n.id = some n := by decide +kernel
  obtain ⟨count, hcount, hstored⟩ := (hpost.found hlate n hfind rfl).again _ rfl (by decide)
  have hown : ∀ x, w.1.record? n.id = some x → x.blocker? "worker" 5000 = none := by
    decide +kernel
  refine ⟨hv, hsent, hclock, hnow, hn, hmax, hpost.sent hlate, count, hcount, ?_⟩
  exact ((hstored.free hown).2 n.id).trans (if_pos rfl)

end Sending

end Parley
