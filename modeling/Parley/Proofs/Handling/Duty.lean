import Parley.Handling.Basic
import Parley.Proofs.Negotiation.Moves

/-!
# What the duties do

The table of duties read as a whole: where each duty leads, which ones send a message, and what the
answer to a message makes of the negotiation it is about.

* `plan_cases` : a duty either moves on at once or sends a message, whatever the negotiation holds.
* `begin_cases` : so the handling begins with something to store, with an attempt, or at its end.
* `canMoveTo_goal`, `isFinal_of_of?` : the moves that duties make are in the table of moves.
* `of?_goal_of_sends`, `of?_goal_of_not_sends` : a side has nothing to do where its messages lead,
  and a message to send where its other duties lead.
* `settle_cases` : every answer to a message can be recorded, and this is what it makes of the
  negotiation; `exists_settle` is about the copy that the message was about.
-/

namespace Parley

theorem Attempt.settle_of_reaction {t : Attempt} {answer : Answer} {current : Negotiation}
    {react : Reaction}
    (h : reaction? t.reactions (route t.policy current.stateCount answer) = some react)
    (now : Moment) : t.settle now answer current = react now current := by
  rw [settle, h]

/-- The message was taken. -/
def Route.isSuccess : Route → Bool
  | .success _ => true
  | _ => false

namespace Sending

variable {s : Sending} {n moved : Negotiation}

/-- The negotiation with the agreement that the message carries, if it carries one. -/
def sign (s : Sending) (n : Negotiation) : Negotiation :=
  match s.agreement with
  | some a => n.setAgreement a
  | none => n

@[simp] theorem agreement_sign : (s.sign n).agreement = s.agreement.or n.agreement := by
  unfold sign
  cases s.agreement <;> rfl

@[simp] theorem id_sign : (s.sign n).id = n.id := by
  unfold sign
  cases s.agreement <;> rfl

@[simp] theorem state_sign : (s.sign n).state = n.state := by
  unfold sign
  cases s.agreement <;> rfl

@[simp] theorem stateCount_sign : (s.sign n).stateCount = n.stateCount := by
  unfold sign
  cases s.agreement <;> rfl

@[simp] theorem errorDetail_sign : (s.sign n).errorDetail = n.errorDetail := by
  unfold sign
  cases s.agreement <;> rfl

theorem sameTerms_sign (s : Sending) (n : Negotiation) : n.SameTerms (s.sign n) := by
  unfold sign
  cases s.agreement <;> exact ⟨rfl, rfl, rfl, rfl, rfl, rfl, rfl, rfl, rfl⟩

theorem succeed_eq_ok {now : Moment} (h : n.moveTo s.success now = .ok moved) :
    s.succeed now n = .ok (s.sign moved) := by
  unfold succeed sign
  rw [h]
  cases s.agreement <;> rfl

/-- The detail that is noted with what an answer leads to; `role` is what the other side is called.
-/
def note? (s : Sending) (role : String) (current : Negotiation) : Route → Option String
  | .success _ | .failure _ => none
  | .fatal f => some f.detail
  | .exhausted cause =>
    let detail := exhaustedDetail s.message.kindName role cause
    some (if s.notifies then detail else appendDetail current.errorDetail detail)

theorem exhaust_eq_ok (role cause : String) {now : Moment}
    (h : n.moveTo (if s.notifies then .terminating else .terminated) now = .ok moved) :
    s.exhaust role cause now n = .ok (moved.withDetail (s.note? role n (.exhausted cause))) := by
  unfold exhaust note?
  split_ifs at h ⊢
  · exact Negotiation.terminate_eq_ok_iff.2 ⟨moved, h, rfl⟩
  · exact Negotiation.giveUp_eq_ok_iff.2 ⟨moved, h, rfl⟩

end Sending

namespace Duty

variable {side : Side} {st : State} {d : Duty}

/-- The state a duty leads to when all goes well. -/
def goal : Duty → State
  | sendOffer => .offered
  | takeRequest => .agreeing
  | sendAgreement => .agreed
  | beginFinalizing => .finalizing
  | sendFinalization => .finalized
  | beginRequesting => .requesting
  | sendRequest => .requested
  | sendAcceptance => .accepted
  | beginVerifying => .verifying
  | sendApproval => .verified
  | sendTermination => .terminated

/-- The duty is done by sending a message. -/
def sends : Duty → Bool
  | takeRequest | beginFinalizing | beginRequesting | beginVerifying => false
  | _ => true

/-! ### The table of duties -/

theorem of?_of_mem_duties {autoAgree : Bool} (h : (st, d) ∈ side.duties autoAgree) :
    of? side st = some d := by
  cases side <;> cases autoAgree <;> simp [Side.duties] at h <;> rcases h with h | h <;> grind [of?]

theorem isFinal_of_of? (h : of? side st = some d) : st.isFinal = false := by
  cases side <;> cases st <;> first | rfl | cases h

theorem canMoveTo_goal (h : of? side st = some d) : st.canMoveTo d.goal = true := by
  cases side <;> cases st <;> cases h <;> rfl

theorem goal_ne (h : of? side st = some d) : d.goal ≠ st := by
  cases side <;> cases st <;> cases h <;> decide

theorem of?_goal_of_sends (h : of? side st = some d) (hs : d.sends = true) :
    of? side d.goal = none := by
  cases side <;> cases st <;> cases h <;> first | rfl | cases hs

theorem of?_goal_of_not_sends (h : of? side st = some d) (hs : d.sends = false) :
    ∃ e, of? side d.goal = some e ∧ e.sends = true ∧ e ≠ .sendTermination := by
  cases side <;> cases st <;> cases h <;> first | (refine ⟨_, rfl, rfl, ?_⟩; decide) | cases hs

theorem of?_terminating (side : Side) : of? side .terminating = some .sendTermination := by
  cases side <;> rfl

theorem of?_terminated (side : Side) : of? side .terminated = none := by cases side <;> rfl

theorem eq_sendTermination_iff (h : of? side st = some d) :
    d = .sendTermination ↔ st = .terminating := by
  cases side <;> cases st <;> cases h <;> decide

/-! ### Plans -/

variable {ctx : Context} {messageId : String} {now : Moment} {n : Negotiation} {s : Sending}

theorem sendWith_cases {f : Header → Sending} {target : State} {notifies : Bool}
    (hf : ∀ head, (f head).success = target ∧ (f head).notifies = notifies) :
    (∃ s, sendWith n messageId f = .send s ∧ s.success = target ∧ s.notifies = notifies) ∨
      ∃ e, sendWith n messageId f = .refuse e := by
  unfold sendWith
  split
  · next head _ => exact .inl ⟨_, rfl, hf head⟩
  · exact .inr ⟨_, rfl⟩

/-- What a duty can plan: to move on at once, or to send a message that leads where the duty does
and that, if it was sent often enough, is followed by a notice of termination unless it is one. -/
theorem plan_cases (d : Duty) (ctx : Context) (messageId : String) (now : Moment)
    (n : Negotiation) :
    (d.sends = false ∧ d.plan ctx messageId now n = .advance d.goal) ∨
    (d.sends = true ∧ ((∃ s, d.plan ctx messageId now n = .send s ∧ s.success = d.goal ∧
        s.notifies = decide (d ≠ .sendTermination)) ∨
      d.plan ctx messageId now n = .skip ∨ ∃ e, d.plan ctx messageId now n = .refuse e)) := by
  have key {f : Header → Sending} (hf : ∀ head, (f head).success = d.goal ∧
      (f head).notifies = decide (d ≠ .sendTermination))
      (hp : d.plan ctx messageId now n = sendWith n messageId f) :
      (∃ s, d.plan ctx messageId now n = .send s ∧ s.success = d.goal ∧
        s.notifies = decide (d ≠ .sendTermination)) ∨
      d.plan ctx messageId now n = .skip ∨ ∃ e, d.plan ctx messageId now n = .refuse e := by
    rw [hp]
    exact (sendWith_cases hf).imp_right .inr
  cases d with
  | takeRequest => exact .inl ⟨rfl, rfl⟩
  | beginFinalizing => exact .inl ⟨rfl, rfl⟩
  | beginRequesting => exact .inl ⟨rfl, rfl⟩
  | beginVerifying => exact .inl ⟨rfl, rfl⟩
  | sendAcceptance => exact .inr ⟨rfl, key (fun _ => ⟨rfl, rfl⟩) rfl⟩
  | sendApproval => exact .inr ⟨rfl, key (fun _ => ⟨rfl, rfl⟩) rfl⟩
  | sendTermination => exact .inr ⟨rfl, key (fun _ => ⟨rfl, rfl⟩) rfl⟩
  | sendOffer =>
    cases ho : n.lastOffer? with
    | none => exact .inr ⟨rfl, .inr (.inr ⟨.missingOffer n.id, by simp only [plan, ho]⟩)⟩
    | some o => exact .inr ⟨rfl, key (fun _ => ⟨rfl, rfl⟩) (by simp only [plan, ho]; rfl)⟩
  | sendRequest =>
    cases ho : n.lastOffer? with
    | none => exact .inr ⟨rfl, .inr (.inr ⟨.missingOffer n.id, by simp only [plan, ho]⟩)⟩
    | some o => exact .inr ⟨rfl, key (fun _ => ⟨rfl, rfl⟩) (by simp only [plan, ho]; rfl)⟩
  | sendFinalization =>
    cases ha : n.agreement with
    | none => exact .inr ⟨rfl, .inr (.inr ⟨.missingAgreement n.id, by simp only [plan, ha]⟩)⟩
    | some a => exact .inr ⟨rfl, key (fun _ => ⟨rfl, rfl⟩) (by simp only [plan, ha]; rfl)⟩
  | sendAgreement =>
    cases ha : agreementOf ctx now n with
    | error e => exact .inr ⟨rfl, .inr (.inr ⟨e, by simp only [plan, ha]⟩)⟩
    | ok a? =>
      cases a? with
      | none => exact .inr ⟨rfl, .inr (.inl (by simp only [plan, ha]))⟩
      | some a => exact .inr ⟨rfl, key (fun _ => ⟨rfl, rfl⟩) (by simp only [plan, ha]; rfl)⟩

theorem sends_of_plan (h : d.plan ctx messageId now n = .send s) :
    d.sends = true ∧ s.success = d.goal ∧ s.notifies = decide (d ≠ .sendTermination) := by
  rcases plan_cases d ctx messageId now n with ⟨-, h'⟩ | ⟨hs, ⟨s', h', hg⟩ | h' | ⟨e, h'⟩⟩
  · rw [h'] at h; cases h
  · rw [h'] at h; cases h; exact ⟨hs, hg⟩
  · rw [h'] at h; cases h
  · rw [h'] at h; cases h

/-- How a duty begins: with the negotiation moved on and to be stored, with an attempt to send a
message, or at its end. -/
theorem begin_cases (hd : of? side n.state = some d) (ctx : Context) (messageId : String)
    (now : Moment) :
    (d.sends = false ∧ ∃ moved, n.moveTo d.goal now = .ok moved ∧
      d.begin ctx messageId now n = .storing moved) ∨
    (d.sends = true ∧ ((∃ s stage, d.plan ctx messageId now n = .send s ∧
        (stage = .sending ∨ stage = .early) ∧
        d.begin ctx messageId now n = .attempting s.message (s.attempt ctx.policy n) stage) ∨
      d.begin ctx messageId now n = .finished (.outcome .notProcessed) ∨
      ∃ e, d.begin ctx messageId now n = .finished (.failed e))) := by
  unfold Duty.begin
  rcases plan_cases d ctx messageId now n with ⟨hs, hp⟩ | ⟨hs, ⟨s, hp, -⟩ | hp | ⟨e, hp⟩⟩
  · obtain ⟨moved, hmoved⟩ := Negotiation.exists_moveTo (canMoveTo_goal hd) now
    refine .inl ⟨hs, moved, hmoved, ?_⟩
    rw [hp]
    show Handling.advance d.goal now n = .storing moved
    rw [Handling.advance, hmoved]
  · refine .inr ⟨hs, .inl ⟨s, (s.attempt ctx.policy n).start now, hp, ?_, by rw [hp]; rfl⟩⟩
    unfold Attempt.start
    split_ifs
    · exact .inl rfl
    · exact .inr rfl
  · exact .inr ⟨hs, .inr (.inl (by rw [hp]; rfl))⟩
  · exact .inr ⟨hs, .inr (.inr ⟨e, by rw [hp]; rfl⟩)⟩

theorem begin_of_outgoing {m : Message} (hd : of? side n.state = some d)
    (h : (d.begin ctx messageId now n).outgoing? = some m) :
    ∃ s, d.plan ctx messageId now n = .send s ∧ m = s.message ∧
      d.begin ctx messageId now n = .attempting s.message (s.attempt ctx.policy n) .sending := by
  rcases begin_cases hd ctx messageId now with
    ⟨-, moved, -, hb⟩ | ⟨-, ⟨s, stage, hp, rfl | rfl, hb⟩ | hb | ⟨e, hb⟩⟩
  · rw [hb] at h; cases h
  · rw [hb] at h; cases h; exact ⟨s, hp, rfl, hb⟩
  · rw [hb] at h; cases h
  · rw [hb] at h; cases h
  · rw [hb] at h; cases h

/-! ### Answers -/

/-- The state in which an answer leaves a negotiation that a duty sent a message about. -/
def after (d : Duty) (st : State) : Route → State
  | .success _ => d.goal
  | .failure _ => st
  | .fatal _ => .terminated
  | .exhausted _ => if d = .sendTermination then .terminated else .terminating

/-- **Every answer can be recorded**, on the copy that the message was about and on anything else in
the same state: it is a move to where the answer leads.  If the message was taken, what it carries
is signed, else a detail may be noted: which one, `Sending.note?` says. -/
theorem settle_cases (hd : of? side n.state = some d)
    (hp : d.plan ctx messageId now n = .send s) {current : Negotiation}
    (hstate : current.state = n.state) (policy : RetryPolicy) (later : Moment) (answer : Answer) :
    ∃ moved m, current.moveTo (d.after n.state (Attempt.route policy current.stateCount answer))
        later = .ok moved ∧
      (s.attempt policy n).settle later answer current = .ok m ∧
      if (Attempt.route policy current.stateCount answer).isSuccess then m = s.sign moved
      else m = moved.withDetail (s.note? n.side.counterpartRole current
        (Attempt.route policy current.stateCount answer)) := by
  obtain ⟨-, hgoal, hnotifies⟩ := sends_of_plan hp
  have hd' : of? side current.state = some d := hstate ▸ hd
  have hfinal := isFinal_of_of? hd'
  have hsettle {r : Route} {react : Reaction}
      (hr : Attempt.route policy current.stateCount answer = r)
      (h : Attempt.reaction? (s.reactions n) r = some react) :
      (s.attempt policy n).settle later answer current = react later current :=
    Attempt.settle_of_reaction (hr ▸ h) later
  cases hr : Attempt.route policy current.stateCount answer with
  | success content =>
    obtain ⟨moved, hmoved⟩ := Negotiation.exists_moveTo (canMoveTo_goal hd') later
    refine ⟨moved, s.sign moved, hmoved, ?_, rfl⟩
    rw [hsettle hr rfl]
    exact Sending.succeed_eq_ok (hgoal ▸ hmoved)
  | failure cause =>
    -- the state is entered once more, with nothing noted
    have hmove : current.state.canMoveTo n.state = true := by
      rw [← hstate]
      exact State.canMoveTo_self hfinal
    obtain ⟨moved, hmoved⟩ := Negotiation.exists_moveTo hmove later
    refine ⟨moved, moved, hmoved, ?_, rfl⟩
    rw [hsettle hr rfl]
    exact hmoved
  | fatal f =>
    obtain ⟨moved, hmoved⟩ :=
      Negotiation.exists_moveTo (State.canMoveTo_terminated hfinal) later
    refine ⟨moved, _, hmoved, ?_, rfl⟩
    rw [hsettle hr rfl]
    exact Negotiation.giveUp_eq_ok_iff.2 ⟨moved, hmoved, rfl⟩
  | exhausted cause =>
    -- only what is no notice of termination itself is followed by one
    have htarget : d.after n.state (.exhausted cause) =
        if s.notifies then .terminating else .terminated := by
      rw [hnotifies]
      by_cases ht : d = .sendTermination <;> simp [after, ht]
    have hmove : current.state.canMoveTo (d.after n.state (.exhausted cause)) = true := by
      rw [htarget]
      split_ifs
      · exact State.canMoveTo_terminating hfinal
      · exact State.canMoveTo_terminated hfinal
    obtain ⟨moved, hmoved⟩ := Negotiation.exists_moveTo hmove later
    refine ⟨moved, _, hmoved, ?_, rfl⟩
    rw [hsettle hr rfl]
    exact Sending.exhaust_eq_ok n.side.counterpartRole cause (htarget ▸ hmoved)

/-- What an answer makes of a negotiation is in the state the answer leads to; only a failure that
may pass enters the same state again, and counts it. -/
theorem exists_settle_of_state_eq (hd : of? side n.state = some d)
    (hp : d.plan ctx messageId now n = .send s) {current : Negotiation}
    (hstate : current.state = n.state) (policy : RetryPolicy) (later : Moment) (answer : Answer) :
    ∃ m, (s.attempt policy n).settle later answer current = .ok m ∧ m.id = current.id ∧
      m.state = d.after n.state (Attempt.route policy current.stateCount answer) ∧
      m.stateCount = if m.state = current.state then current.stateCount + 1 else 1 := by
  obtain ⟨moved, m, hmoved, hsettle, hm⟩ := settle_cases hd hp hstate policy later answer
  -- signing and noting details concern other fields
  have hfields : m.id = moved.id ∧ m.state = moved.state ∧ m.stateCount = moved.stateCount := by
    split_ifs at hm <;> rw [hm] <;> simp
  obtain ⟨hid, hst, hcount⟩ := hfields
  refine ⟨m, hsettle, hid.trans (Negotiation.id_of_moveTo hmoved),
    hst.trans (Negotiation.state_of_moveTo hmoved), ?_⟩
  rw [hcount, Negotiation.stateCount_of_moveTo hmoved, hst, Negotiation.state_of_moveTo hmoved]

theorem exists_settle (hd : of? side n.state = some d)
    (hp : d.plan ctx messageId now n = .send s) (policy : RetryPolicy) (later : Moment)
    (answer : Answer) :
    ∃ m, (s.attempt policy n).settle later answer n = .ok m ∧ m.id = n.id ∧
      m.state = d.after n.state (Attempt.route policy n.stateCount answer) ∧
      m.stateCount = if m.state = n.state then n.stateCount + 1 else 1 :=
  exists_settle_of_state_eq hd hp rfl policy later answer

end Duty

end Parley
