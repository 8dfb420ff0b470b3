import Parley.Handling.Duty

/-!
# Handling a negotiation

A handler takes a negotiation and a moment and says how the handling begins: with a negotiation to
store, with an attempt to send a message, or at its end. From there on the handling goes step by
step, so that several can be under way at once.

* `Duty.begin` is the handler of a duty.
* `Handling.step` makes the next step in a venue, which provides the clock, the desk, fresh message
  ids and the sending of messages.
-/

namespace Parley

/-- How the handling of a negotiation ended. -/
inductive Verdict where
  /-- With an outcome. -/
  | outcome (outcome : Outcome)
  /-- With an error. -/
  | failed (error : HandlingError)
  /-- The handler broke down. -/
  | brokeDown
  deriving DecidableEq, Repr

instance : Inhabited Verdict := ⟨.outcome .processed⟩

/-- How far the handling of a negotiation has come. -/
inductive Handling where
  /-- The negotiation is to be stored. -/
  | storing (negotiation : Negotiation)
  /-- A message is being sent. -/
  | attempting (message : Message) (attempt : Attempt) (stage : Stage)
  /-- The handling is over. -/
  | finished (verdict : Verdict)
  deriving Inhabited

/-- How the handling of a negotiation begins, with an id for a message and at a moment. -/
abbrev Handler := (messageId : String) → (now : Moment) → Negotiation → Handling

/-- The attempt to send a message about a negotiation. -/
def Sending.attempt (s : Sending) (policy : RetryPolicy) (n : Negotiation) : Attempt :=
  ⟨n, policy, s.reactions n⟩

/-- The handling that moves a negotiation on and stores it. -/
def Handling.advance (target : State) (now : Moment) (n : Negotiation) : Handling :=
  match n.moveTo target now with
  | .ok moved => .storing moved
  | .error e => .finished (.failed (.transition e))

/-- The handling that does what is planned. -/
def Plan.begin (ctx : Context) (now : Moment) (n : Negotiation) : Plan → Handling
  | advance target => Handling.advance target now n
  | send s => .attempting s.message (s.attempt ctx.policy n) ((s.attempt ctx.policy n).start now)
  | skip => .finished (.outcome .notProcessed)
  | refuse e => .finished (.failed e)

/-- The handler of a duty. -/
def Duty.begin (ctx : Context) (duty : Duty) : Handler := fun messageId now n =>
  (duty.plan ctx messageId now n).begin ctx now n

/-- What handling a negotiation needs from the world it happens in. -/
structure Venue (σ : Type) where
  /-- What the worker's clock shows. -/
  now : σ → Moment
  /-- The worker's desk. -/
  desk : σ → Desk
  /-- The world with a changed desk. -/
  setDesk : Desk → σ → σ
  /-- An id for a message. -/
  freshId : σ → String × σ
  /-- The answer to a message. -/
  dispatch : Message → σ → Answer × σ

namespace Venue

variable {σ : Type}

/-- Work at the desk. -/
def atDesk {α : Type} (v : Venue σ) (work : Desk → α × Desk) (s : σ) : α × σ :=
  let (a, d) := work (v.desk s)
  (a, v.setDesk d s)

end Venue

namespace Handling

variable {σ : Type}

/-- The end of a handling with the end of its attempt. -/
def ofResult : Except RetryError Outcome → Handling
  | .ok o => .finished (.outcome o)
  | .error e => .finished (.failed (.retry e))

/-- The handling whose attempt has come this far. -/
def ofProgress (m : Message) (t : Attempt) : Progress → Handling
  | .going stage => .attempting m t stage
  | .finished result => ofResult result

/-- The end of a handling with the storing of its negotiation. -/
def ofSave : Except StoreError Unit → Handling
  | .ok _ => .finished (.outcome .processed)
  | .error e => .finished (.failed (.store e))

/-- The handling is over. -/
def isFinished : Handling → Bool
  | finished _ => true
  | _ => false

/-- How the handling ended, once it is over. -/
def verdict? : Handling → Option Verdict
  | finished verdict => some verdict
  | _ => none

/-- The message that is to be sent next, if one is. -/
def outgoing? : Handling → Option Message
  | attempting m _ .sending => some m
  | _ => none

/-- The handling once its message was answered. -/
def receive (answer : Answer) : Handling → Handling
  | attempting m t .sending => .attempting m t (.answered answer)
  | other => other

/-- The next step that is not the sending of a message. -/
def stepAtDesk (v : Venue σ) (s : σ) : Handling → Handling × σ
  | storing n =>
    let (r, s) := v.atDesk (·.save n) s
    (ofSave r, s)
  | attempting m t stage =>
    let now := v.now s
    let (p, s) := v.atDesk (fun d => t.step now d stage) s
    (ofProgress m t p, s)
  | finished r => (finished r, s)

/-- The next step. -/
def step (v : Venue σ) (h : Handling) (s : σ) : Handling × σ :=
  match h.outgoing? with
  | some m =>
    let (answer, s) := v.dispatch m s
    (h.receive answer, s)
  | none => h.stepAtDesk v s

/-- The steps left at most. -/
def rank : Handling → Nat
  | finished _ => 0
  | storing _ => 1
  | attempting _ _ .early => 1
  | attempting _ _ (.found ..) => 1
  | attempting _ _ (.answered _) => 2
  | attempting _ _ .sending => 3

/-! ### Laws -/

theorem rank_le (h : Handling) : h.rank ≤ 3 := by
  unfold rank; split <;> omega

theorem rank_finish {α : Type} (m : Message) (t : Attempt) (o : Outcome)
    (x : Except StoreError α × Desk) :
    ∃ v, Handling.ofProgress m t (Attempt.finish o x).1 = .finished v := by
  rcases x with ⟨x | x, d⟩
  · exact ⟨_, rfl⟩
  · exact ⟨_, rfl⟩

theorem step_lt (v : Venue σ) (h : Handling) (s : σ) :
    (∃ w, (h.step v s).1 = .finished w) ∨ (h.step v s).1.rank < h.rank := by
  unfold Handling.step
  split
  · next m hm =>
    right
    unfold Handling.outgoing? at hm
    split at hm
    · simp [Handling.receive, Handling.rank]
    · cases hm
  · next hm =>
    cases h with
    | finished w => left; exact ⟨w, rfl⟩
    | storing n =>
      left
      simp only [Handling.stepAtDesk, Handling.ofSave]
      split
      · exact ⟨_, rfl⟩
      · exact ⟨_, rfl⟩
    | attempting m t stage =>
      cases stage with
      | sending => simp [Handling.outgoing?] at hm
      | early => left; exact rank_finish m t _ _
      | found a c =>
        left
        simp only [Handling.stepAtDesk, Venue.atDesk, Attempt.step]
        split
        · exact ⟨_, rfl⟩
        · exact rank_finish m t _ _
      | answered a =>
        simp only [Handling.stepAtDesk, Venue.atDesk, Attempt.step]
        split
        · left; exact ⟨_, rfl⟩
        · left; exact ⟨_, rfl⟩
        · split
          · right; simp [Handling.ofProgress, Handling.rank]
          · left; exact ⟨_, rfl⟩

/-! ### Running to the end -/

/-- A handling taken as far as it gets: to its end, or to a message that is held back. -/
def runUnless (holds : Message → σ → Bool) (v : Venue σ) (h : Handling) (s : σ) : Handling × σ :=
  if h.isFinished then (h, s)
  else if h.outgoing?.any (holds · s) then (h, s)
  else if (h.step v s).1.rank < h.rank then runUnless holds v (h.step v s).1 (h.step v s).2
  else h.step v s
termination_by h.rank

/-- A handling taken to its end. -/
def run (v : Venue σ) (h : Handling) (s : σ) : Handling × σ :=
  h.runUnless (fun _ _ => false) v s

end Handling

end Parley
