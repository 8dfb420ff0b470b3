import Parley.Answer
import Parley.Ledger.Desk
import Parley.Pace.Retry

/-!
# Attempts

One attempt to get a message across for a negotiation: if the negotiation is due, the message is
sent once; then the stored negotiation is read again, and if it still is in the state in which the
message was sent, the answer is turned into a change of it, which is stored.

* `Attempt.isDue` says whether an attempt may be made yet.
* `Attempt.route` sorts an answer into what happens next, `Attempt.settle` is the changed negotiation.
* `Attempt.step` makes the next step of an attempt; sending itself is up to whoever runs it.
-/

namespace Parley

/-- Why an attempt failed. -/
inductive RetryError where
  /-- The ledger refused. -/
  | store (error : StoreError)
  /-- The change was refused. -/
  | transition (error : TransitionError)
  deriving DecidableEq, Repr

/-- The wording of an error. -/
def RetryError.message : RetryError → String
  | store e => "store error: " ++ e.message
  | transition e => "transition error: " ++ e.message

/-- What came of handling a negotiation. -/
inductive Outcome where
  /-- The negotiation was acted on. -/
  | processed
  /-- It was left alone until it is due. -/
  | delayed
  /-- There was nothing that could be done. -/
  | notProcessed
  deriving DecidableEq, Repr, Inhabited

/-- A change of a negotiation at a moment. -/
abbrev Reaction := Moment → Negotiation → Except TransitionError Negotiation

/-- What to do about an answer; where nothing is said, the negotiation is stored as it is. -/
structure Reactions where
  /-- The message was taken. -/
  onSuccess : Option (Json → Reaction) := none
  /-- The message was not taken, and may be sent again. -/
  onFailure : Option (String → Reaction) := none
  /-- The message was refused for good. -/
  onFatal : Option (Failure → Reaction) := none
  /-- The message was not taken, and was sent often enough. -/
  onExhausted : Option (String → Reaction) := none
  deriving Inhabited

/-- What an answer leads to. -/
inductive Route where
  /-- The message was taken. -/
  | success (content : Json)
  /-- It was not taken, for this reason, and may be sent again. -/
  | failure (cause : String)
  /-- It was refused for good. -/
  | fatal (failure : Failure)
  /-- It was not taken, for this reason, and was sent often enough. -/
  | exhausted (cause : String)
  deriving Inhabited

/-- An attempt to get a message across for a negotiation. -/
structure Attempt where
  /-- The negotiation as it was handed over. -/
  negotiation : Negotiation
  /-- The bounds of sending again. -/
  policy : RetryPolicy
  /-- What to do about the answer. -/
  reactions : Reactions
  deriving Inhabited

namespace Attempt

/-- The moment from which on the attempt may be made. -/
def dueAt (policy : RetryPolicy) (n : Negotiation) : Moment :=
  if n.isRetry then n.stateSince.later (policy.delayFor (n.stateCount - 1)) else 0

/-- The attempt may be made. -/
def isDue (t : Attempt) (now : Moment) : Bool := dueAt t.policy t.negotiation ≤ now

/-- What a failure that may pass leads to, by how often the state was entered. -/
def retryable (policy : RetryPolicy) (stateCount : UInt32) (cause : String) : Route :=
  if policy.isExhausted stateCount then .exhausted cause else .failure cause

/-- What an answer leads to, by how often the state was entered. -/
def route (policy : RetryPolicy) (stateCount : UInt32) : Answer → Route
  | .ok (.succeeded content) => .success content
  | .ok (.failed f) => if f.isFatal then .fatal f else retryable policy stateCount f.detail
  | .error e => retryable policy stateCount e.message

/-- The reaction to what an answer led to, if there is one. -/
def reaction? (r : Reactions) : Route → Option Reaction
  | .success content => r.onSuccess.map (· content)
  | .failure cause => r.onFailure.map (· cause)
  | .fatal f => r.onFatal.map (· f)
  | .exhausted cause => r.onExhausted.map (· cause)

/-- The stored negotiation `current` changed by the answer. -/
def settle (t : Attempt) (now : Moment) (answer : Answer) (current : Negotiation) :
    Except TransitionError Negotiation :=
  match reaction? t.reactions (route t.policy current.stateCount answer) with
  | some react => react now current
  | none => .ok current

end Attempt

/-- How far an attempt has come. -/
inductive Stage where
  /-- It is not due; the lease is to be given back. -/
  | early
  /-- The message is to be sent, or on its way. -/
  | sending
  /-- There is an answer. -/
  | answered (answer : Answer)
  /-- The stored negotiation was read and still is in the same state. -/
  | found (answer : Answer) (current : Negotiation)
  deriving Inhabited

/-- A stage, or the end of an attempt. -/
inductive Progress where
  /-- The attempt goes on. -/
  | going (stage : Stage)
  /-- The attempt is over. -/
  | finished (result : Except RetryError Outcome)
  deriving Inhabited

namespace Attempt

/-- The first stage. -/
def start (t : Attempt) (now : Moment) : Stage := if t.isDue now then .sending else .early

/-- The end of an attempt with a call of the ledger. -/
def finish {α : Type} (outcome : Outcome) : Except StoreError α × Desk → Progress × Desk
  | (.ok _, d) => (.finished (.ok outcome), d)
  | (.error e, d) => (.finished (.error (.store e)), d)

/-- The next step at a desk, at the moment `now` of the worker's clock. A message on its way stays so. -/
def step (t : Attempt) (now : Moment) (d : Desk) : Stage → Progress × Desk
  | .early => finish .delayed (d.release t.negotiation.id)
  | .sending => (.going .sending, d)
  | .answered answer =>
    match d.find t.negotiation.id with
    | (.error e, d) => (.finished (.error (.store e)), d)
    | (.ok none, d) => (.finished (.ok .processed), d)
    | (.ok (some current), d) =>
      if current.state = t.negotiation.state then (.going (.found answer current), d)
      else (.finished (.ok .processed), d)
  | .found answer current =>
    match t.settle now answer current with
    | .error e => (.finished (.error (.transition e)), d)
    | .ok changed => finish .processed (d.save changed)

end Attempt

end Parley
