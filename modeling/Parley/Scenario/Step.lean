import Parley.Json.Printer
import Parley.Scenario.Timeline
import Parley.Settings.Assembly

/-!
# Steps of a scenario

A scenario is a list of steps. Each step sets something up, does something, or lets time pass, and
shows something or ends with an error; the steps after it are played in any case. Steps that let
things happen also report what happened: the messages sent, what the steps run by dispatchers showed,
and all records.

This module says what steps there are and what they show; `Parley.Scenario.Session` plays them.
-/

namespace Parley.Scenario

/-- What a handler of a scenario does with a negotiation. -/
inductive Treatment where
  /-- It ends like this. -/
  | ends (verdict : Verdict)
  /-- It edits the negotiation and stores it. -/
  | edits (edits : List TimedEdit)
  deriving DecidableEq, Repr

/-- The processor of a scenario: which negotiations get which treatment; the treatment of no
particular id is for all others. -/
structure ProcessorSpec where
  /-- The name of the handle. -/
  store : String
  /-- The state. -/
  state : State
  /-- How many negotiations are leased at a time. -/
  batchSize : Nat
  /-- The treatments by id. -/
  treatments : List (String × Treatment)
  /-- The treatment of all others. -/
  otherwise : Treatment
  deriving DecidableEq, Repr

/-- What a manager of a scenario runs. -/
inductive StationSpec where
  /-- A processor. -/
  | processor (spec : ProcessorSpec)
  /-- A stand-in with the tallies of its rounds. -/
  | scripted (name : String) (tallies : List Tally)
  deriving DecidableEq, Repr

/-- What is done about the answers to an attempt. -/
structure Callbacks where
  /-- When the message was taken. -/
  success : Option (List TimedEdit) := none
  /-- When it may be sent again. -/
  failure : Option (List TimedEdit) := none
  /-- When it was refused for good. -/
  fatal : Option (List TimedEdit) := none
  /-- When it was sent often enough. -/
  exhausted : Option (List TimedEdit) := none
  deriving DecidableEq, Repr

/-- What a context of a scenario is made of; what is not given comes from the settings, if there are
any. -/
structure ContextSpec where
  /-- The settings. -/
  settings : Option Settings := none
  /-- The name of the handle. -/
  store : Option String := none
  /-- The name of the dispatcher or registry. -/
  dispatcher : Option String := none
  /-- The participant. -/
  participantId : Option String := none
  /-- How often messages are sent again. -/
  policy : Option RetryPolicy := none
  /-- How many negotiations are leased at a time. -/
  batchSize : Option Nat := none
  /-- Requests are agreed to without asking. -/
  autoAgree : Option Bool := none
  /-- The clock on the wall is read. -/
  readsWall : Bool := false
  deriving DecidableEq, Repr

/-- A step of a scenario. -/
inductive Step where
  /-- A step about the clock or a ledger. -/
  | ledger (step : StoreStep)
  /-- A new ledger and a handle on it. -/
  | newStore (name holder : String) (span : Moment)
  /-- Another handle on the ledger of a handle. -/
  | shareStore (name holder source : String) (span : Option Moment)
  /-- A dispatcher. -/
  | dispatcher (name protocol : String) (latency : Moment)
  /-- An answer prepared. -/
  | enqueue (dispatcher : String) (answer : Answer) (times : Nat)
  /-- Steps for a dispatcher to run. -/
  | hook (dispatcher : String) (steps : List StoreStep)
  /-- A registry made, or dispatchers added to it. -/
  | registry (name : String) (dispatchers : List String) (timeout : Option Moment)
  /-- A message sent. -/
  | dispatch (via : String) (message : Except StepError Message)
  /-- The messages of a dispatcher. -/
  | sent (dispatcher : String)
  /-- A context. -/
  | context (name : String) (spec : ContextSpec)
  /-- A manager of one side. -/
  | manager (name context : String) (side : Side) (waits : WaitStrategy)
  /-- A manager of stations; without a way of waiting it has the usual one and notes nothing. -/
  | engine (name : String) (stations : List StationSpec) (waits : Option WaitStrategy)
  /-- Rounds of a manager. -/
  | tick (manager : String) (times : Nat)
  /-- A round of each of several managers, side by side. -/
  | tickAll (managers : List String)
  /-- The loop of a manager started. -/
  | start (manager : String)
  /-- The loop of a manager stopped. -/
  | stop (manager : String)
  /-- Whether the loop of a manager runs. -/
  | running (manager : String)
  /-- The counters of a manager. -/
  | stats (manager : String)
  /-- Time passes. -/
  | sleep (span : Moment)
  /-- A negotiation handled by a duty. -/
  | handle (context : String) (duty : Duty) (store : Option String) (target : Target)
  /-- A negotiation moved on by a handler that sends nothing. -/
  | advanceState (context : String) (store : Option String) (target : Target)
      (state : Except StepError State)
  /-- An attempt with an answer that is given. -/
  | attempt (store : String) (target : Target) (answer : Answer) (policy : RetryPolicy)
      (callbacks : Callbacks) (hook : List StoreStep)
  /-- A round of a processor. -/
  | process (spec : ProcessorSpec)
  /-- A step that could not be read. -/
  | unreadable (error : StepError)

/-- What happened since the last report. -/
structure Effects where
  /-- The messages sent, by the name of the dispatcher. -/
  sent : List (String × List Message)
  /-- What the steps run by dispatchers showed. -/
  hooked : List (Except StepError StoreValue)
  /-- The records of every ledger, by its name. -/
  ledgers : List (String × List Record)

/-- A callback that was called, or the sending. -/
inductive Call where
  /-- The message was sent. -/
  | dispatch
  /-- An answer led to this. -/
  | route (route : Route)

/-- What a step shows. -/
inductive Value where
  /-- What a step about the clock or a ledger shows. -/
  | ledger (value : StoreValue)
  /-- A text. -/
  | text (text : String)
  /-- A truth value. -/
  | flag (flag : Bool)
  /-- The protocols of a registry. -/
  | registry (protocol : String) (protocols : List String)
  /-- The answer to a message. -/
  | answer (effects : Effects) (answer : Answer)
  /-- The number of messages of a dispatcher and the last of them. -/
  | sent (count : Nat) (last : Option Message)
  /-- A context, and whether its clock shows a moment of our time. -/
  | context (context : Context) (clockSet : Bool)
  /-- A manager of one side. -/
  | manager (side : Side) (states : List State)
  /-- A manager of stations. -/
  | engine (name : String) (stations : List String)
  /-- Rounds of a manager: how many negotiations were acted on in each, if they were counted. -/
  | ticks (effects : Effects) (processed : Option (List Nat)) (counters : Counters)
      (notes : List WaitNote)
  /-- Rounds of several managers. -/
  | tickAll (effects : Effects) (processed : List Nat)
  /-- The counters of a manager. -/
  | counters (counters : Counters)
  /-- How a handler ended. -/
  | verdict (effects : Effects) (verdict : Verdict)
  /-- How an attempt ended, and what it called. -/
  | attempt (effects : Effects) (result : Except RetryError Outcome) (calls : List Call)
  /-- A round of a processor. -/
  | processed (effects : Effects) (name : String) (tally : Tally) (handed : List String)

/-- The edits of a callback with the cause put in where they name it. -/
def withCause (cause : String) (es : List TimedEdit) : List TimedEdit :=
  let put (s : String) : String :=
    String.ofList (Text.replace "$cause".toList cause.toList s.toList)
  es.map fun e => { e with edit := e.edit.mapDetail put }

/-- The refusal that an edit stands for in a callback. -/
def refusal : StepError → TransitionError
  | .transition e => e
  | _ => .illegal "" .initial .initial

/-- The reaction that makes some edits. -/
def react (es : List TimedEdit) (cause : String) : Reaction := fun now n =>
  (applyAll now (withCause cause es) n).mapError refusal

/-- The text that stands for free content. -/
def contentText (j : Json) : String := j.settled.text

/-- The cause that a route is told with. -/
def Route.cause : Route → String
  | .success content => contentText content
  | .failure cause | .exhausted cause => cause
  | .fatal f => f.detail

/-- The reactions of callbacks. -/
def Callbacks.reactions (c : Callbacks) : Reactions where
  onSuccess := c.success.map fun es content => react es (contentText content)
  onFailure := c.failure.map fun es cause => react es cause
  onFatal := c.fatal.map fun es f => react es f.detail
  onExhausted := c.exhausted.map fun es cause => react es cause

/-- There is a callback for a route. -/
def Callbacks.covers (c : Callbacks) : Route → Bool
  | .success _ => c.success.isSome
  | .failure _ => c.failure.isSome
  | .fatal _ => c.fatal.isSome
  | .exhausted _ => c.exhausted.isSome

/-- The treatment of a negotiation. -/
def ProcessorSpec.treatment (spec : ProcessorSpec) (id : String) : Treatment :=
  (lookup? id spec.treatments).getD spec.otherwise

/-- The handler of a processor. -/
def ProcessorSpec.handler (spec : ProcessorSpec) : Handler := fun _ now n =>
  match spec.treatment n.id with
  | .ends verdict => .finished verdict
  | .edits es =>
    match applyAll now es n with
    | .ok edited => .storing edited
    | .error _ => .finished (.failed (.other "edit refused"))

end Parley.Scenario
