import Parley.Pace.Retry
import Parley.Pace.Wait

/-!
# Settings

What can be set for a worker, with the value of each setting when nothing is said about it.

* `Settings.waitStrategy` is how the worker waits, `Settings.retry` how often it sends again.
-/

namespace Parley

/-- The form of log lines. -/
inductive LogFormat where
  /-- One JSON object a line. -/
  | json
  /-- Text for people. -/
  | pretty
  deriving DecidableEq, Repr, Inhabited

namespace LogFormat

/-- The name of a form in settings. -/
def name : LogFormat → String
  | json => "json"
  | pretty => "pretty"

/-- The form of that name. -/
def ofName? (s : String) : Option LogFormat := [json, pretty].find? (·.name == s)

theorem ofName?_name (f : LogFormat) : ofName? f.name = some f := by cases f <;> decide

end LogFormat

/-- The settings of the worker's rounds. -/
structure RoundSettings where
  /-- How many negotiations of a state are leased at a time. -/
  batchSize : UInt64 := 5
  /-- How long leases hold. -/
  leaseSpan : Moment := 60000
  /-- The first wait. -/
  backoffBase : Moment := 100
  /-- The longest wait. -/
  backoffMax : Moment := 5000
  deriving DecidableEq, Repr, Inhabited

/-- The settings of what is logged. -/
structure LogSettings where
  /-- What is logged: a level, or a list of levels for parts of the program. -/
  level : String := "info"
  /-- The form of log lines. -/
  format : LogFormat := .json
  deriving DecidableEq, Repr, Inhabited

/-- All settings. -/
structure Settings where
  /-- The participant the worker acts for. -/
  participantId : String := ""
  /-- The worker's rounds. -/
  rounds : RoundSettings := {}
  /-- How often messages are sent again. -/
  retry : RetryPolicy := {}
  /-- Requests are agreed to without asking. -/
  autoAgree : Bool := false
  /-- What is logged. -/
  logging : LogSettings := {}
  deriving DecidableEq, Repr, Inhabited

/-- How a worker with these settings waits. -/
def Settings.waitStrategy (s : Settings) : WaitStrategy :=
  .exponential s.rounds.backoffBase s.rounds.backoffMax (Double.ofNat 2) 0

end Parley
