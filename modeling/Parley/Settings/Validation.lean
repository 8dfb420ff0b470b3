import Parley.Settings.Basic
import Parley.Text.Blank
import Parley.Text.Digits
import Parley.Text.Lower

/-!
# Valid settings

What settings must be like for a worker to run with them. All that is wrong is reported at once, in
one order.

* `Settings.violations` lists what is wrong, `Settings.validate` is the text of the whole report.
-/

namespace Parley

/-- Something that is wrong with settings. -/
inductive Violation where
  /-- The participant is blank. -/
  | blankParticipant
  /-- Batches would be empty. -/
  | emptyBatches
  /-- Leases would not hold. -/
  | noLeaseSpan
  /-- The first wait is longer than the longest. -/
  | backoffOrder (longest : Moment)
  /-- The first delay is longer than the longest. -/
  | retryOrder (longest : Moment)
  /-- The level is none of the known ones. -/
  | unknownLevel (level : String)
  deriving DecidableEq, Repr

/-- The levels that can be set. -/
def LogSettings.levels : List String := ["trace", "debug", "info", "warn", "error"]

namespace Violation

/-- The setting that is wrong. -/
def setting : Violation → String
  | blankParticipant => "participant_id"
  | emptyBatches => "state_machine.batch_size"
  | noLeaseSpan => "state_machine.lease_duration_ms"
  | backoffOrder _ => "state_machine.backoff_base_ms"
  | retryOrder _ => "retry.base_delay_ms"
  | unknownLevel _ => "logging.level"

/-- What is wrong with it. -/
def complaint : Violation → String
  | blankParticipant => "must not be empty"
  | emptyBatches => "must be greater than 0"
  | noLeaseSpan => "must be greater than 0"
  | backoffOrder longest => "must be <= backoff_max_ms (" ++ Text.natText longest.toNat ++ ")"
  | retryOrder longest => "must be <= max_delay_ms (" ++ Text.natText longest.toNat ++ ")"
  | unknownLevel level =>
    "invalid log level '" ++ level ++ "', must be one of: " ++
      Text.joinStrings ", " LogSettings.levels

/-- The entry in the report. -/
def text (v : Violation) : String := v.setting ++ ": " ++ v.complaint

end Violation

/-- The level is a known one, in any case of its letters. -/
def LogSettings.hasKnownLevel (l : LogSettings) : Bool :=
  levels.contains (Text.lowercaseText l.level)

namespace Settings

/-- All that is wrong with settings, in the order in which it is reported. -/
def violations (s : Settings) : List Violation :=
  (if (Text.trim s.participantId.toList).isEmpty then [.blankParticipant] else []) ++
  (if s.rounds.batchSize = 0 then [.emptyBatches] else []) ++
  (if s.rounds.leaseSpan = 0 then [.noLeaseSpan] else []) ++
  (if s.rounds.backoffMax < s.rounds.backoffBase then [.backoffOrder s.rounds.backoffMax] else []) ++
  (if s.retry.maxDelay < s.retry.baseDelay then [.retryOrder s.retry.maxDelay] else []) ++
  (if s.logging.hasKnownLevel then [] else [.unknownLevel s.logging.level])

/-- The report on some violations. -/
def report (vs : List Violation) : String := Text.joinStrings "; " (vs.map Violation.text)

/-- Nothing if the settings are valid, else the report on what is wrong. -/
def validate (s : Settings) : Except String Unit :=
  match s.violations with
  | [] => .ok ()
  | vs => .error (report vs)

end Settings

end Parley
