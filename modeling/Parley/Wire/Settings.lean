import Parley.Settings.Dialect
import Parley.Wire.Fields

/-!
# Settings as JSON

* `Settings.toJson` and `Settings.ofJson?` write and read settings.
-/

namespace Parley

open Wire

/-- How JSON values are understood in settings: strictly, with a section in either form of a record. -/
def Wire.settingsDialect : Dialect Json where
  text? := Json.text?
  word64? := word64?
  word32? := word32?
  flag? := Json.bool?
  format? := name? LogFormat.ofName?
  parts? names j := (Fields.ofJson? names j).map (·.values)

namespace Settings

/-- Settings as JSON. -/
def toJson (s : Settings) : Json :=
  .object
    [("participant_id", .string s.participantId),
      ("state_machine", .object
        [("batch_size", ofWord64 s.rounds.batchSize),
          ("lease_duration_ms", ofWord64 s.rounds.leaseSpan),
          ("backoff_base_ms", ofWord64 s.rounds.backoffBase),
          ("backoff_max_ms", ofWord64 s.rounds.backoffMax)]),
      ("retry", .object
        [("max_retries", ofWord32 s.retry.maxRetries),
          ("base_delay_ms", ofWord64 s.retry.baseDelay),
          ("max_delay_ms", ofWord64 s.retry.maxDelay)]),
      ("provider", .object [("auto_agree_requested", .bool s.autoAgree)]),
      ("logging", .object
        [("level", .string s.logging.level), ("format", .string s.logging.format.name)])]

/-- The settings a value stands for. -/
def ofJson? : Reader Settings := settingsDialect.settings?

end Settings

end Parley
