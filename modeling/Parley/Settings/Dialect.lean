import Parley.Settings.Basic

/-!
# Reading settings from a tree of values

Settings are written in several formats. Each format has its own values and its own idea of what
counts as a text, a number or a section; that is its dialect. What a section holds is the same for
all of them, and so is that every setting may be left out.

* `Dialect.settings?` reads all settings from a value of a dialect.
-/

namespace Parley

/-- How values of a format are understood. -/
structure Dialect (τ : Type) where
  /-- A text. -/
  text? : τ → Option String
  /-- A number of 64 bits. -/
  word64? : τ → Option UInt64
  /-- A number of 32 bits. -/
  word32? : τ → Option UInt32
  /-- A truth value. -/
  flag? : τ → Option Bool
  /-- A form of log lines. -/
  format? : τ → Option LogFormat
  /-- A section: the values of the settings of some names, as far as they are there. -/
  parts? : List String → τ → Option (List (Option τ))

namespace Dialect

variable {τ : Type}

/-- The setting at a place of a section, or its default. -/
def setting? {α : Type} (values : List (Option τ)) (i : Nat) (read : τ → Option α) (default : α) :
    Option α :=
  match (values[i]?).join with
  | some v => read v
  | none => some default

/-- The settings of the worker's rounds. -/
def rounds? (d : Dialect τ) (v : τ) : Option RoundSettings := do
  let values ← d.parts? ["batch_size", "lease_duration_ms", "backoff_base_ms", "backoff_max_ms"] v
  let base : RoundSettings := {}
  let batchSize ← setting? values 0 d.word64? base.batchSize
  let leaseSpan ← setting? values 1 d.word64? base.leaseSpan
  let backoffBase ← setting? values 2 d.word64? base.backoffBase
  let backoffMax ← setting? values 3 d.word64? base.backoffMax
  some { batchSize, leaseSpan, backoffBase, backoffMax }

/-- How often messages are sent again. -/
def retry? (d : Dialect τ) (v : τ) : Option RetryPolicy := do
  let values ← d.parts? ["max_retries", "base_delay_ms", "max_delay_ms"] v
  let base : RetryPolicy := {}
  let maxRetries ← setting? values 0 d.word32? base.maxRetries
  let baseDelay ← setting? values 1 d.word64? base.baseDelay
  let maxDelay ← setting? values 2 d.word64? base.maxDelay
  some { maxRetries, baseDelay, maxDelay }

/-- Whether requests are agreed to without asking. -/
def autoAgree? (d : Dialect τ) (v : τ) : Option Bool := do
  let values ← d.parts? ["auto_agree_requested"] v
  setting? values 0 d.flag? false

/-- What is logged. -/
def logging? (d : Dialect τ) (v : τ) : Option LogSettings := do
  let values ← d.parts? ["level", "format"] v
  let base : LogSettings := {}
  let level ← setting? values 0 d.text? base.level
  let format ← setting? values 1 d.format? base.format
  some { level, format }

/-- All settings. -/
def settings? (d : Dialect τ) (v : τ) : Option Settings := do
  let values ← d.parts? ["participant_id", "state_machine", "retry", "provider", "logging"] v
  let base : Settings := {}
  let participantId ← setting? values 0 d.text? base.participantId
  let rounds ← setting? values 1 d.rounds? base.rounds
  let retry ← setting? values 2 d.retry? base.retry
  let autoAgree ← setting? values 3 d.autoAgree? base.autoAgree
  let logging ← setting? values 4 d.logging? base.logging
  some { participantId, rounds, retry, autoAgree, logging }

end Dialect

end Parley
