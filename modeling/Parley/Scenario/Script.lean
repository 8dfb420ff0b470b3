import Parley.Scenario.Step
import Parley.Wire.Answer
import Parley.Wire.Message
import Parley.Wire.Negotiation
import Parley.Wire.Settings

/-!
# Scenarios written in JSON

A scenario is written as a list of objects, one for each step, with the word for the step in the field
`do`. A step with a field that is missing, or that does not hold what it must, is read as a step that
says so when it is played.

* `Script.step` reads a step, `Script.storeStep?` one about the clock or a ledger.
* `Script.required`, `Script.given` and `Script.decoded` read a field.
-/

namespace Parley.Scenario.Script

/-! ### Fields -/

/-- What reading comes to. -/
abbrev Read := Except StepError

/-- A field that must be there and be readable. -/
def required {α : Type} (j : Json) (field : String) (read : Json → Option α) : Read α :=
  match (j.member? field).bind read with
  | some a => .ok a
  | none => .error (.badInput field)

/-- A field that may be missing or null. -/
def given {α : Type} (j : Json) (field : String) (read : Json → Option α) : Read (Option α) :=
  match j.given? field with
  | none => .ok none
  | some v =>
    match read v with
    | some a => .ok (some a)
    | none => .error (.badInput field)

/-- A field that may be missing or null, with a value for that case. -/
def givenOr {α : Type} (j : Json) (field : String) (read : Json → Option α) (default : α) : Read α :=
  (given j field read).map (·.getD default)

/-- A field in one of the library's own forms. -/
def decoded {α : Type} (j : Json) (field : String) (read : Json → Option α) : Read α :=
  match read ((j.member? field).getD .null) with
  | some a => .ok a
  | none => .error .undecodable

/-- A text field that may be missing and is empty then. -/
def textOr (j : Json) (field : String) : Read String := givenOr j field Json.text? ""

/-- A double: a number or a word. -/
def double? : Json → Option Double
  | .natural n => some (Double.ofNat n)
  | .negative n => some (Double.ofDecimal true n 0)
  | .real x => some x
  | .string s => Double.ofText? s
  | _ => none

/-- A side. -/
def side? : Json → Option Side := Wire.name? Side.ofName?

/-- A state. -/
def state? : Json → Option State := Wire.name? State.ofName?

/-- The bounds of sending again. -/
def policyOf (j : Json) : Read RetryPolicy := do
  let base : RetryPolicy := {}
  let maxRetries ← givenOr j "max_retries" Wire.word32? base.maxRetries
  let baseDelay ← givenOr j "base_ms" Wire.word64? base.baseDelay
  let maxDelay ← givenOr j "max_ms" Wire.word64? base.maxDelay
  .ok { maxRetries, baseDelay, maxDelay }

/-- A way of waiting. -/
def strategyOf (j : Json) : Read WaitStrategy := do
  let kind ← required j "kind" Json.text?
  if kind = "fixed" then (required j "ms" Wire.word64?).map .fixed
  else if kind = "exponential" then
    let initial ← required j "initial_ms" Wire.word64?
    let ceiling ← required j "max_ms" Wire.word64?
    let multiplier ← givenOr j "multiplier" double? (Double.ofNat 2)
    .ok (.exponential initial ceiling multiplier 0)
  else if kind = "default" then .ok .standard
  else .error (.badInput "kind")

/-- The answer to a message. -/
def outcomeOf (j : Json) : Read Answer :=
  let text (field : String) : Read String := required j field Json.text?
  let has (field : String) : Bool := (j.member? field).isSome
  if has "success" then
    match Wire.content? ((j.member? "success").getD .null) with
    | some content => .ok (.ok (.succeeded content))
    | none => .error (.badInput "success")
  else if has "retry" then (text "retry").map fun s => .ok (Response.retry s)
  else if has "fatal" then (text "fatal").map fun s => .ok (Response.fatal s)
  else if has "failed" then (decoded j "failed" Failure.ofJson?).map fun f => .ok (.failed f)
  else if has "timeout" then (required j "timeout" Wire.word64?).map fun n => .error (.timeout n)
  else if has "transport" then (text "transport").map fun s => .error (.transport s)
  else if has "no_dispatcher" then (text "no_dispatcher").map fun s => .error (.noDispatcher s)
  else .error (.badInput "outcome")

/-! ### Edits and negotiations -/

/-- One edit of a negotiation. -/
def editOf (j : Json) : Read Edit := do
  let kind ← required j "do" Json.text?
  if kind = "transition" then (decoded j "to" state?).map fun s => .change (.move s)
  else if kind = "terminating" then
    (given j "detail" Json.text?).map fun d => .change (.terminate d)
  else if kind = "terminated" then (given j "detail" Json.text?).map fun d => .change (.giveUp d)
  else if kind = "correlate" then (required j "id" Json.text?).map fun s => .change (.correlate s)
  else if kind = "offer" then (decoded j "offer" Offer.ofJson?).map fun o => .change (.addOffer o)
  else if kind = "agreement" then
    (decoded j "agreement" Agreement.ofJson?).map fun a => .change (.setAgreement a)
  else if kind = "set" then
    let field ← required j "field" Json.text?
    let value ← given j "value" Json.text?
    if field = "protocol" then .ok (.protocol (value.getD ""))
    else if field = "counter_party_id" then .ok (.counterPartyId (value.getD ""))
    else if field = "counter_party_address" then .ok (.counterPartyAddress (value.getD ""))
    else if field = "callback_address" then .ok (.callbackAddress value)
    else .error (.badInput "field")
  else .error (.badInput "do")

/-- An edit at a moment; one that cannot be read says so when it is made. -/
def timedEditOf (j : Json) : TimedEdit :=
  match given j "at" Wire.word64? with
  | .ok at? =>
    match editOf j with
    | .ok edit => ⟨edit, at?⟩
    | .error e => ⟨.unreadable e, none⟩
  | .error e => ⟨.unreadable e, none⟩

/-- A list of edits that may be missing. -/
def editsOf (j : Json) (field : String) : Read (List TimedEdit) :=
  (givenOr j field Json.items? []).map (·.map timedEditOf)

/-- The negotiation that is described, before any edits. -/
def draftOf (j : Json) : Read Source := do
  let side ← decoded j "type" side?
  let state ← decoded j "state" state?
  let offer ← decoded j "offer" Offer.ofJson?
  let id ← given j "id" Json.text?
  let correlationId ← given j "correlation_id" Json.text?
  let counterPartyId ← textOr j "counter_party_id"
  let counterPartyAddress ← textOr j "counter_party_address"
  let protocol ← textOr j "protocol"
  let callbackAddress ← given j "callback_address" Json.text?
  let at? ← given j "at" Wire.word64?
  .ok (.draft
    { id, side, state, correlationId, counterPartyId, counterPartyAddress, protocol,
      callbackAddress, offer } at?)

/-- The description of a negotiation. -/
def descriptionOf (j : Json) : Description :=
  let source : Read Source :=
    match j.given? "json" with
    | some v =>
      match Negotiation.ofJson? v with
      | some n => .ok (.record n)
      | none => .error .undecodable
    | none => draftOf j
  match source, editsOf j "then" with
  | .ok source, .ok edits => ⟨source, edits⟩
  | .error e, _ => ⟨.unreadable e, []⟩
  | _, .error e => ⟨.unreadable e, []⟩

/-- The negotiation a step is about. -/
def targetOf (j : Json) : Read Target := do
  match j.given? "entity" with
  | some entity => .ok (.described (descriptionOf entity))
  | none => (required j "id" Json.text?).map .stored

/-! ### Steps -/

/-- An operation that can be made to fail. -/
def operation? (j : Json) : Option Operation := do
  let s ← j.text?
  if s = "find" then some .find
  else if s = "next" then some .next
  else if s = "save" then some .save
  else if s = "break_lease" then some .release
  else none

/-- A step about the clock or a ledger; none if the word names no such step. -/
def storeStepOf? (j : Json) (word : String) : Option (Read StoreStep) :=
  let store : Read String := required j "store" Json.text?
  let id : Read String := required j "id" Json.text?
  let state : Read State := decoded j "state" state?
  let limit : Read Nat := givenOr j "limit" Json.natural? 10
  if word = "advance" then some do .ok (.advance (← required j "ms" Wire.word64?))
  else if word = "set_clock" then some do .ok (.setClock (← required j "ms" Wire.word64?))
  else if word = "create" then some do
    .ok (.create (← store) (descriptionOf (← required j "entity" some)))
  else if word = "find" then some do .ok (.find (← store) (← id))
  else if word = "find_corr" then some do .ok (.findByCorrelation (← store) (← id))
  else if word = "next" then some do .ok (.next (← store) (← state) (← limit))
  else if word = "lease" then some do .ok (.leaseOf (← store) (← id))
  else if word = "save" || word = "modify" then some do
    .ok (.save (← store) (← targetOf j) (← editsOf j "then"))
  else if word = "break_lease" then some do .ok (.release (← store) (← targetOf j))
  else if word = "delete" then some do .ok (.delete (← store) (← id))
  else if word = "query" then some do .ok (.query (← store) (← state) (← limit))
  else if word = "len" then some do .ok (.size (← store))
  else if word = "dump" then some do .ok (.dump (← store))
  else if word = "fault" then some do
    .ok (.outage (← store) (← required j "method" operation?) (← givenOr j "times" Json.natural? 1)
      (← textOr j "message"))
  else none

/-- A step for a dispatcher to run. -/
def hookStepOf (j : Json) : StoreStep :=
  match (required j "do" Json.text?).bind fun word =>
      (storeStepOf? j word).getD (.error (.badInput "do")) with
  | .ok step => step
  | .error e => .unreadable e

/-- Steps for a dispatcher to run. -/
def hookOf (j : Json) (field : String) : Read (List StoreStep) :=
  (givenOr j field Json.items? []).map (·.map hookStepOf)

/-- What a handler does with a negotiation. -/
def treatmentOf (j : Json) : Read Treatment :=
  match j with
  | .string s =>
    if s = "processed" then .ok (.ends (.outcome .processed))
    else if s = "delayed" then .ok (.ends (.outcome .delayed))
    else if s = "not_processed" then .ok (.ends (.outcome .notProcessed))
    else if s = "panic" || s = "panic_string" || s = "panic_other" then .ok (.ends .brokeDown)
    else .error (.badInput "handler")
  | _ =>
    match j.given? "error" with
    | some (.string s) => .ok (.ends (.failed (.other s)))
    | _ =>
      match j.given? "then" with
      | some _ => (editsOf j "then").map .edits
      | none => .error (.badInput "handler")

/-- A processor. -/
def processorOf (j : Json) : Read ProcessorSpec := do
  let store ← required j "store" Json.text?
  let state ← decoded j "state" state?
  let batchSize ← givenOr j "batch" Json.natural? 10
  let members ← givenOr j "handler" Json.members? []
  let treatments ← members.mapM fun (id, v) => (treatmentOf v).map (id, ·)
  let otherwise := (lookup? "*" treatments).getD (.ends (.outcome .processed))
  .ok { store, state, batchSize, treatments, otherwise }

/-- The tally of a round. -/
def tallyOf (j : Json) : Read Tally := do
  let count (field : String) : Read Nat := givenOr j field Json.natural? 0
  .ok ⟨← count "processed", ← count "delayed", ← count "not_processed", ← count "errors",
    ← count "panics"⟩

/-- What a manager runs. -/
def stationOf (j : Json) : Read StationSpec := do
  match j.given? "script" with
  | some script =>
    let name ← textOr j "name"
    match script.items? with
    | some items => .ok (.scripted name (← items.mapM tallyOf))
    | none => .error (.badInput "script")
  | none => (processorOf j).map .processor

/-- The settings of a step, if it has any. -/
def settingsOf (j : Json) : Read (Option Settings) :=
  match j.given? "config" with
  | some v =>
    match Settings.ofJson? v with
    | some s => .ok (some s)
    | none => .error .undecodable
  | none => .ok none

/-- A context. -/
def contextOf (j : Json) : Read ContextSpec := do
  let settings ← settingsOf j
  let store ← given j "store" Json.text?
  let dispatcher ← given j "dispatcher" Json.text?
  let participantId ← given j "participant_id" Json.text?
  let policy ← match j.given? "policy" with
    | some v => (policyOf v).map some
    | none => .ok none
  let batchSize ← given j "batch_size" Json.natural?
  let autoAgree ← given j "auto_agree" Json.bool?
  let readsWall ← givenOr j "no_clock" Json.bool? false
  .ok { settings, store, dispatcher, participantId, policy, batchSize, autoAgree, readsWall }

/-- The duty of a name. -/
def duty? (j : Json) : Option Duty := do
  match ← j.text? with
  | "provider.offering" => some .sendOffer
  | "provider.requested" => some .takeRequest
  | "provider.agreeing" => some .sendAgreement
  | "provider.verified" => some .beginFinalizing
  | "provider.finalizing" => some .sendFinalization
  | "provider.terminating" => some .sendTermination
  | "consumer.initial" => some .beginRequesting
  | "consumer.requesting" => some .sendRequest
  | "consumer.accepting" => some .sendAcceptance
  | "consumer.agreed" => some .beginVerifying
  | "consumer.verifying" => some .sendApproval
  | "consumer.terminating" => some .sendTermination
  | _ => none

/-- The callbacks of an attempt. -/
def callbacksOf (j : Json) : Read Callbacks := do
  let v := (j.given? "callbacks").getD (.object [])
  let edits (field : String) : Read (Option (List TimedEdit)) :=
    match v.given? field with
    | some _ => (editsOf v field).map some
    | none => .ok none
  .ok ⟨← edits "success", ← edits "failure", ← edits "fatal", ← edits "exhausted"⟩

/-- Any other step. -/
def stepOfWord (j : Json) (word : String) : Read Step := do
  let text (field : String) : Read String := required j field Json.text?
  let times : Read Nat := givenOr j "times" Json.natural? 1
  match word with
  | "store" =>
    let name ← text "name"
    let holder ← text "holder"
    match ← given j "of" Json.text? with
    | some source => .ok (.shareStore name holder source (← given j "lease_ms" Wire.word64?))
    | none =>
      match ← settingsOf j with
      | some s => .ok (.newStore name holder s.rounds.leaseSpan)
      | none => .ok (.newStore name holder (← givenOr j "lease_ms" Wire.word64? Handle.defaultSpan))
  | "dispatcher" =>
    .ok (.dispatcher (← text "name") (← text "protocol") (← givenOr j "latency_ms" Wire.word64? 0))
  | "enqueue" =>
    .ok (.enqueue (← text "dispatcher") (← outcomeOf (← required j "outcome" some)) (← times))
  | "hook" => .ok (.hook (← text "dispatcher") (← hookOf j "steps"))
  | "registry" =>
    let names ← required j "dispatchers" (Wire.list? Json.text?)
    .ok (.registry (← text "name") names (← given j "timeout_ms" Wire.word64?))
  | "dispatch" => .ok (.dispatch (← text "via") (decoded j "message" Message.ofJson?))
  | "sent" => .ok (.sent (← text "dispatcher"))
  | "context" => .ok (.context (← text "name") (← contextOf j))
  | "manager" =>
    let name ← text "name"
    let context ← text "context"
    let side ← decoded j "side" side?
    match ← settingsOf j with
    | some s => .ok (.manager name context side s.waitStrategy)
    | none => .ok (.manager name context side (← strategyOf (← required j "wait" some)))
  | "engine" =>
    let name ← text "name"
    let stations ← (← required j "processors" Json.items?).mapM stationOf
    match j.given? "wait" with
    | some w => .ok (.engine name stations (some (← strategyOf w)))
    | none => .ok (.engine name stations none)
  | "tick" => .ok (.tick (← text "manager") (← times))
  | "tick_all" => .ok (.tickAll (← required j "managers" (Wire.list? Json.text?)))
  | "start" => .ok (.start (← text "manager"))
  | "stop" => .ok (.stop (← text "manager"))
  | "running" => .ok (.running (← text "manager"))
  | "stats" => .ok (.stats (← text "manager"))
  | "sleep" => .ok (.sleep (← required j "ms" Wire.word64?))
  | "handler" =>
    .ok (.handle (← text "context") (← required j "handler" duty?) (← given j "store" Json.text?)
      (← targetOf j))
  | "advance_state" =>
    .ok (.advanceState (← text "context") (← given j "store" Json.text?) (← targetOf j)
      (decoded j "to" state?))
  | "retry_process" =>
    .ok (.attempt (← text "store") (← targetOf j) (← outcomeOf (← required j "outcome" some))
      (← policyOf ((j.given? "policy").getD (.object []))) (← callbacksOf j) (← hookOf j "hook"))
  | "processor" => (processorOf j).map .process
  | _ => .error (.badInput "do")

/-- A step. -/
def stepOf (j : Json) : Step :=
  let step : Read Step := do
    let word ← required j "do" Json.text?
    match storeStepOf? j word with
    | some step => step.map .ledger
    | none => stepOfWord j word
  match step with
  | .ok step => step
  | .error e => .unreadable e

end Parley.Scenario.Script
