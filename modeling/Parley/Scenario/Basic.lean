import Parley.Engine.Assembly
import Parley.Engine.Manager

/-!
# Scenarios: negotiations to begin with, and edits

A scenario plays a sequence of steps against named ledgers, dispatchers and managers. Here are the
negotiations that steps speak of, the edits they make on them, and the errors steps end with.

* `Edit.apply` makes one edit, `Edit.applyAll` a list of them up to the first that fails.
* `Source.build` is the negotiation that a step describes.
-/

namespace Parley.Scenario

/-- Why a step did not do what it asks for. -/
inductive StepError where
  /-- A field is missing, or does not hold what it must. -/
  | badInput (field : String)
  /-- A value could not be read. -/
  | undecodable
  /-- There is no negotiation of the id. -/
  | noEntity
  /-- The negotiation cannot begin. -/
  | draft (error : DraftError)
  /-- A change was refused. -/
  | transition (error : TransitionError)
  /-- The ledger refused. -/
  | store (error : StoreError)
  /-- An attempt failed. -/
  | retry (error : RetryError)
  /-- A handler failed. -/
  | handling (error : HandlingError)
  /-- A context cannot be built. -/
  | assembly (error : AssemblyError)
  /-- A manager cannot be made or started. -/
  | manager (error : ManagerError)
  deriving DecidableEq, Repr

/-- An edit of a negotiation. -/
inductive Edit where
  /-- A change that negotiations know of. -/
  | change (change : Change)
  /-- Another protocol. -/
  | protocol (value : String)
  /-- Another participant on the other side. -/
  | counterPartyId (value : String)
  /-- Another address of the other side. -/
  | counterPartyAddress (value : String)
  /-- Another address of this side. -/
  | callbackAddress (value : Option String)
  /-- An edit that could not be read. -/
  | unreadable (error : StepError)
  deriving DecidableEq, Repr

/-- An edit at a moment, or at the moment the clock shows. -/
structure TimedEdit where
  /-- The edit. -/
  edit : Edit
  /-- When, if not at the moment the clock shows. -/
  at? : Option Moment := none
  deriving DecidableEq, Repr

namespace Edit

/-- The negotiation after an edit at a moment. -/
def apply (now : Moment) (n : Negotiation) : Edit → Except StepError Negotiation
  | change c => (c.apply now n).mapError .transition
  | protocol value => .ok { n with protocol := value }
  | counterPartyId value => .ok { n with counterPartyId := value }
  | counterPartyAddress value => .ok { n with counterPartyAddress := value }
  | callbackAddress value => .ok { n with callbackAddress := value }
  | unreadable e => .error e

/-- The edit with a word replaced in its detail, if it has one. -/
def mapDetail (f : String → String) : Edit → Edit
  | change (.terminate detail) => change (.terminate (detail.map f))
  | change (.giveUp detail) => change (.giveUp (detail.map f))
  | other => other

end Edit

/-- The negotiation after an edit; `now` is what the clock shows. -/
def TimedEdit.apply (now : Moment) (n : Negotiation) (e : TimedEdit) : Except StepError Negotiation :=
  e.edit.apply (e.at?.getD now) n

/-- The negotiation after all edits, or the error of the first one that fails. -/
def applyAll (now : Moment) (es : List TimedEdit) (n : Negotiation) :
    Except StepError Negotiation :=
  es.foldlM (TimedEdit.apply now) n

/-- A description of a negotiation. -/
inductive Source where
  /-- A draft to begin at a moment, if not at the one the clock shows. -/
  | draft (draft : Draft) (at? : Option Moment)
  /-- A negotiation as it is. -/
  | record (negotiation : Negotiation)
  /-- A description that could not be read. -/
  | unreadable (error : StepError)
  deriving DecidableEq, Repr

/-- A description of a negotiation and edits of it. -/
structure Description where
  /-- The negotiation to begin with. -/
  source : Source
  /-- The edits made on it. -/
  edits : List TimedEdit := []
  deriving DecidableEq, Repr

/-- The negotiation of a description, with a fresh id if it needs one. -/
def Description.build (d : Description) (freshId : String) (now : Moment) :
    Except StepError Negotiation := do
  let n ← match d.source with
    | .draft draft at? => (draft.open? freshId (at?.getD now)).mapError .draft
    | .record n => .ok n
    | .unreadable e => .error e
  applyAll now d.edits n

end Parley.Scenario
