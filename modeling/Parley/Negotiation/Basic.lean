import Parley.Message
import Parley.Moment
import Parley.Negotiation.State

/-!
# Negotiations

The record of one contract negotiation, how it begins, and the changes it goes through.

* `Draft.open?` begins a negotiation, if what it needs is there.
* `Negotiation.moveTo` is the only way to another state; entering the same state again counts an
  attempt, entering another one starts counting anew.
* `Change.apply` is one change of any kind, at a moment.
-/

namespace Parley

/-- The record of one contract negotiation. -/
structure Negotiation where
  /-- The id on this side. -/
  id : String
  /-- The side this record belongs to. -/
  side : Side
  /-- The state. -/
  state : State
  /-- How many times the state was entered in a row. -/
  stateCount : UInt32
  /-- When the state was entered last. -/
  stateSince : Moment
  /-- The id on the other side, once known. -/
  correlationId : Option String
  /-- The other participant. -/
  counterPartyId : String
  /-- Where the other participant listens. -/
  counterPartyAddress : String
  /-- The protocol spoken. -/
  protocol : String
  /-- Where this side listens. -/
  callbackAddress : Option String
  /-- Every offer made, oldest first. -/
  offers : List Offer
  /-- The agreement, once there is one. -/
  agreement : Option Agreement
  /-- Why the negotiation was given up, or what went wrong. -/
  errorDetail : Option String
  /-- When the record was created. -/
  createdAt : Moment
  /-- When the record last moved. -/
  updatedAt : Moment
  deriving DecidableEq, Repr, Inhabited

/-- Why a change was refused. -/
inductive TransitionError where
  /-- The table of moves does not have this one. -/
  | illegal (id : String) (source target : State)
  /-- Another id of the other side is known already. -/
  | correlationIdImmutable (id existing : String)
  deriving DecidableEq, Repr

/-- The wording of an error. -/
def TransitionError.message : TransitionError → String
  | illegal id source target =>
    "negotiation " ++ id ++ ": illegal transition " ++ source.name ++ " -> " ++ target.name
  | correlationIdImmutable id existing =>
    "negotiation " ++ id ++ ": correlation id already set to " ++ existing

/-! ### Beginning -/

/-- What is known of a negotiation before it begins. -/
structure Draft where
  /-- The id to use; none or an empty one asks for a fresh one. -/
  id : Option String
  /-- The side. -/
  side : Side
  /-- The state to begin in. -/
  state : State
  /-- The id on the other side; an empty one is none. -/
  correlationId : Option String
  /-- The other participant. -/
  counterPartyId : String
  /-- Where the other participant listens. -/
  counterPartyAddress : String
  /-- The protocol spoken. -/
  protocol : String
  /-- Where this side listens. -/
  callbackAddress : Option String
  /-- The first offer. -/
  offer : Offer
  deriving DecidableEq, Repr, Inhabited

/-- Why a negotiation cannot begin: a field that must be given is empty. -/
inductive DraftError where
  /-- The field of that name is empty. -/
  | missingField (field : String)
  deriving DecidableEq, Repr

/-- The wording of an error. -/
def DraftError.message : DraftError → String
  | missingField field => "negotiation is missing required field: " ++ field

/-- The negotiation that begins with a draft at a moment. `freshId` is used if the draft names no
id; the first field that must be given and is empty is reported. -/
def Draft.open? (d : Draft) (freshId : String) (now : Moment) : Except DraftError Negotiation :=
  if d.counterPartyId.isEmpty then .error (.missingField "counter_party_id")
  else if d.counterPartyAddress.isEmpty then .error (.missingField "counter_party_address")
  else if d.protocol.isEmpty then .error (.missingField "protocol")
  else if d.offer.id.isEmpty then .error (.missingField "offer.id")
  else .ok
    { id := (d.id.filter (!·.isEmpty)).getD freshId
      side := d.side
      state := d.state
      stateCount := 1
      stateSince := now
      correlationId := d.correlationId.filter (!·.isEmpty)
      counterPartyId := d.counterPartyId
      counterPartyAddress := d.counterPartyAddress
      protocol := d.protocol
      callbackAddress := d.callbackAddress
      offers := [d.offer]
      agreement := none
      errorDetail := none
      createdAt := now
      updatedAt := now }

namespace Negotiation

/-! ### Views -/

/-- The id the other side knows the negotiation by; until it is told, that is the id on this side. -/
def processId (n : Negotiation) : String := n.correlationId.getD n.id

/-- The offer made last. -/
def lastOffer? (n : Negotiation) : Option Offer := n.offers.getLast?

/-- The state was entered more than once in a row. -/
def isRetry (n : Negotiation) : Bool := 1 < n.stateCount

/-- The header of a message about the negotiation. -/
def header (n : Negotiation) (messageId : String) : Except MessageError Header :=
  Header.make ⟨messageId, n.protocol, n.counterPartyAddress, n.processId⟩

/-! ### Changes -/

/-- The negotiation moved to a state at a moment. -/
def moveTo (target : State) (now : Moment) (n : Negotiation) :
    Except TransitionError Negotiation :=
  if n.state.canMoveTo target then
    .ok { n with
      state := target
      stateCount := if target = n.state then n.stateCount + 1 else 1
      stateSince := now
      updatedAt := now }
  else .error (.illegal n.id n.state target)

/-- The negotiation with a detail, if one is given. -/
def withDetail (detail : Option String) (n : Negotiation) : Negotiation :=
  match detail with
  | some _ => { n with errorDetail := detail }
  | none => n

/-- The negotiation moved to the state in which it is being terminated. -/
def terminate (detail : Option String) (now : Moment) (n : Negotiation) :
    Except TransitionError Negotiation :=
  (n.moveTo .terminating now).map (withDetail detail)

/-- The negotiation moved to the state in which it is over without a contract. -/
def giveUp (detail : Option String) (now : Moment) (n : Negotiation) :
    Except TransitionError Negotiation :=
  (n.moveTo .terminated now).map (withDetail detail)

/-- The negotiation with the id the other side uses, which may be told again but not changed. -/
def correlate (id : String) (n : Negotiation) : Except TransitionError Negotiation :=
  match n.correlationId with
  | some existing =>
    if existing = id then .ok n else .error (.correlationIdImmutable n.id existing)
  | none => .ok { n with correlationId := some id }

/-- The negotiation with one more offer. -/
def addOffer (o : Offer) (n : Negotiation) : Negotiation := { n with offers := n.offers ++ [o] }

/-- The negotiation with an agreement. -/
def setAgreement (a : Agreement) (n : Negotiation) : Negotiation := { n with agreement := some a }

end Negotiation

/-- A change of a negotiation. -/
inductive Change where
  /-- Move to a state. -/
  | move (target : State)
  /-- Begin to terminate, with a detail if there is one. -/
  | terminate (detail : Option String)
  /-- End without a contract, with a detail if there is one. -/
  | giveUp (detail : Option String)
  /-- Learn the id the other side uses. -/
  | correlate (id : String)
  /-- Take one more offer. -/
  | addOffer (offer : Offer)
  /-- Take an agreement. -/
  | setAgreement (agreement : Agreement)
  deriving DecidableEq, Repr

/-- The negotiation after a change at a moment. -/
def Change.apply (now : Moment) (n : Negotiation) : Change → Except TransitionError Negotiation
  | move target => n.moveTo target now
  | terminate detail => n.terminate detail now
  | giveUp detail => n.giveUp detail now
  | correlate id => n.correlate id
  | addOffer offer => .ok (n.addOffer offer)
  | setAgreement agreement => .ok (n.setAgreement agreement)

end Parley
