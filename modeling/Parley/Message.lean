import Parley.Contract

/-!
# Messages between the two sides

Every message a side sends: a header with the addressing, and what the kind of message carries.

* `Header.make` checks the addressing.
* `Message.kindName` is the name of a message's kind in failure details.
-/

namespace Parley

/-- The addressing of a message. -/
structure Header where
  /-- The id of the message. -/
  id : String
  /-- The protocol it is sent by. -/
  protocol : String
  /-- Where it is sent to. -/
  address : String
  /-- The process of the receiver that it belongs to. -/
  processId : String
  deriving DecidableEq, Repr, Inhabited

/-- Why a message cannot be addressed: a field that must be given is empty. -/
inductive MessageError where
  /-- The field of that name is empty. -/
  | missingField (field : String)
  deriving DecidableEq, Repr

/-- The wording of an error. -/
def MessageError.message : MessageError → String
  | missingField field => "message is missing required field: " ++ field

/-- The header itself if it addresses its message: the first field that is empty is reported. -/
def Header.make (h : Header) : Except MessageError Header :=
  if h.protocol.isEmpty then .error (.missingField "protocol")
  else if h.address.isEmpty then .error (.missingField "counter_party_address")
  else if h.processId.isEmpty then .error (.missingField "process_id")
  else .ok h

/-- What an event message reports. -/
inductive EventKind where
  /-- The consumer accepted the offer. -/
  | accepted
  /-- The provider closed the contract. -/
  | finalized
  deriving DecidableEq, Repr, Inhabited

/-- The name of an event kind. -/
def EventKind.name : EventKind → String
  | accepted => "ACCEPTED"
  | finalized => "FINALIZED"

/-- The event kind of that name. -/
def EventKind.ofName? (s : String) : Option EventKind :=
  [EventKind.accepted, .finalized].find? (·.name == s)

/-- A message to the other side. -/
inductive Message where
  /-- The consumer asks for a contract. -/
  | request (header : Header) (offer : Offer) (callback : Option String)
  /-- The provider makes an offer. -/
  | offer (header : Header) (offer : Offer)
  /-- The provider sends the agreement. -/
  | agreement (header : Header) (agreement : Agreement)
  /-- The consumer approves the agreement. -/
  | approval (header : Header)
  /-- One side reports an event. -/
  | event (header : Header) (kind : EventKind) (policy : Option Policy)
  /-- One side gives the negotiation up. -/
  | termination (header : Header) (reason : Option String) (policy : Option Policy)
  deriving DecidableEq, Repr, Inhabited

namespace Message

/-- The addressing of a message. -/
def header : Message → Header
  | request h _ _ | offer h _ | agreement h _ | approval h | event h _ _ | termination h _ _ => h

/-- The protocol a message is sent by. -/
def protocol (m : Message) : String := m.header.protocol

/-- The name of a message's kind. -/
def kindName : Message → String
  | request .. => "ContractRequestMessage"
  | offer .. => "ContractOfferMessage"
  | agreement .. => "ContractAgreementMessage"
  | approval .. => "ContractAgreementApprovalMessage"
  | event .. => "ContractNegotiationEventMessage"
  | termination .. => "ContractNegotiationTerminationMessage"

/-- The version of the protocol that the messages belong to. -/
def protocolVersion : String := "1.0"

end Message

end Parley
