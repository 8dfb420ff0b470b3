import Parley.Message
import Parley.Wire.Contract

/-!
# Messages as JSON

A message is an object with the fields of its kind and a field `type` with the kind's tag. As an
array it has the tag first. The reader of a message looks at the whole value before it knows the
kind, so nothing in it may be nested too deeply or out of the range of numbers, known or not.

* `Message.toJson` and `Message.ofJson?` write and read a message with its tag.
* `Message.ofUntagged?` reads one whose kind is known from elsewhere.
-/

namespace Parley

open Wire

/-- How deeply arrays and objects may be nested in a value that is read whole. -/
def Wire.depthLimit : Nat := 127

/-! ### Headers -/

/-- A header as JSON. -/
def Header.toJson (h : Header) : Json :=
  .object
    [("id", .string h.id),
      ("protocol", .string h.protocol),
      ("counter_party_address", .string h.address),
      ("process_id", .string h.processId)]

/-- The header a value stands for. -/
def Header.ofJson? : Reader Header := fun j => do
  let f ← Fields.ofJson? ["id", "protocol", "counter_party_address", "process_id"] j
  let id ← f.required? 0 Json.text?
  let protocol ← f.required? 1 Json.text?
  let address ← f.required? 2 Json.text?
  let processId ← f.required? 3 Json.text?
  some { id, protocol, address, processId }

/-! ### Kinds -/

/-- The kinds of messages. -/
inductive MessageKind where
  /-- A request. -/
  | request
  /-- An offer. -/
  | offer
  /-- An agreement. -/
  | agreement
  /-- An approval of an agreement. -/
  | approval
  /-- An event. -/
  | event
  /-- A termination. -/
  | termination
  deriving DecidableEq, Repr, Inhabited

namespace MessageKind

/-- The tag of a kind. -/
def tag : MessageKind → String
  | request => "Request"
  | offer => "Offer"
  | agreement => "Agreement"
  | approval => "AgreementApproval"
  | event => "Event"
  | termination => "Termination"

/-- All kinds. -/
def all : List MessageKind := [request, offer, agreement, approval, event, termination]

/-- The kind of that tag. -/
def ofTag? (s : String) : Option MessageKind := all.find? (·.tag == s)

theorem ofTag?_tag (k : MessageKind) : ofTag? k.tag = some k := by cases k <;> decide

end MessageKind

namespace Message

/-- The kind of a message. -/
def kind : Message → MessageKind
  | request .. => .request
  | offer .. => .offer
  | agreement .. => .agreement
  | approval .. => .approval
  | event .. => .event
  | termination .. => .termination

/-- The fields of a message, without its tag. -/
def members : Message → List (String × Json)
  | request h o callback =>
    [("header", h.toJson), ("contract_offer", o.toJson),
      ("callback_address", ofOption .string callback)]
  | offer h o => [("header", h.toJson), ("contract_offer", o.toJson)]
  | agreement h a => [("header", h.toJson), ("contract_agreement", a.toJson)]
  | approval h => [("header", h.toJson)]
  | event h kind policy =>
    [("header", h.toJson), ("event_type", .string kind.name),
      ("policy", ofOption Policy.toJson policy)]
  | termination h reason policy =>
    [("header", h.toJson), ("rejection_reason", ofOption .string reason),
      ("policy", ofOption Policy.toJson policy)]

/-- A message as JSON, with its tag. -/
def toJson (m : Message) : Json := .object (("type", .string m.kind.tag) :: m.members)

/-- The message of a kind that a value stands for. -/
def ofUntagged? (kind : MessageKind) : Reader Message := fun j =>
  match kind with
  | .request => do
    let f ← Fields.ofJson? ["header", "contract_offer", "callback_address"] j
    let h ← f.required? 0 Header.ofJson?
    let o ← f.required? 1 Offer.ofJson?
    let callback ← f.optional? 2 Json.text?
    some (request h o callback)
  | .offer => do
    let f ← Fields.ofJson? ["header", "contract_offer"] j
    let h ← f.required? 0 Header.ofJson?
    let o ← f.required? 1 Offer.ofJson?
    some (offer h o)
  | .agreement => do
    let f ← Fields.ofJson? ["header", "contract_agreement"] j
    let h ← f.required? 0 Header.ofJson?
    let a ← f.required? 1 Agreement.ofJson?
    some (agreement h a)
  | .approval => do
    let f ← Fields.ofJson? ["header"] j
    let h ← f.required? 0 Header.ofJson?
    some (approval h)
  | .event => do
    let f ← Fields.ofJson? ["header", "event_type", "policy"] j
    let h ← f.required? 0 Header.ofJson?
    let kind ← f.required? 1 (name? EventKind.ofName?)
    let policy ← f.optional? 2 Policy.ofJson?
    some (event h kind policy)
  | .termination => do
    let f ← Fields.ofJson? ["header", "rejection_reason", "policy"] j
    let h ← f.required? 0 Header.ofJson?
    let reason ← f.optional? 1 Json.text?
    let policy ← f.optional? 2 Policy.ofJson?
    some (termination h reason policy)

/-- The message a value with a tag stands for. -/
def ofJson? : Reader Message := fun j =>
  if j.inRange && j.depth ≤ depthLimit then
    match j with
    | .object members => do
      let tag ← (← onlyMember? "type" members).bind Json.text?
      ofUntagged? (← MessageKind.ofTag? tag) (.object members)
    | .array (.string tag :: items) => do
      ofUntagged? (← MessageKind.ofTag? tag) (.array items)
    | _ => none
  else none

end Message

end Parley
