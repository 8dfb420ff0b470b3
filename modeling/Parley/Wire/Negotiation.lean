import Parley.Negotiation.Basic
import Parley.Wire.Contract

/-!
# Negotiations as JSON

The stored form of a negotiation. Nothing about the values is checked when one is read back.

* `Negotiation.toJson` and `Negotiation.ofJson?` write and read a record.
-/

namespace Parley

open Wire

namespace Negotiation

/-- The names of the fields, in their order. -/
def fieldNames : List String :=
  ["id", "negotiation_type", "state", "state_count", "state_timestamp", "correlation_id",
    "counter_party_id", "counter_party_address", "protocol", "callback_address",
    "contract_offers", "contract_agreement", "error_detail", "created_at", "updated_at"]

/-- A negotiation as JSON. -/
def toJson (n : Negotiation) : Json :=
  .object
    [("id", .string n.id),
      ("negotiation_type", .string n.side.name),
      ("state", .string n.state.name),
      ("state_count", ofWord32 n.stateCount),
      ("state_timestamp", ofWord64 n.stateSince),
      ("correlation_id", ofOption .string n.correlationId),
      ("counter_party_id", .string n.counterPartyId),
      ("counter_party_address", .string n.counterPartyAddress),
      ("protocol", .string n.protocol),
      ("callback_address", ofOption .string n.callbackAddress),
      ("contract_offers", .array (n.offers.map Offer.toJson)),
      ("contract_agreement", ofOption Agreement.toJson n.agreement),
      ("error_detail", ofOption .string n.errorDetail),
      ("created_at", ofWord64 n.createdAt),
      ("updated_at", ofWord64 n.updatedAt)]

/-- The negotiation a value stands for. -/
def ofJson? : Reader Negotiation := fun j => do
  let f ← Fields.ofJson? fieldNames j
  let id ← f.required? 0 Json.text?
  let side ← f.required? 1 (name? Side.ofName?)
  let state ← f.required? 2 (name? State.ofName?)
  let stateCount ← f.required? 3 word32?
  let stateSince ← f.required? 4 word64?
  let correlationId ← f.optional? 5 Json.text?
  let counterPartyId ← f.required? 6 Json.text?
  let counterPartyAddress ← f.required? 7 Json.text?
  let protocol ← f.required? 8 Json.text?
  let callbackAddress ← f.optional? 9 Json.text?
  let offers ← f.required? 10 (list? Offer.ofJson?)
  let agreement ← f.optional? 11 Agreement.ofJson?
  let errorDetail ← f.optional? 12 Json.text?
  let createdAt ← f.required? 13 word64?
  let updatedAt ← f.required? 14 word64?
  some
    { id, side, state, stateCount, stateSince, correlationId, counterPartyId,
      counterPartyAddress, protocol, callbackAddress, offers, agreement, errorDetail, createdAt,
      updatedAt }

end Negotiation

end Parley
