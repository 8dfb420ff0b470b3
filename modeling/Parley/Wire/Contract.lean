import Parley.Contract
import Parley.Wire.Fields

/-!
# Offers, policies and agreements as JSON

Each record has a writer, `toJson`, and a reader, `ofJson?`, which takes both forms of a record.
-/

namespace Parley

open Wire

/-! ### Rules -/

/-- A rule as JSON. -/
def Rule.toJson (r : Rule) : Json :=
  .object [("action", .string r.action), ("constraints", ofTexts r.constraints)]

/-- The rule a value stands for. -/
def Rule.ofJson? : Reader Rule := fun j => do
  let f ← Fields.ofJson? ["action", "constraints"] j
  let action ← f.required? 0 Json.text?
  let constraints ← f.defaulted? 1 (list? Json.text?) []
  some { action, constraints }

/-! ### Policies -/

/-- A policy as JSON. -/
def Policy.toJson (p : Policy) : Json :=
  .object
    [("target", ofOption .string p.target),
      ("assigner", ofOption .string p.assigner),
      ("assignee", ofOption .string p.assignee),
      ("permissions", .array (p.permissions.map Rule.toJson)),
      ("prohibitions", .array (p.prohibitions.map Rule.toJson)),
      ("obligations", .array (p.obligations.map Rule.toJson))]

/-- The policy a value stands for. -/
def Policy.ofJson? : Reader Policy := fun j => do
  let f ← Fields.ofJson?
    ["target", "assigner", "assignee", "permissions", "prohibitions", "obligations"] j
  let target ← f.optional? 0 Json.text?
  let assigner ← f.optional? 1 Json.text?
  let assignee ← f.optional? 2 Json.text?
  let permissions ← f.defaulted? 3 (list? Rule.ofJson?) []
  let prohibitions ← f.defaulted? 4 (list? Rule.ofJson?) []
  let obligations ← f.defaulted? 5 (list? Rule.ofJson?) []
  some { target, assigner, assignee, permissions, prohibitions, obligations }

/-! ### Offers -/

/-- An offer as JSON. -/
def Offer.toJson (o : Offer) : Json :=
  .object [("id", .string o.id), ("asset_id", .string o.assetId), ("policy", o.policy.toJson)]

/-- The offer a value stands for. -/
def Offer.ofJson? : Reader Offer := fun j => do
  let f ← Fields.ofJson? ["id", "asset_id", "policy"] j
  let id ← f.required? 0 Json.text?
  let assetId ← f.required? 1 Json.text?
  let policy ← f.required? 2 Policy.ofJson?
  some { id, assetId, policy }

/-! ### Agreements -/

/-- An agreement as JSON. -/
def Agreement.toJson (a : Agreement) : Json :=
  .object
    [("id", .string a.id),
      ("provider_id", .string a.providerId),
      ("consumer_id", .string a.consumerId),
      ("contract_signing_date", ofWord64 a.signedAt),
      ("asset_id", .string a.assetId),
      ("policy", a.policy.toJson)]

/-- The agreement a value stands for. -/
def Agreement.ofJson? : Reader Agreement := fun j => do
  let f ← Fields.ofJson?
    ["id", "provider_id", "consumer_id", "contract_signing_date", "asset_id", "policy"] j
  let id ← f.required? 0 Json.text?
  let providerId ← f.required? 1 Json.text?
  let consumerId ← f.required? 2 Json.text?
  let signedAt ← f.required? 3 word64?
  let assetId ← f.required? 4 Json.text?
  let policy ← f.required? 5 Policy.ofJson?
  some { id, providerId, consumerId, signedAt, assetId, policy }

end Parley
