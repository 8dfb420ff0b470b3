import Parley.Text.Blank
import Parley.Uuid

/-!
# Contract ids

A contract id names a contract definition, an asset and one contract about them, written
`definition:asset:uuid`. An offer carries one; the id of the agreement is derived from it.

* `ContractId.parse` reads an id: exactly three non-empty parts.
* `ContractId.derive` keeps definition and asset and names the contract after the whole id, so
  deriving twice from one offer gives one agreement id.
-/

namespace Parley

/-- The name of one contract about an asset under a definition. -/
structure ContractId where
  /-- The contract definition. -/
  definition : String
  /-- The asset. -/
  asset : String
  /-- The contract itself. -/
  uuid : String
  deriving DecidableEq, Repr

/-- Why a text is no contract id. -/
inductive ContractIdError where
  /-- The text is blank. -/
  | empty
  /-- The text does not have three non-empty parts. -/
  | malformed (raw : String)
  deriving DecidableEq, Repr

/-- The wording of an error. -/
def ContractIdError.message : ContractIdError → String
  | empty => "contract id is empty"
  | malformed raw =>
    "contract id '" ++ raw ++ "' must have the form <definition>:<asset>:<uuid>"

namespace ContractId

/-- The written form of an id. -/
def text (c : ContractId) : String := c.definition ++ ":" ++ c.asset ++ ":" ++ c.uuid

/-- The id with these three parts, if none of them is empty. -/
def ofParts? : List (List Char) → Option ContractId
  | [d, a, u] =>
    if d.isEmpty || a.isEmpty || u.isEmpty then none
    else some ⟨String.ofList d, String.ofList a, String.ofList u⟩
  | _ => none

/-- The id a text stands for. -/
def parse (raw : String) : Except ContractIdError ContractId :=
  if (Text.trim raw.toList).isEmpty then .error .empty
  else match ofParts? (Text.splitAt ':' raw.toList) with
    | some c => .ok c
    | none => .error (.malformed raw)

/-- The id of the contract that comes out of an offer with this id. -/
def derive (c : ContractId) : ContractId :=
  { c with uuid := (Uuid.named Uuid.objectIdentifiers c.text).text }

end ContractId

end Parley
