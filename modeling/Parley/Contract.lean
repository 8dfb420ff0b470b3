/-!
# Offers, policies and agreements

What the two sides negotiate about: an offer puts an asset under a policy, an agreement is the offer
both have settled on. Policies are carried along and never evaluated.

* `Agreement.make` checks what an agreement must hold before it exists.
-/

namespace Parley

/-- A permission, prohibition or obligation. -/
structure Rule where
  /-- What may, must not or must be done. -/
  action : String
  /-- The conditions on it. -/
  constraints : List String
  deriving DecidableEq, Repr, Inhabited

/-- The terms of use of an asset. -/
structure Policy where
  /-- The asset the policy is about. -/
  target : Option String := none
  /-- Who grants. -/
  assigner : Option String := none
  /-- To whom it is granted. -/
  assignee : Option String := none
  /-- What may be done. -/
  permissions : List Rule := []
  /-- What must not be done. -/
  prohibitions : List Rule := []
  /-- What must be done. -/
  obligations : List Rule := []
  deriving DecidableEq, Repr, Inhabited

/-- The policy with one more permission. -/
def Policy.permit (p : Policy) (r : Rule) : Policy := { p with permissions := p.permissions ++ [r] }

/-- An asset offered under a policy. -/
structure Offer where
  /-- The id of the offer, a contract id. -/
  id : String
  /-- The asset. -/
  assetId : String
  /-- The terms. -/
  policy : Policy
  deriving DecidableEq, Repr, Inhabited

/-- What both sides have settled on. -/
structure Agreement where
  /-- The id of the agreement, a contract id. -/
  id : String
  /-- Who provides. -/
  providerId : String
  /-- Who consumes. -/
  consumerId : String
  /-- When it was signed, in seconds since the epoch. -/
  signedAt : UInt64
  /-- The asset. -/
  assetId : String
  /-- The terms. -/
  policy : Policy
  deriving DecidableEq, Repr, Inhabited

/-- Why an agreement cannot be made. -/
inductive AgreementError where
  /-- A field that must be given is empty. -/
  | missingField (field : String)
  /-- The signing date is zero. -/
  | invalidSigningDate
  deriving DecidableEq, Repr

/-- The wording of an error. -/
def AgreementError.message : AgreementError → String
  | missingField field => "agreement is missing required field: " ++ field
  | invalidSigningDate => "agreement signing date must be positive"

/-- The agreement itself if all that it must hold is there: the first field that is empty is
reported, a signing date of zero last. -/
def Agreement.make (a : Agreement) : Except AgreementError Agreement :=
  if a.id.isEmpty then .error (.missingField "id")
  else if a.providerId.isEmpty then .error (.missingField "provider_id")
  else if a.consumerId.isEmpty then .error (.missingField "consumer_id")
  else if a.assetId.isEmpty then .error (.missingField "asset_id")
  else if a.signedAt = 0 then .error .invalidSigningDate
  else .ok a

end Parley
