/-!
# States of a negotiation

The fifteen states a contract negotiation passes through, the moves allowed between them, and the
two sides that take part.

* `State.canMoveTo` is the table of moves: a final state is never left, every other state may be
  entered again, and every negotiation that is not final may be terminated.
* `State.code` is strictly increasing along the declaration order, and `State.ofCode?` inverts it.
-/

namespace Parley

/-- The states, in the order a negotiation walks through them. -/
inductive State where
  /-- Created by the consumer, nothing sent yet. -/
  | initial
  /-- The consumer's request is to be sent. -/
  | requesting
  /-- The request has reached the provider. -/
  | requested
  /-- The provider's offer is to be sent. -/
  | offering
  /-- The offer has reached the consumer. -/
  | offered
  /-- The consumer's acceptance is to be sent. -/
  | accepting
  /-- The acceptance has reached the provider. -/
  | accepted
  /-- The provider's agreement is to be sent. -/
  | agreeing
  /-- The agreement has reached the consumer. -/
  | agreed
  /-- The consumer's approval of the agreement is to be sent. -/
  | verifying
  /-- The approval has reached the provider. -/
  | verified
  /-- The provider's closing notice is to be sent. -/
  | finalizing
  /-- The contract is in force. -/
  | finalized
  /-- A notice of termination is to be sent. -/
  | terminating
  /-- The negotiation was given up. -/
  | terminated
  deriving DecidableEq, Repr, Inhabited

namespace State

/-- All states, in declaration order. -/
def all : List State :=
  [initial, requesting, requested, offering, offered, accepting, accepted, agreeing, agreed,
    verifying, verified, finalizing, finalized, terminating, terminated]

/-- The name of a state in messages and stored records. -/
def name : State → String
  | initial => "INITIAL"
  | requesting => "REQUESTING"
  | requested => "REQUESTED"
  | offering => "OFFERING"
  | offered => "OFFERED"
  | accepting => "ACCEPTING"
  | accepted => "ACCEPTED"
  | agreeing => "AGREEING"
  | agreed => "AGREED"
  | verifying => "VERIFYING"
  | verified => "VERIFIED"
  | finalizing => "FINALIZING"
  | finalized => "FINALIZED"
  | terminating => "TERMINATING"
  | terminated => "TERMINATED"

/-- The number a state is known by. -/
def code : State → Nat
  | initial => 50
  | requesting => 100
  | requested => 200
  | offering => 300
  | offered => 400
  | accepting => 700
  | accepted => 800
  | agreeing => 825
  | agreed => 850
  | verifying => 1050
  | verified => 1100
  | finalizing => 1150
  | finalized => 1200
  | terminating => 1300
  | terminated => 1400

/-- The state of that name. -/
def ofName? (s : String) : Option State := all.find? (·.name == s)

/-- The state of that number. -/
def ofCode? (n : Nat) : Option State := all.find? (·.code == n)

/-- Nothing happens to a negotiation in a final state any more. -/
def isFinal : State → Bool
  | finalized | terminated => true
  | _ => false

/-- The forward moves that are neither a second entry nor a termination. -/
def forward : State → List State
  | initial => [requesting]
  | requesting => [requested]
  | requested => [offering, offered, agreeing, agreed]
  | offering => [offered]
  | offered => [requesting, requested, accepting, agreeing]
  | accepting => [accepted]
  | accepted => [agreeing, agreed]
  | agreeing => [agreed]
  | agreed => [verifying, verified]
  | verifying => [verified]
  | verified => [finalizing, finalized]
  | finalizing => [finalized]
  | finalized | terminating | terminated => []

/-- A negotiation in state `s` may be moved to state `t`. -/
def canMoveTo (s t : State) : Bool :=
  !s.isFinal && (t == s || t == terminating || t == terminated || s.forward.contains t)

/-- The states that may follow, in declaration order. -/
def successors (s : State) : List State := all.filter s.canMoveTo

/-! ### Laws -/

theorem mem_all (s : State) : s ∈ all := by cases s <;> decide

theorem ofName?_name (s : State) : ofName? s.name = some s := by cases s <;> decide

theorem ofCode?_code (s : State) : ofCode? s.code = some s := by cases s <;> decide

/-- A final state is never left, not even for itself. -/
theorem canMoveTo_of_isFinal {s : State} (h : s.isFinal = true) (t : State) :
    s.canMoveTo t = false := by simp [canMoveTo, h]

end State

/-- The side a participant takes in a negotiation. -/
inductive Side where
  /-- Asks for a contract. -/
  | consumer
  /-- Offers a contract. -/
  | provider
  deriving DecidableEq, Repr, Inhabited

namespace Side

/-- The name of a side in stored records. -/
def name : Side → String
  | consumer => "CONSUMER"
  | provider => "PROVIDER"

/-- The side of that name. -/
def ofName? (s : String) : Option Side := [consumer, provider].find? (·.name == s)

/-- The word for the other side, as used in failure details. -/
def counterpartRole : Side → String
  | consumer => "provider"
  | provider => "consumer"

theorem ofName?_name (s : Side) : ofName? s.name = some s := by cases s <;> decide

end Side

end Parley
