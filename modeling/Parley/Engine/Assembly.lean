import Parley.Handling.Duty

/-!
# Assembling a context

A context needs a ledger to work on, a way to send messages and a participant to act for; the rest
has defaults.

* `Assembly.build` checks that all is there and names the first thing that is not.
-/

namespace Parley

/-- Why a context cannot be built. -/
inductive AssemblyError where
  /-- Something that must be given is missing. -/
  | missingField (field : String)
  /-- Batches would be empty. -/
  | invalidBatchSize
  deriving DecidableEq, Repr

/-- The wording of an error. -/
def AssemblyError.message : AssemblyError → String
  | missingField field => "missing required field: " ++ field
  | invalidBatchSize => "batch size must be at least 1"

/-- What is given so far for a context with a ledger of type `α` and a dispatcher of type `β`. -/
structure Assembly (α β : Type) where
  /-- The ledger. -/
  store : Option α := none
  /-- The way to send messages. -/
  dispatcher : Option β := none
  /-- The participant. -/
  participantId : Option String := none
  /-- How often messages are sent again. -/
  policy : RetryPolicy := {}
  /-- How many negotiations of a state are leased at a time. -/
  batchSize : Nat := 5
  /-- Requests are agreed to without asking. -/
  autoAgree : Bool := false
  deriving Inhabited

/-- The ledger, the dispatcher and the context, or the first thing that is missing or wrong. -/
def Assembly.build {α β : Type} (a : Assembly α β) : Except AssemblyError (α × β × Context) :=
  match a.store with
  | none => .error (.missingField "store")
  | some store =>
    match a.dispatcher with
    | none => .error (.missingField "dispatcher")
    | some dispatcher =>
      match a.participantId.filter (!·.isEmpty) with
      | none => .error (.missingField "participant_id")
      | some participantId =>
        if a.batchSize = 0 then .error .invalidBatchSize
        else .ok (store, dispatcher, ⟨participantId, a.policy, a.batchSize, a.autoAgree⟩)

end Parley
