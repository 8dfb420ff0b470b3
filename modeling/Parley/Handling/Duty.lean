import Parley.ContractId
import Parley.Handling.Attempt

/-!
# Duties

What each side has to do about a negotiation in each of the states in which it is that side's turn:
either move it on at once or send a message.

* `Duty.of?` is the table of duties by side and state, `Side.duties` the order in which they are done.
* `Duty.plan` says what is to be done about a negotiation: the move, the message and what follows
  from its answer, or why nothing can be done.
-/

namespace Parley

/-- What a worker knows about itself and its work. -/
structure Context where
  /-- The participant the worker acts for. -/
  participantId : String
  /-- How often messages are sent again. -/
  policy : RetryPolicy
  /-- How many negotiations of a state are leased at a time. -/
  batchSize : Nat
  /-- Requests are agreed to without asking. -/
  autoAgree : Bool
  deriving DecidableEq, Repr, Inhabited

/-- Why a negotiation could not be handled. -/
inductive HandlingError where
  /-- There is no offer. -/
  | missingOffer (id : String)
  /-- There is no agreement. -/
  | missingAgreement (id : String)
  /-- The agreement cannot be made. -/
  | agreement (error : AgreementError)
  /-- The message cannot be addressed. -/
  | message (error : MessageError)
  /-- The move was refused. -/
  | transition (error : TransitionError)
  /-- The ledger refused. -/
  | store (error : StoreError)
  /-- The attempt to send a message failed. -/
  | retry (error : RetryError)
  /-- Something else went wrong. -/
  | other (reason : String)
  deriving DecidableEq, Repr

/-- The wording of an error. -/
def HandlingError.wording : HandlingError → String
  | missingOffer id => "negotiation " ++ id ++ " has no contract offer"
  | missingAgreement id => "negotiation " ++ id ++ " has no contract agreement"
  | agreement e => "invalid agreement: " ++ e.message
  | message e => "invalid message: " ++ e.message
  | transition e => "transition error: " ++ e.message
  | store e => "store error: " ++ e.message
  | retry e => "retry process failed: " ++ e.message
  | other reason => reason

/-! ### Sending -/

/-- A message to send and what follows from its answer. -/
structure Sending where
  /-- The message. -/
  message : Message
  /-- The state to move to when the message was taken. -/
  success : State
  /-- The agreement to record when the message was taken. -/
  agreement : Option Agreement := none
  /-- When the message was sent often enough, the other side is still to be told about it. -/
  notifies : Bool := true
  deriving DecidableEq, Repr, Inhabited

/-- The detail that is recorded when a message was sent often enough. -/
def exhaustedDetail (kindName role cause : String) : String :=
  "Failed to send " ++ kindName ++ " to " ++ role ++ ": " ++ cause

/-- A detail behind the one that is there. -/
def appendDetail (existing : Option String) (detail : String) : String :=
  match existing with
  | some text => if text.isEmpty then detail else text ++ "; " ++ detail
  | none => detail

namespace Sending

/-- The move that follows when the message was taken. -/
def succeed (s : Sending) : Reaction := fun now current => do
  let moved ← current.moveTo s.success now
  match s.agreement with
  | some a => .ok (moved.setAgreement a)
  | none => .ok moved

/-- The move that follows when the message was sent often enough. -/
def exhaust (s : Sending) (role cause : String) : Reaction := fun now current =>
  let detail := exhaustedDetail s.message.kindName role cause
  if s.notifies then current.terminate (some detail) now
  else current.giveUp (some (appendDetail current.errorDetail detail)) now

/-- What follows from the answer to a message about a negotiation: a move on when it was taken, a
second entry into the state when it may be sent again, and the end of the negotiation otherwise. -/
def reactions (s : Sending) (n : Negotiation) : Reactions where
  onSuccess := some fun _ => s.succeed
  onFailure := some fun _ now current => current.moveTo n.state now
  onFatal := some fun f now current => current.giveUp (some f.detail) now
  onExhausted := some (s.exhaust n.side.counterpartRole)

end Sending

/-! ### Duties -/

/-- What is to be done about a negotiation. -/
inductive Plan where
  /-- Move on to a state at once. -/
  | advance (target : State)
  /-- Send a message. -/
  | send (sending : Sending)
  /-- Nothing: the negotiation does not hold what is needed. -/
  | skip
  /-- Nothing, because something is wrong. -/
  | refuse (error : HandlingError)
  deriving DecidableEq, Repr

/-- A duty of one of the sides. -/
inductive Duty where
  /-- The provider sends its offer. -/
  | sendOffer
  /-- The provider agrees to a request without asking. -/
  | takeRequest
  /-- The provider sends the agreement, making it first if there is none. -/
  | sendAgreement
  /-- The provider begins to close a contract that was approved. -/
  | beginFinalizing
  /-- The provider tells that the contract is in force. -/
  | sendFinalization
  /-- The consumer begins to request. -/
  | beginRequesting
  /-- The consumer sends its request. -/
  | sendRequest
  /-- The consumer accepts the offer. -/
  | sendAcceptance
  /-- The consumer begins to check an agreement. -/
  | beginVerifying
  /-- The consumer approves the agreement. -/
  | sendApproval
  /-- Either side tells that it gives the negotiation up. -/
  | sendTermination
  deriving DecidableEq, Repr, Inhabited

namespace Duty

/-- The duty of a side about a negotiation in a state. -/
def of? : Side → State → Option Duty
  | .provider, .offering => some sendOffer
  | .provider, .requested => some takeRequest
  | .provider, .agreeing => some sendAgreement
  | .provider, .verified => some beginFinalizing
  | .provider, .finalizing => some sendFinalization
  | .consumer, .initial => some beginRequesting
  | .consumer, .requesting => some sendRequest
  | .consumer, .accepting => some sendAcceptance
  | .consumer, .agreed => some beginVerifying
  | .consumer, .verifying => some sendApproval
  | _, .terminating => some sendTermination
  | _, _ => none

/-- Send a message that needs a header, if the negotiation can be addressed. -/
def sendWith (n : Negotiation) (messageId : String) (f : Header → Sending) : Plan :=
  match n.header messageId with
  | .ok h => .send (f h)
  | .error e => .refuse (.message e)

/-- The agreement that comes out of the last offer; none if the offer's id is no contract id. -/
def makeAgreement (ctx : Context) (now : Moment) (n : Negotiation) :
    Except HandlingError (Option Agreement) :=
  match n.lastOffer? with
  | none => .error (.missingOffer n.id)
  | some o =>
    match ContractId.parse o.id with
    | .error _ => .ok none
    | .ok c =>
      match Agreement.make
          ⟨c.derive.text, ctx.participantId, n.counterPartyId, now.seconds, o.assetId, o.policy⟩ with
      | .ok a => .ok (some a)
      | .error e => .error (.agreement e)

/-- The agreement to send: the one there is, else a new one. -/
def agreementOf (ctx : Context) (now : Moment) (n : Negotiation) :
    Except HandlingError (Option Agreement) :=
  match n.agreement with
  | some a => .ok (some a)
  | none => makeAgreement ctx now n

/-- What is to be done about a negotiation, at a moment; `messageId` is for the message if there is
one. -/
def plan (ctx : Context) (messageId : String) (now : Moment) (n : Negotiation) : Duty → Plan
  | sendOffer =>
    match n.lastOffer? with
    | none => .refuse (.missingOffer n.id)
    | some o => sendWith n messageId fun h => { message := .offer h o, success := .offered }
  | takeRequest => .advance .agreeing
  | sendAgreement =>
    match agreementOf ctx now n with
    | .error e => .refuse e
    | .ok none => .skip
    | .ok (some a) =>
      sendWith n messageId fun h =>
        { message := .agreement h a, success := .agreed, agreement := some a }
  | beginFinalizing => .advance .finalizing
  | sendFinalization =>
    match n.agreement with
    | none => .refuse (.missingAgreement n.id)
    | some a =>
      sendWith n messageId fun h =>
        { message := .event h .finalized (some a.policy), success := .finalized }
  | beginRequesting => .advance .requesting
  | sendRequest =>
    match n.lastOffer? with
    | none => .refuse (.missingOffer n.id)
    | some o =>
      sendWith n messageId fun h =>
        { message := .request h o n.callbackAddress, success := .requested }
  | sendAcceptance =>
    sendWith n messageId fun h =>
      { message := .event h .accepted (n.lastOffer?.map (·.policy)), success := .accepted }
  | beginVerifying => .advance .verifying
  | sendApproval =>
    sendWith n messageId fun h => { message := .approval h, success := .verified }
  | sendTermination =>
    sendWith n messageId fun h =>
      { message := .termination h n.errorDetail (n.lastOffer?.map (·.policy))
        success := .terminated
        notifies := false }

end Duty

/-- The states in which a side has something to do, in the order in which it does it. -/
def Side.duties : Side → (autoAgree : Bool) → List (State × Duty)
  | .provider, autoAgree =>
    [(.offering, .sendOffer)] ++ (if autoAgree then [(.requested, .takeRequest)] else []) ++
      [(.agreeing, .sendAgreement), (.verified, .beginFinalizing),
        (.finalizing, .sendFinalization), (.terminating, .sendTermination)]
  | .consumer, _ =>
    [(.initial, .beginRequesting), (.requesting, .sendRequest), (.accepting, .sendAcceptance),
      (.agreed, .beginVerifying), (.verifying, .sendApproval), (.terminating, .sendTermination)]

end Parley
