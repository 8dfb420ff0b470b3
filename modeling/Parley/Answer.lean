import Parley.Json.Basic
import Parley.Moment
import Parley.Text.Blank
import Parley.Text.Digits

/-!
# Answers to messages

What comes back when a message is sent: the other side took it, refused it for now or for good, or
no answer was obtained at all.

* `Failure.detail` is the text a refusal is remembered by.
* `Answer` is an answer or the reason why there is none.
-/

namespace Parley

/-- How a refusal is meant. -/
inductive FailureStatus where
  /-- The same message may be taken later. -/
  | retryable
  /-- The message is refused for good. -/
  | fatal
  deriving DecidableEq, Repr, Inhabited

namespace FailureStatus

/-- The name of a status in messages. -/
def name : FailureStatus → String
  | retryable => "ERROR_RETRY"
  | fatal => "FATAL_ERROR"

/-- The status of that name. -/
def ofName? (s : String) : Option FailureStatus := [retryable, fatal].find? (·.name == s)

/-- The word a status is shown by. -/
def word : FailureStatus → String
  | retryable => "ErrorRetry"
  | fatal => "FatalError"

end FailureStatus

/-- A refusal. -/
structure Failure where
  /-- How it is meant. -/
  status : FailureStatus
  /-- What the other side said about it. -/
  messages : List String
  deriving DecidableEq, Repr, Inhabited

namespace Failure

/-- The messages of a refusal in one text. -/
def detail (f : Failure) : String := Text.joinStrings ", " f.messages

/-- The refusal is for good. -/
def isFatal (f : Failure) : Bool := f.status == .fatal

/-- The text a refusal is shown by. -/
def text (f : Failure) : String := f.status.word ++ ": " ++ f.detail

end Failure

/-- What the other side answered. -/
inductive Response where
  /-- The message was taken; the answer may carry any content. -/
  | succeeded (content : Json)
  /-- The message was refused. -/
  | failed (failure : Failure)
  deriving Inhabited

namespace Response

/-- A refusal for now with one message. -/
def retry (message : String) : Response := .failed ⟨.retryable, [message]⟩

/-- A refusal for good with one message. -/
def fatal (message : String) : Response := .failed ⟨.fatal, [message]⟩

end Response

/-- Why no answer was obtained. All of these may pass. -/
inductive DispatchError where
  /-- Nobody sends messages of this protocol. -/
  | noDispatcher (protocol : String)
  /-- No answer came within that many milliseconds. -/
  | timeout (limit : UInt64)
  /-- The message could not be sent. -/
  | transport (reason : String)
  deriving DecidableEq, Repr, Inhabited

/-- The wording of an error. -/
def DispatchError.message : DispatchError → String
  | noDispatcher protocol => "no dispatcher registered for protocol '" ++ protocol ++ "'"
  | timeout limit => "dispatch timed out after " ++ Text.natText limit.toNat ++ " ms"
  | transport reason => "transport error: " ++ reason

/-- What comes of sending a message. -/
abbrev Answer := Except DispatchError Response

end Parley
