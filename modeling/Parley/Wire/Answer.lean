import Parley.Answer
import Parley.Wire.Message

/-!
# Answers as JSON

* `Failure.toJson` and `Failure.ofJson?` write and read a refusal.
* `Response.toJson` and `Response.ofJson?` write and read what the other side answered: an object with
  one member, which tells whether the message was taken. Free content is read with the last of
  repeated names and the names in order.
-/

namespace Parley

open Wire

/-- A refusal as JSON. -/
def Failure.toJson (f : Failure) : Json :=
  .object [("status", .string f.status.name), ("messages", ofTexts f.messages)]

/-- The refusal a value stands for. -/
def Failure.ofJson? : Reader Failure := fun j => do
  let f ← Fields.ofJson? ["status", "messages"] j
  let status ← f.required? 0 (name? FailureStatus.ofName?)
  let messages ← f.required? 1 (list? Json.text?)
  some { status, messages }

/-- Free content: any value, if it is not nested too deeply and its numbers are in range. -/
def Wire.content? : Reader Json := fun j =>
  if j.inRange && j.depth < depthLimit then some j.settled else none

/-- An answer as JSON. -/
def Response.toJson : Response → Json
  | succeeded content => .object [("Succeeded", content)]
  | failed failure => .object [("Failed", failure.toJson)]

/-- The answer a value stands for. -/
def Response.ofJson? : Reader Response
  | .object [("Succeeded", j)] => (content? j).map .succeeded
  | .object [("Failed", j)] => (Failure.ofJson? j).map .failed
  | _ => none

end Parley
