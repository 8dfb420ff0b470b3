import Parley.Answer
import Parley.Message

/-!
# Dispatchers

A scripted dispatcher records every message it is given and answers with the answers prepared for
it, in their order; when none is left, every message is taken. A registry sends each message to the
dispatcher registered last for its protocol.

* `Dispatcher.receive` is one message given to a dispatcher.
* `Registry.route?` is the dispatcher for a protocol, `Registry.protocols` the protocols in order.
* `Exchange.dispatch` sends a message through a registry.
-/

namespace Parley

/-- A dispatcher with prepared answers. -/
structure Dispatcher where
  /-- The protocol whose messages it sends. -/
  protocol : String
  /-- The answers still to be given. -/
  answers : List Answer := []
  /-- The messages it was given, oldest first. -/
  sent : List Message := []
  deriving Inhabited

namespace Dispatcher

/-- The answer when none was prepared. -/
def defaultAnswer : Answer := .ok (.succeeded .null)

/-- The dispatcher with an answer prepared a number of times. -/
def enqueue (d : Dispatcher) (answer : Answer) (times : Nat) : Dispatcher :=
  { d with answers := d.answers ++ List.replicate times answer }

/-- The answer to a message, and the dispatcher after it. -/
def receive (d : Dispatcher) (m : Message) : Answer × Dispatcher :=
  (d.answers.head?.getD defaultAnswer, { d with answers := d.answers.tail, sent := d.sent ++ [m] })

end Dispatcher

/-- Who sends the messages of each protocol; `ρ` is how the ones who send are known. -/
structure Registry (ρ : Type) where
  /-- The protocols and who sends their messages; no protocol comes twice. -/
  entries : List (String × ρ) := []
  /-- How long an answer is waited for, if not for ever. -/
  timeout : Option Moment := none

namespace Registry

variable {ρ : Type}

instance : Inhabited (Registry ρ) := ⟨{}⟩

/-- The registry with somebody for a protocol, in place of whom there may be. -/
def register (r : Registry ρ) (protocol : String) (who : ρ) : Registry ρ :=
  { r with entries := (protocol, who) :: r.entries.filter (·.1 != protocol) }

/-- Who sends the messages of a protocol. -/
def route? (r : Registry ρ) (protocol : String) : Option ρ :=
  (r.entries.find? (·.1 == protocol)).map (·.2)

/-- The protocols, in order. -/
def protocols (r : Registry ρ) : List String := (r.entries.map (·.1)).mergeSort (· ≤ ·)

/-- The protocol a registry itself stands for: any. -/
def ownProtocol : String := "*"

theorem sizeOf_route?_lt [SizeOf ρ] {r : Registry ρ} {protocol : String} {who : ρ}
    (h : r.route? protocol = some who) : sizeOf who < sizeOf r := by
  obtain ⟨e, he, rfl⟩ := Option.map_eq_some_iff.1 h
  have hm := List.sizeOf_lt_of_mem (List.mem_of_find?_eq_some he)
  cases r
  cases e
  simp_all
  omega

end Registry

/-- Dispatchers and a registry of them. -/
structure Exchange where
  /-- The dispatchers. -/
  dispatchers : List Dispatcher := []
  /-- The registry; dispatchers are known by their places. -/
  registry : Registry Nat := {}
  deriving Inhabited

namespace Exchange

/-- The exchange with a dispatcher registered for its protocol. -/
def register (x : Exchange) (place : Nat) : Exchange :=
  match x.dispatchers[place]? with
  | some d => { x with registry := x.registry.register d.protocol place }
  | none => x

/-- The exchange with an answer prepared at a dispatcher a number of times. -/
def enqueue (x : Exchange) (place : Nat) (answer : Answer) (times : Nat) : Exchange :=
  { x with dispatchers := x.dispatchers.modify place (·.enqueue answer times) }

/-- A message given to the dispatcher at a place. -/
def deliver (x : Exchange) (place : Nat) (m : Message) : Answer × Exchange :=
  match x.dispatchers[place]? with
  | some d => ((d.receive m).1, { x with dispatchers := x.dispatchers.set place (d.receive m).2 })
  | none => (.error (.noDispatcher m.protocol), x)

/-- A message sent through the registry, and its answer. -/
def dispatch (x : Exchange) (m : Message) : Answer × Exchange :=
  match x.registry.route? m.protocol with
  | some place => x.deliver place m
  | none => (.error (.noDispatcher m.protocol), x)

end Exchange

end Parley
