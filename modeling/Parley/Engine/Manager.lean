import Parley.Engine.Processor
import Parley.Pace.Wait

/-!
# Managers

A manager runs its processors one after the other, again and again. After a round in which nothing
was acted on it waits, and the longer the more such rounds come in a row.

* `Manager.processors` are the processors of one side of a negotiation.
* `Manager.tick` is one round; `Pacer.after` is what follows: go on at once, or wait.
-/

namespace Parley

/-- One side of the negotiations, and what is known to it. -/
structure Manager where
  /-- The side. -/
  side : Side
  /-- What the worker knows about itself. -/
  context : Context
  deriving DecidableEq, Repr, Inhabited

namespace Manager

variable {σ : Type}

/-- The name a manager goes by. -/
def name (m : Manager) : String :=
  match m.side with
  | .provider => "provider-contract-negotiation"
  | .consumer => "consumer-contract-negotiation"

/-- The states that are taken care of, in their order. -/
def states (m : Manager) : List State := (m.side.duties m.context.autoAgree).map (·.1)

/-- The processors, in their order. -/
def processors (m : Manager) : List Processor :=
  (m.side.duties m.context.autoAgree).map fun (state, duty) =>
    ⟨state, m.context.batchSize, duty.begin m.context⟩

/-- The processors run one after the other: the members of each batch. -/
def runAll (v : Venue σ) : List Processor → σ → List (List Member) × σ
  | [], s => ([], s)
  | p :: ps, s =>
    let (ms, s) := p.run v s
    let (mss, s) := runAll v ps s
    (ms :: mss, s)

/-- One round: the members of the batch of each processor, at their ends. -/
def tick (v : Venue σ) (m : Manager) (s : σ) : List (List Member) × σ := runAll v m.processors s

/-- What a round came to. -/
def tally (mss : List (List Member)) : Tally := (mss.map Processor.tally).foldl Tally.add Tally.zero

end Manager

/-- What a manager remembers from round to round. -/
structure Pacer where
  /-- The counters. -/
  counters : Counters := {}
  /-- How it waits. -/
  waits : WaitStrategy
  deriving DecidableEq, Repr, Inhabited

/-- What follows a round: nothing, or a wait. -/
def Pacer.after (p : Pacer) (t : Tally) : Option Moment × Pacer :=
  if t.processed = 0 then
    (some p.waits.wait.1, ⟨p.counters.add t, p.waits.wait.2⟩)
  else (none, ⟨p.counters.add t, p.waits.success⟩)

/-- Why a manager cannot be made or started. -/
inductive ManagerError where
  /-- It runs already. -/
  | alreadyRunning (name : String)
  /-- It has nothing to run. -/
  | noProcessors (name : String)
  deriving DecidableEq, Repr

/-- The wording of an error. -/
def ManagerError.message : ManagerError → String
  | alreadyRunning name => "state machine '" ++ name ++ "' is already running"
  | noProcessors name => "state machine '" ++ name ++ "' has no processors"

end Parley
