import Parley.Engine.Tally
import Parley.Handling.Member

/-!
# Processors

A processor takes care of one state: it leases a batch of negotiations in that state and hands each
to its handler. When nothing has to be waited for, the members of a batch are handled one after the
other in the order in which they were leased.

* `Processor.lease` leases the batch, `Processor.run` also handles it.
-/

namespace Parley

/-- What takes care of the negotiations in one state. -/
structure Processor where
  /-- The state. -/
  state : State
  /-- How many negotiations are leased at a time. -/
  batchSize : Nat
  /-- What is done with each of them. -/
  handler : Handler

namespace Processor

variable {σ : Type}

/-- The name a processor goes by. -/
def name (p : Processor) : String := "ContractNegotiation:" ++ p.state.name

/-- The members of the next batch; none if leasing fails. -/
def lease (v : Venue σ) (p : Processor) (s : σ) : List Member × σ :=
  match v.atDesk (·.next p.batchSize p.state) s with
  | (.ok ns, s) => (ns.map .received, s)
  | (.error _, s) => ([], s)

/-- The members taken to their ends one after the other. -/
def runAll (v : Venue σ) (handler : Handler) : List Member → σ → List Member × σ
  | [], s => ([], s)
  | m :: ms, s =>
    let (m, s) := m.run v handler s
    let (ms, s) := runAll v handler ms s
    (m :: ms, s)

/-- The verdicts on the members. -/
def verdicts (ms : List Member) : List Verdict := ms.filterMap Member.verdict?

/-- One round of a processor: the members of its batch at their ends. -/
def run (v : Venue σ) (p : Processor) (s : σ) : List Member × σ :=
  let (ms, s) := p.lease v s
  runAll v p.handler ms s

/-- What a round of a processor came to. -/
def tally (ms : List Member) : Tally := Tally.ofVerdicts (verdicts ms)

end Processor

end Parley
