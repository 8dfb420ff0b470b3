import Parley.Handling.Basic

/-!
# Tallies and counters

What a round of work comes to, and what all rounds of a worker come to.

* `Tally.count` counts one verdict; tallies add up field by field.
* `Counters.add` takes a round into the running counters, which wrap around.
-/

namespace Parley

/-- How many negotiations came to which end. -/
structure Tally where
  /-- Acted on. -/
  processed : Nat := 0
  /-- Left alone until due. -/
  delayed : Nat := 0
  /-- Nothing could be done about. -/
  notProcessed : Nat := 0
  /-- Failed with an error. -/
  errors : Nat := 0
  /-- Broke the handler down. -/
  panics : Nat := 0
  deriving DecidableEq, Repr, Inhabited

namespace Tally

/-- The tally of nothing. -/
def zero : Tally := {}

/-- Two tallies in one. -/
def add (a b : Tally) : Tally where
  processed := a.processed + b.processed
  delayed := a.delayed + b.delayed
  notProcessed := a.notProcessed + b.notProcessed
  errors := a.errors + b.errors
  panics := a.panics + b.panics

instance : Add Tally := ⟨add⟩

/-- The tally of one verdict. -/
def count : Verdict → Tally
  | .outcome .processed => { processed := 1 }
  | .outcome .delayed => { delayed := 1 }
  | .outcome .notProcessed => { notProcessed := 1 }
  | .failed _ => { errors := 1 }
  | .brokeDown => { panics := 1 }

/-- The tally of several verdicts. -/
def ofVerdicts (vs : List Verdict) : Tally := (vs.map count).foldl add zero

/-- The number of negotiations counted. -/
def total (t : Tally) : Nat := t.processed + t.delayed + t.notProcessed + t.errors + t.panics

end Tally

/-- What all rounds of a worker came to. -/
structure Counters where
  /-- Rounds. -/
  ticks : UInt64 := 0
  /-- Rounds in which nothing was acted on. -/
  idleTicks : UInt64 := 0
  /-- Negotiations acted on. -/
  processed : UInt64 := 0
  /-- Negotiations left alone until due. -/
  delayed : UInt64 := 0
  /-- Negotiations nothing could be done about. -/
  notProcessed : UInt64 := 0
  /-- Negotiations that failed with an error. -/
  errors : UInt64 := 0
  /-- Negotiations that broke the handler down. -/
  panics : UInt64 := 0
  deriving DecidableEq, Repr, Inhabited

/-- The counters after one more round. -/
def Counters.add (c : Counters) (t : Tally) : Counters where
  ticks := c.ticks + 1
  idleTicks := if t.processed = 0 then c.idleTicks + 1 else c.idleTicks
  processed := c.processed + UInt64.ofNat t.processed
  delayed := c.delayed + UInt64.ofNat t.delayed
  notProcessed := c.notProcessed + UInt64.ofNat t.notProcessed
  errors := c.errors + UInt64.ofNat t.errors
  panics := c.panics + UInt64.ofNat t.panics

end Parley
