import Parley.Pace.Delay

/-!
# Waiting between rounds

How long a worker that found nothing to do waits before it looks again.

* `WaitStrategy.wait` asks for the next wait, `WaitStrategy.success` tells that work was found.
-/

namespace Parley

/-- How to wait between rounds that found no work. -/
inductive WaitStrategy where
  /-- Always the same wait. -/
  | fixed (span : Moment)
  /-- A wait that grows with every round in a row that found no work. -/
  | exponential (initial ceiling : Moment) (multiplier : Double) (idle : UInt32)
  deriving DecidableEq, Repr

namespace WaitStrategy

/-- The growing wait from 100 milliseconds to five seconds. -/
def standard : WaitStrategy := exponential 100 5000 (Double.ofNat 2) 0

instance : Inhabited WaitStrategy := ⟨standard⟩

/-- The count with one more, or the same if it is the largest. -/
def countOn (n : UInt32) : UInt32 := if n.toNat + 1 < UInt32.size then n + 1 else n

/-- The next wait, and the strategy after it was asked for. -/
def wait : WaitStrategy → Moment × WaitStrategy
  | fixed span => (span, fixed span)
  | exponential initial ceiling multiplier idle =>
    (exponentialDelay initial ceiling multiplier idle,
      exponential initial ceiling multiplier (countOn idle))

/-- The strategy after a round that found work. -/
def success : WaitStrategy → WaitStrategy
  | fixed span => fixed span
  | exponential initial ceiling multiplier _ => exponential initial ceiling multiplier 0

/-- The rounds in a row that found no work, where they are counted. -/
def idleRounds? : WaitStrategy → Option UInt32
  | fixed _ => none
  | exponential _ _ _ idle => some idle

end WaitStrategy

end Parley
