import Parley.Pace.Delay

/-!
# Retries

How often a message that was not taken is sent again, and how long to wait before each time.

* `RetryPolicy.delayFor` doubles from the base delay up to the longest.
* `RetryPolicy.isExhausted` says when to give up.
-/

namespace Parley

/-- The bounds of sending again. -/
structure RetryPolicy where
  /-- How many times a message is sent again. -/
  maxRetries : UInt32 := 7
  /-- The delay before it is sent again first. -/
  baseDelay : Moment := 1000
  /-- The longest delay. -/
  maxDelay : Moment := 60000
  deriving DecidableEq, Repr, Inhabited

namespace RetryPolicy

/-- The delay before the `retries`-th time a message is sent again. -/
def delayFor (p : RetryPolicy) (retries : UInt32) : Moment :=
  if retries = 0 then 0
  else exponentialDelay p.baseDelay p.maxDelay (Double.ofNat 2) (retries - 1)

/-- A message that was sent `stateCount` times is not sent again. -/
def isExhausted (p : RetryPolicy) (stateCount : UInt32) : Bool := p.maxRetries < stateCount

end RetryPolicy

end Parley
