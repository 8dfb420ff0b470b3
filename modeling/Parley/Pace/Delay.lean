import Parley.Double.Basic
import Parley.Moment

/-!
# Growing delays

The delay that grows with every attempt by a factor, up to a ceiling. It is computed in doubles, so
the range in which it is exact is that of doubles.

* `exponentialDelay` is the delay of an attempt.
-/

namespace Parley

/-- The largest exponent of a power: further attempts are no different. -/
def largestExponent : Nat := Int32.maxValue.toNatClampNeg

/-- The delay of an attempt: `initial * multiplier ^ attempt`, but at most `ceiling`. The first
attempt, number zero, is computed in whole numbers. -/
def exponentialDelay (initial ceiling : Moment) (multiplier : Double) (attempt : UInt32) : Moment :=
  if attempt = 0 then (if initial ≤ ceiling then initial else ceiling)
  else
    let power := multiplier.npow (Nat.min attempt.toNat largestExponent)
    let delay := (Double.ofNat initial.toNat).mul power
    (delay.min (Double.ofNat ceiling.toNat)).truncate

end Parley
