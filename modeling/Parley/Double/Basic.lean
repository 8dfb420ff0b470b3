/-!
# Binary floating-point numbers, held exactly

A finite double is a sign and a natural number of *units* of `2 ^ -1074`, the least positive
double, so comparing magnitudes is comparing naturals and no arithmetic happens before rounding.
Rounding is to nearest with ties to even, to a significand of 53 bits, and goes to infinity
beyond the largest finite double.

* `Double.ofRatio` rounds the exact quotient of two naturals; every operation goes through it.
* `Double.mul`, `Double.min`, `Double.npow` are the products, minima and powers used for delays.
* `Double.truncate` and `Double.roundHalfAway` go back to 64-bit integers and saturate.
-/

namespace Parley

/-- A double: not a number, an infinity, or a signed number of units of `2 ^ -1074`. -/
inductive Double where
  /-- Not a number. -/
  | nan
  /-- An infinity, below zero if `negative`. -/
  | infinity (negative : Bool)
  /-- The number `± units * 2 ^ -1074`; zero carries a sign too. -/
  | finite (negative : Bool) (units : Nat)
  deriving DecidableEq, Repr, Inhabited

namespace Double

/-- Bits of a significand. -/
def precision : Nat := 53

/-- There are `2 ^ unitBits` units in one. -/
def unitBits : Nat := 1074

/-- Units in the number one. -/
def one : Nat := 1 <<< unitBits

/-- Units in the largest finite double. -/
def maxUnits : Nat := (1 <<< precision - 1) <<< 2045

/-! ### Rounding -/

/-- The natural nearest to `num / den`, a tie going to the even one. -/
def nearest (num den : Nat) : Nat :=
  let q := num / den
  let r := num % den
  if 2 * r < den then q
  else if den < 2 * r then q + 1
  else if q % 2 = 0 then q else q + 1

/-- The number of units nearest to `num / den` units whose significand fits the precision. -/
def nearestUnits (num den : Nat) : Nat :=
  let step := 1 <<< ((num / den).log2 + 1 - precision)
  nearest num (den * step) * step

/-- The double nearest to `± num / den` units. -/
def ofRatio (negative : Bool) (num den : Nat) : Double :=
  let units := nearestUnits num den
  if maxUnits < units then infinity negative else finite negative units

/-- The double nearest to a natural number. -/
def ofNat (n : Nat) : Double := ofRatio false (n * one) 1

/-- The double nearest to `± digits * 10 ^ exponent`. An exponent far outside the range of doubles
is cut down first, which changes no result and keeps the powers of ten small. -/
def ofDecimal (negative : Bool) (digits : Nat) (exponent : Int) : Double :=
  if digits = 0 then finite negative 0
  else
    let size : Int := (digits.log2 : Int) / 4 + 2
    if 400 < exponent then infinity negative
    else if exponent + 2 * size < -800 then finite negative 0
    else if 0 ≤ exponent then ofRatio negative (digits * Nat.pow 10 exponent.toNat * one) 1
    else ofRatio negative (digits * one) (Nat.pow 10 (-exponent).toNat)

/-! ### Operations -/

/-- The number is neither zero nor a zero below zero; a number that is none counts. -/
def isNonZero : Double → Bool
  | nan => true
  | infinity _ => true
  | finite _ units => units != 0

/-- The product, correctly rounded. -/
def mul : Double → Double → Double
  | nan, _ => nan
  | _, nan => nan
  | infinity a, infinity b => infinity (a != b)
  | infinity a, finite b units => if units = 0 then nan else infinity (a != b)
  | finite a units, infinity b => if units = 0 then nan else infinity (a != b)
  | finite a x, finite b y => ofRatio (a != b) (x * y) one

/-- The first number is below the second; no order holds with `nan`. -/
def lt : Double → Double → Bool
  | nan, _ => false
  | _, nan => false
  | infinity a, infinity b => a && !b
  | infinity a, finite _ _ => a
  | finite _ _, infinity b => !b
  | finite false x, finite false y => x < y
  | finite true x, finite true y => y < x
  | finite true x, finite false y => x != 0 || y != 0
  | finite false _, finite true _ => false

/-- The smaller of two numbers; `nan` loses against anything else. -/
def min (a b : Double) : Double :=
  match a, b with
  | nan, b => b
  | a, nan => a
  | a, b => if lt b a then b else a

/-- One step of taking a power by squaring: the running product takes the base in if the lowest bit
of the exponent is set, and the base is squared as long as bits are left. -/
def powLoop (acc base : Double) : Nat → Double
  | 0 => acc
  | n + 1 =>
    let acc := if (n + 1) % 2 = 1 then mul acc base else acc
    let rest := (n + 1) / 2
    if rest = 0 then acc else powLoop acc (mul base base) rest
termination_by n => n
decreasing_by omega

/-- The power by repeated squaring, rounded after every product. -/
def npow (base : Double) (n : Nat) : Double := powLoop (ofNat 1) base n

/-! ### Back to integers -/

/-- A natural number as a 64-bit one, the largest one if it is too large. -/
def saturate (n : Nat) : UInt64 :=
  if n < UInt64.size then UInt64.ofNat n else UInt64.ofNat (UInt64.size - 1)

/-- The whole part, kept inside the 64-bit range; `nan` and numbers below zero give zero. -/
def truncate : Double → UInt64
  | nan => 0
  | infinity negative => if negative then 0 else UInt64.ofNat (UInt64.size - 1)
  | finite negative units => if negative then 0 else saturate (units / one)

/-- The nearest whole number with halves away from zero, kept inside the 64-bit range; `nan` and
numbers below zero give zero. -/
def roundHalfAway : Double → UInt64
  | nan => 0
  | infinity negative => if negative then 0 else UInt64.ofNat (UInt64.size - 1)
  | finite negative units => if negative then 0 else saturate ((2 * units + one) / (2 * one))

end Double

end Parley
