import Parley.Json.Basic
import Parley.Text.Digits

/-!
# Numbers of JSON

A whole number that fits 64 bits is kept exactly. Every other number becomes a double, in two steps
that round by themselves: the leading digits that fit 64 bits make a double, and a power of ten,
a double as well, multiplies or divides it. The result may be a neighbour of the nearest double.

* `Json.scaled` is that double, `Json.decimalNumber` takes it from the digits of a numeral.
* `Json.readNumber?` reads a number from the front of a text.
-/

namespace Parley.Json

open Parley.Text

/-! ### Powers of ten -/

/-- The largest power of ten among the doubles. -/
def topPower : Nat := 308

/-- The units of the double nearest to `10 ^ k`. -/
def powerUnits (k : Nat) : Nat := Double.nearestUnits (Nat.pow 10 k * Double.one) 1

/-- The units of the double nearest to the quotient by the double of `10 ^ k`. -/
def dividedBy (units k : Nat) : Nat := Double.nearestUnits (units * Double.one) (powerUnits k)

/-- The units left after a division by `10 ^ k`, in as many divisions as the top power needs. -/
def shrink (units k : Nat) : Nat :=
  if k ≤ topPower then dividedBy units k
  else if units = 0 then 0
  else shrink (dividedBy units topPower) (k - topPower)
termination_by k
decreasing_by simp [topPower] at *; omega

/-- The double of `± significand * 10 ^ exponent`: both factors are doubles before they meet. -/
def scaled (negative : Bool) (significand : Nat) (exponent : Int) : Double :=
  let units := Double.nearestUnits (significand * Double.one) 1
  if exponent < 0 then .finite negative (shrink units (-exponent).toNat)
  else if exponent ≤ topPower then
    .ofRatio negative (units * powerUnits exponent.toNat) Double.one
  else if units = 0 then .finite negative 0
  else .infinity negative

/-! ### Digits -/

/-- Digits put after those of a number as long as the number fits 64 bits, and how many they were. -/
def gather (n : Nat) : List Char → Nat × Nat
  | [] => (n, 0)
  | c :: cs =>
    let next := ofDigitsFrom 10 n [c]
    if next < UInt64.size then
      let (n, count) := gather next cs
      (n, count + 1)
    else (n, 0)

/-- The double of a numeral's digits before and after its point and its power of ten. A digit before
the point that is not taken still counts as a place; one after the point does not. -/
def decimalNumber (negative : Bool) (whole fraction : List Char) (power : Int) : Double :=
  let (n, taken) := gather 0 whole
  let (n, places) := gather n fraction
  scaled negative n (power + (whole.length - taken : Nat) - places)

/-- The number `±` digits: kept exactly if it fits 64 bits, else a double. -/
def wholeNumber (minus : Bool) (digits : List Char) : Json :=
  let n := ofDigitsFrom 10 0 digits
  if minus then
    if 1 ≤ n && fitsSigned (-(n : Int)) then .negative n else .real (decimalNumber true digits [] 0)
  else if n < UInt64.size then .natural n else .real (decimalNumber false digits [] 0)

/-! ### Reading -/

/-- The fraction at the front of a text: its digits and the text after it. No point, no fraction. -/
def readFraction? : List Char → Option (List Char × List Char)
  | '.' :: rest =>
    let digits := rest.takeWhile isDigit
    if digits.isEmpty then none else some (digits, rest.dropWhile isDigit)
  | rest => some ([], rest)

/-- The exponent at the front of a text, if there is one, and the text after it. -/
def readPower? : List Char → Option (Option Int × List Char)
  | [] => some (none, [])
  | c :: rest =>
    if c = 'e' || c = 'E' then
      let (minus, rest) := match rest with
        | '-' :: more => (true, more)
        | '+' :: more => (false, more)
        | more => (false, more)
      let digits := rest.takeWhile isDigit
      if digits.isEmpty then none
      else
        let n : Int := ofDigitsFrom 10 0 digits
        some (some (if minus then -n else n), rest.dropWhile isDigit)
    else some (none, c :: rest)

/-- The number at the front of a text whose sign was read before. -/
def readNumber? (minus : Bool) (cs : List Char) : Option (Json × List Char) := do
  let whole := cs.takeWhile isDigit
  let rest := cs.dropWhile isDigit
  if whole.isEmpty || (whole.head? = some '0' && whole.length != 1) then none
  else
    let (fraction, rest) ← readFraction? rest
    let (power, rest) ← readPower? rest
    if fraction.isEmpty && power.isNone then some (wholeNumber minus whole, rest)
    else some (.real (decimalNumber minus whole fraction (power.getD 0)), rest)

end Parley.Json
