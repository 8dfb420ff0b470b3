import Parley.Double.Basic
import Parley.Text.Digits

/-!
# Doubles as decimal text

Reading a decimal numeral gives the nearest double; writing a double takes the fewest digits that
read back as the same double, the nearest such digits if there are several, and never an exponent.

* `Double.ofText?` reads: an optional sign, then `inf`, `infinity` or `nan` in any case, or digits
  with an optional point and an optional exponent.
* `Double.shortest` finds the digits, `Double.text` writes them out in full.
-/

namespace Parley.Double

open Parley.Text

/-! ### Reading -/

/-- The characters of an ASCII word in lower case. -/
def lowerWord (cs : List Char) : List Char := cs.map Char.toLower

/-- An exponent: `e` or `E`, an optional sign, digits, and nothing after them. No text is the
exponent zero. -/
def readExponent? : List Char → Option Int
  | [] => some 0
  | c :: cs => if c = 'e' || c = 'E' then readInt? cs else none

/-- An unsigned numeral: digits with at most one point among or around them, then an exponent. -/
def readNumeral? (negative : Bool) (cs : List Char) : Option Double := do
  let whole := cs.takeWhile isDigit
  let rest := cs.dropWhile isDigit
  let (fraction, tail) := match rest with
    | '.' :: more => (more.takeWhile isDigit, more.dropWhile isDigit)
    | _ => ([], rest)
  if whole.isEmpty && fraction.isEmpty then none
  else
    let exponent ← readExponent? tail
    some (ofDecimal negative (ofDigitsFrom 10 0 (whole ++ fraction)) (exponent - fraction.length))

/-- A number without its sign: a word for infinity or for no number, or a numeral. -/
def readUnsignedText? (negative : Bool) (cs : List Char) : Option Double :=
  let word := lowerWord cs
  if word = "inf".toList || word = "infinity".toList then some (infinity negative)
  else if word = "nan".toList then some nan
  else readNumeral? negative cs

/-- The double a text stands for. -/
def ofText? (s : String) : Option Double :=
  match s.toList with
  | '+' :: cs => readUnsignedText? false cs
  | '-' :: cs => readUnsignedText? true cs
  | cs => readUnsignedText? false cs

/-! ### Writing -/

/-- The least `j ≤ limit` with `one ≤ units * 10 ^ j`, and `limit` if there is none. -/
def leadingZeros (units : Nat) : (limit j : Nat) → Nat
  | 0, j => j
  | limit + 1, j => if one ≤ units * Nat.pow 10 j then j else leadingZeros units limit (j + 1)

/-- The exponent of the power of ten that the first digit of a positive number counts. -/
def leadingExponent (units : Nat) : Int :=
  if one ≤ units then ((decimal (units / one)).length : Int) - 1
  else -(leadingZeros units 330 0 : Int)

/-- The number of units is the one nearest to `digits * 10 ^ exponent`. -/
def readsBack (units digits : Nat) (exponent : Int) : Bool :=
  (if 0 ≤ exponent then nearestUnits (digits * Nat.pow 10 exponent.toNat * one) 1
    else nearestUnits (digits * one) (Nat.pow 10 (-exponent).toNat)) == units

/-- The digits of `units` on the grid of the multiples of `10 ^ exponent`, if one of the two
neighbours on that grid reads back: the nearer one if both do, the upper one if both are as near. -/
def onGrid (units : Nat) (exponent : Int) : Option Nat :=
  let num := if 0 ≤ exponent then units else units * Nat.pow 10 (-exponent).toNat
  let den := if 0 ≤ exponent then one * Nat.pow 10 exponent.toNat else one
  let below := num / den
  let low := readsBack units below exponent
  let high := readsBack units (below + 1) exponent
  if low && high then (if 2 * (num % den) < den then some below else some (below + 1))
  else if low then some below
  else if high then some (below + 1)
  else none

/-- Digits without a zero at their end. A neighbour above may be the next power of ten, the number
`10` on a grid of one digit; on finer grids a coarser one has found it before. -/
def withoutLastZero (digits : Nat) (exponent : Int) : Nat × Int :=
  if digits % 10 = 0 then (digits / 10, exponent + 1) else (digits, exponent)

/-- The first grid of `count` and more digits, `fuel` grids at most, on which a neighbour reads
back. -/
def firstGrid (units : Nat) (lead : Int) : (fuel count : Nat) → Nat × Int
  | 0, count => (units / one, count)
  | fuel + 1, count =>
    let exponent := lead - count + 1
    match onGrid units exponent with
    | some digits => withoutLastZero digits exponent
    | none => firstGrid units lead fuel (count + 1)

/-- The fewest digits, with the exponent of the last one, that read back as a positive number of
units. Seventeen always do. -/
def shortest (units : Nat) : Nat × Int := firstGrid units (leadingExponent units) 17 1

/-- The plain decimal text of `digits * 10 ^ exponent`, with a point only if it has a fraction. -/
def positional (digits : Nat) (exponent : Int) : List Char :=
  let ds := decimal digits
  if 0 ≤ exponent then ds ++ List.replicate exponent.toNat '0'
  else
    let places := (-exponent).toNat
    if places < ds.length then ds.take (ds.length - places) ++ '.' :: ds.drop (ds.length - places)
    else '0' :: '.' :: List.replicate (places - ds.length) '0' ++ ds

/-- The plain decimal text of a number of units. -/
def unitsText (units : Nat) : List Char :=
  if units = 0 then ['0'] else positional (shortest units).1 (shortest units).2

/-- The text of a double: `NaN`, `inf`, or plain decimal digits, with a minus for any negative sign. -/
def text : Double → String
  | nan => "NaN"
  | infinity negative => if negative then "-inf" else "inf"
  | finite negative units =>
    String.ofList (if negative then '-' :: unitsText units else unitsText units)

end Parley.Double
