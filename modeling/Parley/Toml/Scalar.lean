import Parley.Double.Text
import Parley.Toml.Basic

/-!
# TOML numbers, dates and times

Each reader takes a value from the front of a text and returns what follows.

* `readWhole?` reads whole numbers in four bases, `readReal?` other numbers, with underscores between
  digits.
* `readMoment?` reads dates and times and brings them into their normal form.
-/

namespace Parley.Toml

open Parley.Text

/-- Takes something from the front of a text. -/
abbrev Reads (α : Type) := List Char → Option (α × List Char)

/-! ### Numbers -/

/-- The digits after a digit, each with at most one underscore in front, and what follows. -/
def moreDigits (base : Nat) : List Char → List Char × List Char
  | '_' :: c :: rest =>
    if isDigitOf base c then
      let (ds, rest) := moreDigits base rest
      (c :: ds, rest)
    else ([], '_' :: c :: rest)
  | c :: rest =>
    if isDigitOf base c then
      let (ds, rest) := moreDigits base rest
      (c :: ds, rest)
    else ([], c :: rest)
  | [] => ([], [])

/-- One or more digits of a base. -/
def readDigits? (base : Nat) : Reads (List Char)
  | c :: rest =>
    if isDigitOf base c then
      let (ds, rest) := moreDigits base rest
      some (c :: ds, rest)
    else none
  | [] => none

/-- A sign, if there is one. -/
def readSign : List Char → Bool × List Char
  | '-' :: rest => (true, rest)
  | '+' :: rest => (false, rest)
  | rest => (false, rest)

/-- The digits of a decimal whole number: a zero stands alone. -/
def readDecimal? : Reads (List Char)
  | '0' :: rest => some (['0'], rest)
  | rest => readDigits? 10 rest

/-- A number that fits a signed 64-bit word. -/
def fitting (i : Int) (rest : List Char) : Option (Toml × List Char) :=
  if fitsSigned i then some (.whole i, rest) else none

/-- A whole number in a base that its first two characters have named. -/
def readBased? (base : Nat) : Reads Toml := fun cs => do
  let (ds, rest) ← readDigits? base cs
  fitting (ofDigitsFrom base 0 ds) rest

/-- A whole number. -/
def readWhole? : Reads Toml
  | '0' :: 'x' :: rest => readBased? 16 rest
  | '0' :: 'o' :: rest => readBased? 8 rest
  | '0' :: 'b' :: rest => readBased? 2 rest
  | cs => do
    let (minus, rest) := readSign cs
    let (ds, rest) ← readDecimal? rest
    let n : Int := ofDigitsFrom 10 0 ds
    fitting (if minus then -n else n) rest

/-- An exponent with its mark; none if there is no mark, no answer if it has no digits. -/
def readExponent? : Reads (Option Int)
  | c :: rest =>
    if c = 'e' || c = 'E' then do
      let (minus, rest) := readSign rest
      let (ds, rest) ← readDigits? 10 rest
      let n : Int := ofDigitsFrom 10 0 ds
      some (some (if minus then -n else n), rest)
    else some (none, c :: rest)
  | [] => some (none, [])

/-- A number with a fraction, an exponent or both. -/
def readPointed? (minus : Bool) : Reads Toml := fun cs => do
  let (integer, rest) ← readDecimal? cs
  let (fraction, rest) ← match rest with
    | '.' :: more => readDigits? 10 more
    | _ => some ([], rest)
  let (exponent, rest) ← readExponent? rest
  if fraction.isEmpty && exponent.isNone then none
  else
    let x := Double.ofDecimal minus (ofDigitsFrom 10 0 (integer ++ fraction))
      (exponent.getD 0 - fraction.length)
    if x = .infinity false then none else some (.real x, rest)

/-- A number that is not written as a whole one. -/
def readReal? : Reads Toml := fun cs =>
  let (minus, rest) := readSign cs
  match rest with
  | 'i' :: 'n' :: 'f' :: rest => some (.real (.infinity minus), rest)
  | 'n' :: 'a' :: 'n' :: rest => some (.real .nan, rest)
  | rest => readPointed? minus rest

/-! ### Dates and times -/

/-- Two digits in a range. -/
def readPair? (low high : Nat) : Reads Nat
  | a :: b :: rest =>
    if isDigit a && isDigit b then
      let n := ofDigitsFrom 10 0 [a, b]
      if low ≤ n && n ≤ high then some (n, rest) else none
    else none
  | _ => none

/-- A character that must be there. -/
def expect? (c : Char) : Reads Unit
  | d :: rest => if d = c then some ((), rest) else none
  | [] => none

/-- The days of a month. -/
def daysOf (year month : Nat) : Nat :=
  if month = 2 then
    if year % 4 = 0 && (year % 100 != 0 || year % 400 = 0) then 29 else 28
  else if month = 4 || month = 6 || month = 9 || month = 11 then 30
  else 31

/-- Two digits of a number below a hundred. -/
def pair (n : Nat) : List Char := [digitChar (n / 10), digitChar (n % 10)]

/-- A date. -/
def readDate? : Reads (List Char)
  | a :: b :: c :: d :: rest =>
    if [a, b, c, d].all isDigit then do
      let ((), rest) ← expect? '-' rest
      let (month, rest) ← readPair? 1 12 rest
      let ((), rest) ← expect? '-' rest
      let (day, rest) ← readPair? 1 (daysOf (ofDigitsFrom 10 0 [a, b, c, d]) month) rest
      some ([a, b, c, d] ++ '-' :: pair month ++ '-' :: pair day, rest)
    else none
  | _ => none

/-- The digits of a fraction of a second as far as nanoseconds, without zeros at the end. -/
def fractionText (ds : List Char) : List Char :=
  let kept := ((ds.take 9).reverse.dropWhile (· = '0')).reverse
  if kept.isEmpty then [] else '.' :: kept

/-- The fraction of a second, if there is one. -/
def readSecondFraction? : Reads (List Char)
  | '.' :: rest =>
    let ds := rest.takeWhile isDigit
    if ds.isEmpty then some ([], '.' :: rest) else some (fractionText ds, rest.dropWhile isDigit)
  | rest => some ([], rest)

/-- A time of day. -/
def readTime? : Reads (List Char) := fun cs => do
  let (hour, rest) ← readPair? 0 23 cs
  let ((), rest) ← expect? ':' rest
  let (minute, rest) ← readPair? 0 59 rest
  let ((), rest) ← expect? ':' rest
  let (second, rest) ← readPair? 0 60 rest
  let (fraction, rest) ← readSecondFraction? rest
  some (pair hour ++ ':' :: pair minute ++ ':' :: pair second ++ fraction, rest)

/-- The offset of a time, if there is one; an offset of nothing is written with a plus. -/
def readOffset (cs : List Char) : List Char × List Char :=
  match cs with
  | [] => ([], [])
  | c :: rest =>
    if c = 'Z' || c = 'z' then (['Z'], rest)
    else if c = '+' || c = '-' then
      let read : Option (List Char × List Char) := do
        let (hour, rest) ← readPair? 0 23 rest
        let ((), rest) ← expect? ':' rest
        let (minute, rest) ← readPair? 0 59 rest
        let sign := if hour = 0 && minute = 0 then '+' else c
        some (sign :: pair hour ++ ':' :: pair minute, rest)
      read.getD ([], cs)
    else ([], cs)

/-- The time after a date, if there is one. -/
def readTimeOfDate (cs : List Char) : List Char × List Char :=
  match cs with
  | [] => ([], [])
  | c :: rest =>
    if c = 'T' || c = 't' || c = ' ' then
      match readTime? rest with
      | some (time, rest) =>
        let (offset, rest) := readOffset rest
        ('T' :: time ++ offset, rest)
      | none => ([], cs)
    else ([], cs)

/-- A date, a time, or both. -/
def readMoment? : Reads Toml := fun cs =>
  match readDate? cs with
  | some (date, rest) =>
    let (time, rest) := readTimeOfDate rest
    some (.moment (String.ofList (date ++ time)), rest)
  | none => (readTime? cs).map fun (time, rest) => (.moment (String.ofList time), rest)

/-! ### Any of them -/

/-- A value that is no text and holds no other values. -/
def readPlain? : Reads Toml
  | 't' :: 'r' :: 'u' :: 'e' :: rest => some (.flag true, rest)
  | 'f' :: 'a' :: 'l' :: 's' :: 'e' :: rest => some (.flag false, rest)
  | cs => (readMoment? cs).or ((readReal? cs).or (readWhole? cs))

end Parley.Toml
