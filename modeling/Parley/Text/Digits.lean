/-!
# Digits and whole numbers as text

Digit values in any base up to sixteen, the number a row of digits stands for, and the decimal
and hexadecimal texts of naturals.

* `ofDigits?` reads a non-empty row of digits in a base; `decimal` writes a natural in base ten.
* `readSigned?` and `readUnsigned?` read whole numbers with an optional sign and a range check.
-/

namespace Parley.Text

/-- The value of a hexadecimal digit, in either case. -/
def digitValue? (c : Char) : Option Nat :=
  if '0' ≤ c && c ≤ '9' then some (c.toNat - 48)
  else if 'a' ≤ c && c ≤ 'f' then some (c.toNat - 87)
  else if 'A' ≤ c && c ≤ 'F' then some (c.toNat - 55)
  else none

/-- The character is a digit of the base, which is at most sixteen. -/
def isDigitOf (base : Nat) (c : Char) : Bool :=
  match digitValue? c with
  | some d => d < base
  | none => false

/-- The character is one of the ten decimal digits. -/
def isDigit (c : Char) : Bool := '0' ≤ c && c ≤ '9'

/-- The number a row of digits stands for after a part worth `acc` was read. Characters that are
no digits count as zero. -/
def ofDigitsFrom (base acc : Nat) : List Char → Nat
  | [] => acc
  | c :: cs => ofDigitsFrom base (acc * base + (digitValue? c).getD 0) cs

/-- The number a row of digits of the base stands for; no digits at all, or a character that is none,
is refused. -/
def ofDigits? (base : Nat) (cs : List Char) : Option Nat :=
  if !cs.isEmpty && cs.all (isDigitOf base) then some (ofDigitsFrom base 0 cs) else none

/-- The digit of a value below sixteen, in lower case. -/
def digitChar (d : Nat) : Char := if d < 10 then Char.ofNat (48 + d) else Char.ofNat (87 + d)

/-- The last `width` digits of a natural in base sixteen. -/
def hex : (width n : Nat) → List Char
  | 0, _ => []
  | width + 1, n => hex width (n / 16) ++ [digitChar (n % 16)]

/-- The decimal digits of a natural, without leading zeros. -/
def decimal (n : Nat) : List Char :=
  if n < 10 then [digitChar n] else decimal (n / 10) ++ [digitChar (n % 10)]
termination_by n

/-- The decimal text of a natural. -/
def natText (n : Nat) : String := String.ofList (decimal n)

/-- A whole number with an optional sign in front of its decimal digits. -/
def readInt? : List Char → Option Int
  | '+' :: cs => (ofDigits? 10 cs).map Int.ofNat
  | '-' :: cs => (ofDigits? 10 cs).map fun n => -(n : Int)
  | cs => (ofDigits? 10 cs).map Int.ofNat

/-- The whole number fits a signed 64-bit word. -/
def fitsSigned (i : Int) : Bool := Int64.minValue.toInt ≤ i && i ≤ Int64.maxValue.toInt

/-- A whole number that fits a signed 64-bit word, with an optional sign. -/
def readSigned? (cs : List Char) : Option Int := (readInt? cs).filter fitsSigned

/-- A whole number that fits an unsigned 64-bit word; a plus may stand in front, a minus may not. -/
def readUnsigned? (cs : List Char) : Option Nat :=
  let digits := match cs with
    | '+' :: rest => rest
    | _ => cs
  (ofDigits? 10 digits).filter (· < UInt64.size)

end Parley.Text
