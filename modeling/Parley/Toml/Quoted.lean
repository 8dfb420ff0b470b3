import Parley.Toml.Scalar

/-!
# TOML texts

Texts in double quotes with escapes, texts in single quotes taken literally, and both in the form
with three quotes, which may go over several lines.

* `readText?` reads a text of any form from the front of a text.
-/

namespace Parley.Toml

open Parley.Text

/-- The character may stand in a text or comment as it is: no control character but the tab. -/
def isPrintable (c : Char) : Bool := c = '\t' || (0x20 ≤ c.toNat && c.toNat != 0x7F)

/-- The character is a space or a tab. -/
def isSpace (c : Char) : Bool := c = ' ' || c = '\t'

/-- The character of a code, if it is one. -/
def character? (code : Nat) : Option Char :=
  if code < 0xD800 || (0xDFFF < code && code ≤ 0x10FFFF) then some (Char.ofNat code) else none

/-- The character of an escape by its letter. -/
def simpleEscape? (c : Char) : Option Char :=
  if c = 'b' then some '\x08'
  else if c = 't' then some '\t'
  else if c = 'n' then some '\n'
  else if c = 'f' then some '\x0c'
  else if c = 'r' then some '\r'
  else if c = '"' || c = '\\' then some c
  else none

/-- The character of an escape whose backslash was read before. -/
def readEscape? : Reads Char
  | 'u' :: a :: b :: c :: d :: rest => do
    let c ← character? (← ofDigits? 16 [a, b, c, d])
    some (c, rest)
  | 'U' :: a :: b :: c :: d :: e :: f :: g :: h :: rest => do
    let c ← character? (← ofDigits? 16 [a, b, c, d, e, f, g, h])
    some (c, rest)
  | c :: rest => (simpleEscape? c).map (·, rest)
  | [] => none

/-- A character in front of what was read behind it. -/
def onto (c : Char) (read : Option (List Char × List Char)) : Option (List Char × List Char) :=
  read.map fun (cs, rest) => (c :: cs, rest)

/-! ### On one line -/

/-- The rest of a text in double quotes; `fuel` bounds its length. -/
def readBasicWithin : (fuel : Nat) → Reads (List Char)
  | 0, _ => none
  | _ + 1, '"' :: rest => some ([], rest)
  | fuel + 1, '\\' :: rest => do
    let (c, rest) ← readEscape? rest
    onto c (readBasicWithin fuel rest)
  | fuel + 1, c :: rest => if isPrintable c then onto c (readBasicWithin fuel rest) else none
  | _ + 1, [] => none

/-- The rest of a text in single quotes. -/
def readLiteral? : Reads (List Char)
  | '\'' :: rest => some ([], rest)
  | c :: rest => if isPrintable c then onto c (readLiteral? rest) else none
  | [] => none

/-! ### On several lines -/

/-- What follows the spaces at the front. -/
def skipSpaces (cs : List Char) : List Char := cs.dropWhile isSpace

/-- What follows the end of a line at the front. -/
def lineEnd? : List Char → Option (List Char)
  | '\n' :: rest => some rest
  | '\r' :: '\n' :: rest => some rest
  | _ => none

/-- What follows a line end at the front, or everything. -/
def dropLineEnd (cs : List Char) : List Char := (lineEnd? cs).getD cs

/-- What follows the spaces and line ends at the front; `fuel` bounds them. -/
def skipLines : (fuel : Nat) → List Char → List Char
  | 0, cs => cs
  | fuel + 1, cs =>
    match lineEnd? (skipSpaces cs) with
    | some rest => skipLines fuel rest
    | none => skipSpaces cs

/-- The quotes at the end of a text in three quotes: those that belong to it, of which there are two
at most, and what follows. No answer if the text does not end here. -/
def closing? (quote : Char) (cs : List Char) : Option (List Char × List Char) :=
  let count := (cs.takeWhile (· = quote)).length
  if count < 3 then none
  else if count ≤ 5 then some (List.replicate (count - 3) quote, cs.drop count)
  else some ([], cs.drop 3)

/-- The rest of a text in three double quotes; `fuel` bounds its length. -/
def readBasicLinesWithin : (fuel : Nat) → Reads (List Char)
  | 0, _ => none
  | fuel + 1, cs =>
    match closing? '"' cs with
    | some (quotes, rest) => some (quotes, rest)
    | none =>
      match cs with
      | '\\' :: rest =>
        match lineEnd? (skipSpaces rest) with
        | some more => readBasicLinesWithin fuel (skipLines more.length more)
        | none => do
          let (c, rest) ← readEscape? rest
          onto c (readBasicLinesWithin fuel rest)
      | '\n' :: rest => onto '\n' (readBasicLinesWithin fuel rest)
      | '\r' :: '\n' :: rest => onto '\n' (readBasicLinesWithin fuel rest)
      | c :: rest => if isPrintable c then onto c (readBasicLinesWithin fuel rest) else none
      | [] => none

/-- The rest of a text in three single quotes; `fuel` bounds its length. -/
def readLiteralLinesWithin : (fuel : Nat) → Reads (List Char)
  | 0, _ => none
  | fuel + 1, cs =>
    match closing? '\'' cs with
    | some (quotes, rest) => some (quotes, rest)
    | none =>
      match cs with
      | '\n' :: rest => onto '\n' (readLiteralLinesWithin fuel rest)
      | '\r' :: '\n' :: rest => onto '\n' (readLiteralLinesWithin fuel rest)
      | c :: rest => if isPrintable c then onto c (readLiteralLinesWithin fuel rest) else none
      | [] => none

/-! ### Any form -/

/-- A text on one line. -/
def readLineText? : Reads (List Char)
  | '"' :: rest => readBasicWithin (rest.length + 1) rest
  | '\'' :: rest => readLiteral? rest
  | _ => none

/-- A text of any form. -/
def readText? : Reads (List Char)
  | '"' :: '"' :: '"' :: rest => readBasicLinesWithin (rest.length + 1) (dropLineEnd rest)
  | '\'' :: '\'' :: '\'' :: rest => readLiteralLinesWithin (rest.length + 1) (dropLineEnd rest)
  | cs => readLineText? cs

end Parley.Toml
