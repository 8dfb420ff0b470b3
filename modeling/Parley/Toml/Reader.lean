import Parley.Toml.Quoted

/-!
# Reading TOML documents

A document is a list of lines: headers, keys with values, and lines with nothing but a comment. Values
may go over several lines.

* `Toml.read?` reads a whole document as a table.
-/

namespace Parley.Toml

open Parley.Text

/-! ### Keys -/

/-- The character may stand in a key without quotes. -/
def isBare (c : Char) : Bool := c.isAlphanum || c = '-' || c = '_'

/-- One part of a key. -/
def readKeyPart? (cs : List Char) : Option (List Char × List Char) :=
  match cs with
  | '"' :: _ => readLineText? cs
  | '\'' :: _ => readLineText? cs
  | _ =>
    let bare := cs.takeWhile isBare
    if bare.isEmpty then none else some (bare, cs.dropWhile isBare)

/-- The parts of a key, with spaces around the points; `fuel` bounds the parts. -/
def readKeyWithin : (fuel : Nat) → Reads (List String)
  | 0, _ => none
  | fuel + 1, cs => do
    let (part, rest) ← readKeyPart? (skipSpaces cs)
    let part := String.ofList part
    match skipSpaces rest with
    | '.' :: rest =>
      let (parts, rest) ← readKeyWithin fuel rest
      some (part :: parts, rest)
    | rest => some ([part], rest)

/-- A key: the parts before the last one, and the last one. -/
def readKey? : Reads (List String × String) := fun cs => do
  let (parts, rest) ← readKeyWithin (cs.length + 1) cs
  let last ← parts.getLast?
  some ((parts.dropLast, last), rest)

/-! ### Comments and line ends -/

/-- What follows a comment, if there is one at the front. -/
def skipComment : List Char → List Char
  | '#' :: rest => rest.dropWhile isPrintable
  | cs => cs

/-- What follows spaces, line ends and comments; `fuel` bounds them. -/
def skipFiller : (fuel : Nat) → List Char → List Char
  | 0, cs => cs
  | fuel + 1, cs =>
    let rest := skipComment (skipSpaces cs)
    match lineEnd? rest with
    | some more => skipFiller fuel more
    | none => rest

/-- What follows the end of a line, which may have spaces and a comment before it. -/
def endOfLine? (cs : List Char) : Option (List Char) :=
  match skipComment (skipSpaces cs) with
  | [] => some []
  | rest => lineEnd? rest

/-! ### Values -/

mutual

/-- A value; `fuel` bounds the calls. -/
def readValueWithin : (fuel : Nat) → Reads Toml
  | 0, _ => none
  | fuel + 1, cs =>
    match cs with
    | '"' :: _ => (readText? cs).map fun (t, rest) => (.text (String.ofList t), rest)
    | '\'' :: _ => (readText? cs).map fun (t, rest) => (.text (String.ofList t), rest)
    | '[' :: rest => (readItemsWithin fuel rest).map fun (ts, rest) => (.items false ts, rest)
    | '\x7b' :: rest =>
      match skipSpaces rest with
      | '\x7d' :: rest => some (.table .braced [], rest)
      | rest => do
        let (pairs, rest) ← readPairsWithin fuel rest
        let t ← ofPairs? pairs
        some (t, rest)
    | _ => readPlain? cs

/-- The items of an array up to its closing bracket. -/
def readItemsWithin : (fuel : Nat) → Reads (List Toml)
  | 0, _ => none
  | fuel + 1, cs =>
    match skipFiller cs.length cs with
    | ']' :: rest => some ([], rest)
    | rest => do
      let (item, rest) ← readValueWithin fuel rest
      match skipFiller rest.length rest with
      | ',' :: rest =>
        let (others, rest) ← readItemsWithin fuel rest
        some (item :: others, rest)
      | ']' :: rest => some ([item], rest)
      | _ => none

/-- The keys and values of a table in braces up to its closing brace; there is one at least. -/
def readPairsWithin : (fuel : Nat) → Reads (List (List String × String × Toml))
  | 0, _ => none
  | fuel + 1, cs => do
    let ((path, key), rest) ← readKey? cs
    let ((), rest) ← expect? '=' rest
    let (value, rest) ← readValueWithin fuel (skipSpaces rest)
    match skipSpaces rest with
    | ',' :: rest =>
      let (pairs, rest) ← readPairsWithin fuel rest
      some ((path, key, value) :: pairs, rest)
    | '\x7d' :: rest => some ([(path, key, value)], rest)
    | _ => none

end

/-! ### Lines -/

/-- The document after a line that is not blank, and what follows the line. -/
def readLine? (d : Draft) (cs : List Char) : Option (Draft × List Char) :=
  match cs with
  | '[' :: '[' :: rest => do
    let ((path, key), rest) ← readKey? rest
    let ((), rest) ← expect? ']' rest
    let ((), rest) ← expect? ']' rest
    let rest ← endOfLine? rest
    some (← d.arrayHeader? path key, rest)
  | '[' :: rest => do
    let ((path, key), rest) ← readKey? rest
    let ((), rest) ← expect? ']' rest
    let rest ← endOfLine? rest
    some (← d.header? path key, rest)
  | _ => do
    let ((path, key), rest) ← readKey? cs
    let ((), rest) ← expect? '=' rest
    let rest := skipSpaces rest
    let (value, rest) ← readValueWithin (rest.length + 1) rest
    let rest ← endOfLine? rest
    some (← d.define? path key value, rest)

/-- The document after all lines; `fuel` bounds their number. -/
def readLines : (fuel : Nat) → Draft → List Char → Option Draft
  | 0, _, _ => none
  | fuel + 1, d, cs =>
    match skipFiller cs.length cs with
    | [] => some d
    | rest => do
      let (d, rest) ← readLine? d rest
      readLines fuel d rest

/-- The table that a document stands for. A mark of the byte order may stand in front of it. -/
def read? (text : String) : Option Toml :=
  let cs := text.toList
  let cs := if cs.head? = some '\uFEFF' then cs.tail else cs
  (readLines (cs.length + 1) {} cs).bind Draft.finish?

end Parley.Toml
