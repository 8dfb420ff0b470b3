import Parley.Json.Basic
import Parley.Double.Text

/-!
# Writing JSON text

The compact text of a value: no blanks, members in their order, and in strings an escape only for
the quote, the backslash and the control characters.

* `Json.text` writes a value; `Json.render` is the same as a list of characters.
-/

namespace Parley.Json

open Parley.Text

/-- The characters that stand for one character inside a string. -/
def escape (c : Char) : List Char :=
  if c = '"' then ['\\', '"']
  else if c = '\\' then ['\\', '\\']
  else if c = '\x08' then ['\\', 'b']
  else if c = '\x0c' then ['\\', 'f']
  else if c = '\n' then ['\\', 'n']
  else if c = '\r' then ['\\', 'r']
  else if c = '\t' then ['\\', 't']
  else if c.toNat < 0x20 then '\\' :: 'u' :: hex 4 c.toNat
  else [c]

/-- A string between its quotes. -/
def quote (s : String) : List Char := '"' :: s.toList.flatMap escape ++ ['"']

/-- The text of a double with a point in it. -/
def realText (x : Double) : List Char :=
  let cs := x.text.toList
  if cs.contains '.' then cs else cs ++ ['.', '0']

mutual

/-- The compact text of a value. -/
def render : Json → List Char
  | null => ['n', 'u', 'l', 'l']
  | bool true => ['t', 'r', 'u', 'e']
  | bool false => ['f', 'a', 'l', 's', 'e']
  | natural n => decimal n
  | negative n => '-' :: decimal n
  | real x => realText x
  | string s => quote s
  | array items => '[' :: (renderItems items ++ [']'])
  | object members => '\x7b' :: (renderMembers members ++ ['\x7d'])

/-- The items with commas between them. -/
def renderItems : List Json → List Char
  | [] => []
  | [j] => render j
  | j :: k :: js => render j ++ ',' :: renderItems (k :: js)

/-- The members with commas between them. -/
def renderMembers : List (String × Json) → List Char
  | [] => []
  | [(name, j)] => quote name ++ ':' :: render j
  | (name, j) :: m :: ms => quote name ++ ':' :: (render j ++ ',' :: renderMembers (m :: ms))

end

/-- The compact text of a value. -/
def text (j : Json) : String := String.ofList j.render

end Parley.Json
