import Parley.Yaml.Quoted

/-!
# YAML block scalars

Scalars under a bar keep their lines; under an angle bracket, lines that do not begin with a space are
folded into paragraphs. A sign says whether the line ends at the end are dropped or kept, a digit how
far the lines are indented.

* `readBlock?` reads a block scalar from its mark on.
-/

namespace Parley.Yaml

/-- What becomes of the line ends at the end of a block scalar. -/
inductive Chomping where
  /-- None is kept. -/
  | strip
  /-- One is kept. -/
  | clip
  /-- All are kept. -/
  | keep
  deriving DecidableEq, Repr

/-- The sign of a block scalar, if there is one. -/
def readChomping (c : Cursor) : Option Chomping × Cursor :=
  if c.sees '+' then (some .keep, c.skip)
  else if c.sees '-' then (some .strip, c.skip)
  else (none, c)

/-- The digit of a block scalar, if there is one; zero is refused. -/
def readIndentation? (c : Cursor) : Option (Option Nat × Cursor) :=
  match c.peek? with
  | some d =>
    if d = '0' then none
    else if d.isDigit then some (some (d.toNat - 48), c.skip)
    else some (none, c)
  | none => some (none, c)

/-- The sign and the digit of a block scalar, in either order. -/
def readMarks? (c : Cursor) : Option (Chomping × Option Nat × Cursor) :=
  match readChomping c with
  | (some sign, c) => do
    let (digit, c) ← readIndentation? c
    some (sign, digit, c)
  | (none, c) => do
    let (digit, c) ← readIndentation? c
    let (sign, c) := if digit.isSome then readChomping c else (none, c)
    some (sign.getD .clip, digit, c)

/-- The cursor on the line after the marks, of which only a comment may follow. -/
def leaveMarks? (c : Cursor) : Option Cursor :=
  let c := c.skipWhile isSpace
  let c := if c.sees '#' then c.skipToLineEnd else c
  if c.atLineEnd then some c.skipLine else none

/-- The blank lines at the cursor: their line ends, the furthest column reached, and the cursor in
the first line that is not blank. With an indentation given, only as many spaces are passed, and a tab
before it is refused. `fuel` bounds the lines. -/
def readBlankLines (indent : Option Nat) :
    (fuel deepest : Nat) → Cursor → Option (List Char × Nat × Cursor)
  | 0, _, _ => none
  | fuel + 1, deepest, c =>
    let spaces := (c.rest.takeWhile (· = ' ')).length
    let passed := match indent with
      | some n => Nat.min spaces (n - c.column)
      | none => spaces
    let c := c.skipMany passed
    let deepest := Nat.max deepest c.column
    let early := match indent with
      | some n => c.column < n
      | none => true
    if early && c.sees '\t' then none
    else if c.seesAny isBreak then do
      let (b, c) := c.takeBreak
      let (bs, deepest, c) ← readBlankLines indent fuel deepest c
      some (b ++ bs, deepest, c)
    else some ([], deepest, c)

/-- Lines of a block scalar after some line ends: `last` ends the line before, `blank` are those of
blank lines after it, and `spaced` says that the line before began with a space. The text, the line
ends left over of both kinds, and the cursor after the scalar; `fuel` bounds the lines. -/
def readBlockLines (literal : Bool) (indent : Nat) :
    (fuel : Nat) → (last blank : List Char) → (spaced : Bool) → Cursor →
      Option (List Char × List Char × List Char × Cursor)
  | 0, _, _, _, _ => none
  | fuel + 1, last, blank, spaced, c =>
    if c.column = indent && c.peek?.isSome then do
      let begins := c.seesAny isSpace
      let joint :=
        if !literal && last = ['\n'] && !spaced && !begins then
          (if blank.isEmpty then [' '] else blank)
        else last ++ blank
      let (line, c) := c.takeWhile fun d => !isBreak d
      let (b, c) := c.takeBreak
      let (bs, _, c) ← readBlankLines (some indent) (c.rest.length + 1) 0 c
      let (text, last, blank, c) ← readBlockLines literal indent fuel b bs begins c
      some (joint ++ line ++ text, last, blank, c)
    else some ([], last, blank, c)

/-- A block scalar within lines that begin at column `indent - 1`, from its mark on. -/
def readBlock? (indent : Nat) (c : Cursor) : Option (String × Cursor) := do
  let (chomping, digit, after) ← readMarks? c.skip
  let start ← leaveMarks? after
  let given := digit.map fun n => if indent = 0 then n else indent - 1 + n
  let (blank, deepest, start) ← readBlankLines given (start.rest.length + 1) 0 start
  let column := given.getD (Nat.max deepest (Nat.max indent 1))
  let (text, last, blank, rest) ←
    readBlockLines (c.sees '|') column (start.rest.length + 1) [] blank false start
  let ending := match chomping with
    | .strip => []
    | .clip => last
    | .keep => last ++ blank
  some (String.ofList (text ++ ending), rest)

end Parley.Yaml
