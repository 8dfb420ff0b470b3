import Parley.Text.Digits

/-!
# Places in a YAML text

A cursor is what is left of a text, and the line and column at which it stands; columns decide about
structure.

* `Cursor.skip` passes one character, `Cursor.skipLine` one line end, which may be two characters.
-/

namespace Parley.Yaml

/-- The character ends a line. -/
def isBreak (c : Char) : Bool :=
  c = '\n' || c = '\r' || c = '\u0085' || c = '\u2028' || c = '\u2029'

/-- The character is a space or a tab. -/
def isSpace (c : Char) : Bool := c = ' ' || c = '\t'

/-- The character is a space, a tab or a line end. -/
def isGap (c : Char) : Bool := isSpace c || isBreak c

/-- The character may stand in a name: an ASCII letter, a digit, a hyphen or an underscore. -/
def isNameChar (c : Char) : Bool := c.isAlphanum || c = '-' || c = '_'

/-- What is left of a text, and where that is. -/
structure Cursor where
  /-- The characters that are left. -/
  rest : List Char
  /-- The number of characters before. -/
  index : Nat := 0
  /-- The number of lines before. -/
  line : Nat := 0
  /-- The number of characters before on the line. -/
  column : Nat := 0
  deriving DecidableEq, Repr, Inhabited

namespace Cursor

/-- The character that comes next. -/
def peek? (c : Cursor) : Option Char := c.rest.head?

/-- The character that comes after some others. -/
def at? (c : Cursor) (n : Nat) : Option Char := c.rest[n]?

/-- The next character is this one. -/
def sees (c : Cursor) (d : Char) : Bool := c.rest.head? = some d

/-- The character after some others is a space, a tab or a line end, or there is none. -/
def gapAt (c : Cursor) (n : Nat) : Bool :=
  match c.at? n with
  | some d => isGap d
  | none => true

/-- The next character satisfies a test. -/
def seesAny (c : Cursor) (test : Char → Bool) : Bool := c.rest.head?.any test

/-- The line is over, or the text is. -/
def atLineEnd (c : Cursor) : Bool := c.rest.head?.all isBreak

/-- The cursor after one more character on the line. -/
def skip (c : Cursor) : Cursor :=
  match c.rest with
  | [] => c
  | _ :: rest => { c with rest, index := c.index + 1, column := c.column + 1 }

/-- The cursor after some more characters on the line. -/
def skipMany (c : Cursor) : Nat → Cursor
  | 0 => c
  | n + 1 => c.skip.skipMany n

/-- The line end at the cursor as one character, and the cursor on the next line; nothing if there
is no line end. Line ends of one paragraph are the newline, whichever way they were written. -/
def takeBreak (c : Cursor) : List Char × Cursor :=
  match c.rest with
  | '\r' :: '\n' :: rest => (['\n'], ⟨rest, c.index + 2, c.line + 1, 0⟩)
  | d :: rest =>
    if d = '\u2028' || d = '\u2029' then ([d], ⟨rest, c.index + 1, c.line + 1, 0⟩)
    else if isBreak d then (['\n'], ⟨rest, c.index + 1, c.line + 1, 0⟩)
    else ([], c)
  | [] => ([], c)

/-- The cursor on the next line. -/
def skipLine (c : Cursor) : Cursor := c.takeBreak.2

/-- The characters that satisfy a test, and the cursor after them. They must all be on the line. -/
def takeWhile (test : Char → Bool) (c : Cursor) : List Char × Cursor :=
  let taken := c.rest.takeWhile test
  (taken, c.skipMany taken.length)

/-- The cursor after the characters that satisfy a test. -/
def skipWhile (test : Char → Bool) (c : Cursor) : Cursor := (c.takeWhile test).2

/-- The cursor at the end of its line. -/
def skipToLineEnd (c : Cursor) : Cursor := c.skipWhile fun d => !isBreak d

/-- The mark that begins or ends a document stands at the cursor. -/
def atMark (c : Cursor) (d : Char) : Bool :=
  c.column = 0 && c.rest.take 3 = [d, d, d] && c.gapAt 3

/-- A mark of either kind stands at the cursor. -/
def atDocumentMark (c : Cursor) : Bool := c.atMark '-' || c.atMark '.'

end Cursor

end Parley.Yaml
