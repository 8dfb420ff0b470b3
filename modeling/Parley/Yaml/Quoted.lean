import Parley.Yaml.Cursor

/-!
# YAML scalars on and between lines

Scalars in quotes and scalars without them may go over several lines. The line ends within are folded:
a single one is a space, and of several the first one is dropped.

* `takeGap` reads the spaces and line ends between two words.
* `readQuoted?` reads a scalar in quotes, `readPlain?` one without them.
-/

namespace Parley.Yaml

open Parley.Text

/-! ### Between words -/

/-- Spaces or line ends between two words. -/
structure Gap where
  /-- The spaces, as long as no line has ended. -/
  spaces : List Char := []
  /-- The first line end. -/
  first : List Char := []
  /-- The line ends after the first one. -/
  others : List Char := []
  /-- A line has ended. -/
  broken : Bool := false
  deriving DecidableEq, Repr, Inhabited

namespace Gap

/-- What a gap stands for. -/
def folded (g : Gap) : List Char :=
  if !g.broken then g.spaces
  else if g.first = ['\n'] then (if g.others.isEmpty then [' '] else g.others)
  else g.first ++ g.others

/-- The gap with one more space; after a line end spaces do not count. -/
def addSpace (g : Gap) (c : Char) : Gap :=
  if g.broken then g else { g with spaces := g.spaces ++ [c] }

/-- The gap with one more line end. -/
def addBreak (g : Gap) (b : List Char) : Gap :=
  if g.broken then { g with others := g.others ++ b }
  else { g with spaces := [], first := b, broken := true }

end Gap

/-- The rest of a gap and the cursor after it. On a new line no tab may come before column `indent`;
`fuel` bounds the characters. -/
def takeGap (indent : Nat) : (fuel : Nat) → Gap → Cursor → Option (Gap × Cursor)
  | 0, _, _ => none
  | fuel + 1, g, c =>
    match c.peek? with
    | none => some (g, c)
    | some d =>
      if isSpace d then
        if g.broken && c.column < indent && d = '\t' then none
        else takeGap indent fuel (g.addSpace d) c.skip
      else if isBreak d then takeGap indent fuel (g.addBreak c.takeBreak.1) c.skipLine
      else some (g, c)

/-! ### Quoted scalars -/

/-- The character of a simple escape by its letter. -/
def simpleEscape? (c : Char) : Option Char :=
  if c = '0' then some '\x00'
  else if c = 'a' then some '\x07'
  else if c = 'b' then some '\x08'
  else if c = 't' || c = '\t' then some '\t'
  else if c = 'n' then some '\n'
  else if c = 'v' then some '\x0b'
  else if c = 'f' then some '\x0c'
  else if c = 'r' then some '\r'
  else if c = 'e' then some '\x1b'
  else if c = ' ' || c = '"' || c = '/' || c = '\\' then some c
  else if c = 'N' then some '\u0085'
  else if c = '_' then some '\u00a0'
  else if c = 'L' then some '\u2028'
  else if c = 'P' then some '\u2029'
  else none

/-- The number of digits of a numeric escape by its letter. -/
def escapeWidth? (c : Char) : Option Nat :=
  if c = 'x' then some 2 else if c = 'u' then some 4 else if c = 'U' then some 8 else none

/-- The character of an escape, and the cursor after it; the backslash was read before. -/
def readEscape? (c : Cursor) : Option (Char × Cursor) := do
  let letter ← c.peek?
  let c := c.skip
  match escapeWidth? letter with
  | some width =>
    let code ← ofDigits? 16 (c.rest.take width)
    if (c.rest.take width).length = width && (code < 0xD800 || 0xDFFF < code) && code ≤ 0x10FFFF then
      some (Char.ofNat code, c.skipMany width)
    else none
  | none => (simpleEscape? letter).map (·, c)

/-- Some characters in front of what was read behind them. -/
def behind (front : List Char) (read : Option (List Char × Cursor)) : Option (List Char × Cursor) :=
  read.map fun (cs, c) => (front ++ cs, c)

/-- The rest of a scalar in quotes and the cursor after its closing quote; `fuel` bounds the
characters. -/
def readQuotedWithin (double : Bool) : (fuel : Nat) → Cursor → Option (List Char × Cursor)
  | 0, _ => none
  | fuel + 1, c =>
    match c.peek? with
    | none => none
    | some d =>
      if c.atDocumentMark then none
      else if !double && d = '\'' && c.at? 1 = some '\'' then
        behind [d] (readQuotedWithin double fuel (c.skipMany 2))
      else if d = (if double then '"' else '\'') then some ([], c.skip)
      else if double && d = '\\' then
        if (c.at? 1).any isBreak then do
          let (g, c) ← takeGap 0 c.rest.length { broken := true } c.skip.skipLine
          behind g.folded (readQuotedWithin double fuel c)
        else do
          let (e, c) ← readEscape? c.skip
          behind [e] (readQuotedWithin double fuel c)
      else if isGap d then do
        let (g, c) ← takeGap 0 (c.rest.length + 1) {} c
        behind g.folded (readQuotedWithin double fuel c)
      else behind [d] (readQuotedWithin double fuel c.skip)

/-- A scalar in quotes of either kind, at its opening quote. -/
def readQuoted? (c : Cursor) : Option (String × Cursor) :=
  (readQuotedWithin (c.sees '"') (c.rest.length + 1) c.skip).map fun (cs, c) => (String.ofList cs, c)

/-! ### Plain scalars -/

/-- The character is a bracket, a brace or a comma. -/
def isFlowMark (c : Char) : Bool :=
  c = ',' || c = '[' || c = ']' || c = '\x7b' || c = '\x7d'

/-- A plain scalar ends before the next character: at a colon with a gap behind it, and within
brackets or braces at one of these or a comma. -/
def endsPlain (flow : Bool) (c : Cursor) : Bool :=
  (c.sees ':' && c.gapAt 1) || (flow && c.seesAny isFlowMark)

/-- Within brackets or braces, a colon with one of these, a comma or a question mark behind it cannot
stand in a plain scalar. -/
def spoilsPlain (flow : Bool) (c : Cursor) : Bool :=
  flow && c.sees ':' && (c.at? 1).any fun d => isFlowMark d || d = '?'

/-- The characters up to the next gap or the end of a plain scalar; `fuel` bounds them. -/
def readWord (flow : Bool) : (fuel : Nat) → Cursor → Option (List Char × Cursor)
  | 0, _ => none
  | fuel + 1, c =>
    match c.peek? with
    | none => some ([], c)
    | some d =>
      if isGap d then some ([], c)
      else if spoilsPlain flow c then none
      else if endsPlain flow c then some ([], c)
      else behind [d] (readWord flow fuel c.skip)

/-- The words of a plain scalar and the gaps between them, after a gap; the cursor after it, and
whether it is on a new line. On a new line a word must not be left of column `indent`, except within
brackets or braces. `fuel` bounds the words. -/
def readPlainWithin (flow : Bool) (indent : Nat) :
    (fuel : Nat) → Gap → Cursor → Option (List Char × Cursor × Bool)
  | 0, _, _ => none
  | fuel + 1, g, c =>
    if c.atDocumentMark || c.sees '#' then some ([], c, g.broken)
    else do
      let (word, c) ← readWord flow (c.rest.length + 1) c
      if word.isEmpty then some ([], c, g.broken)
      else if !c.seesAny isGap then some (g.folded ++ word, c, false)
      else
        let (next, c) ← takeGap indent (c.rest.length + 1) {} c
        if !flow && c.column < indent then some (g.folded ++ word, c, next.broken)
        else
          let (cs, c, broken) ← readPlainWithin flow indent fuel next c
          some (g.folded ++ word ++ cs, c, broken)

/-- A plain scalar, the cursor after it, and whether that is on a new line. -/
def readPlain? (flow : Bool) (indent : Nat) (c : Cursor) : Option (String × Cursor × Bool) :=
  (readPlainWithin flow indent (c.rest.length + 1) {} c).map fun (cs, c, broken) =>
    (String.ofList cs, c, broken)

end Parley.Yaml
