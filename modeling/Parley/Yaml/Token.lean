import Parley.Yaml.Block

/-!
# YAML tokens

A YAML text as a list of tokens. Indentation becomes tokens that open and close collections, and a key
is only known by the colon behind it: its token is put in where the key began.

* `tokens?` are the tokens of a whole text.
-/

namespace Parley.Yaml

/-- How a scalar was written. -/
inductive Style where
  /-- Without quotes. -/
  | plain
  /-- In quotes. -/
  | quoted
  /-- Under a bar. -/
  | literal
  /-- Under an angle bracket. -/
  | folded
  deriving DecidableEq, Repr, Inhabited

/-- A token. -/
inductive Token where
  /-- The version of the language. -/
  | version
  /-- A handle and what it stands for. -/
  | handle (name lead : String)
  /-- The mark that begins a document. -/
  | documentStart
  /-- The mark that ends a document. -/
  | documentEnd
  /-- A list of entries begins. -/
  | blockSequence
  /-- A list of keys and values begins. -/
  | blockMapping
  /-- A list that began by indentation ends. -/
  | blockEnd
  /-- An opening bracket. -/
  | flowSequence
  /-- A closing bracket. -/
  | flowSequenceEnd
  /-- An opening brace. -/
  | flowMapping
  /-- A closing brace. -/
  | flowMappingEnd
  /-- The hyphen before an entry. -/
  | entry
  /-- A comma. -/
  | comma
  /-- A key follows. -/
  | key
  /-- A value follows. -/
  | value
  /-- The name of a node given before. -/
  | alias (name : String)
  /-- A name for the node that follows. -/
  | anchor (name : String)
  /-- The tag of the node that follows: a handle, which may be empty, and what is behind it. -/
  | tag (handle suffix : String)
  /-- A scalar. -/
  | scalar (text : String) (style : Style)
  deriving DecidableEq, Repr, Inhabited

/-- A place where a key may have begun. -/
structure KeyPlace where
  /-- The number of tokens before it. -/
  count : Nat
  /-- Where it is. -/
  start : Cursor
  /-- It stands where nothing but a key may stand. -/
  required : Bool
  deriving DecidableEq, Repr, Inhabited

/-- The scanning of a text. -/
structure Scan where
  /-- Where it stands. -/
  cursor : Cursor
  /-- The tokens so far, last first. -/
  found : List Token := []
  /-- The number of tokens so far. -/
  count : Nat := 0
  /-- The column of the innermost list by indentation, one more; zero outside of all. -/
  indent : Nat := 0
  /-- The columns of the lists around it, likewise. -/
  indents : List Nat := []
  /-- A key may begin here. -/
  keyAllowed : Bool := true
  /-- The place where the innermost key may have begun, if it may have. -/
  place : Option KeyPlace := none
  /-- The places around it, one for each open bracket or brace. -/
  places : List (Option KeyPlace) := []
  deriving Inhabited

namespace Scan

/-- The scanning is within brackets or braces. -/
def inFlow (s : Scan) : Bool := !s.places.isEmpty

/-- One more token. -/
def emit (s : Scan) (t : Token) : Scan := { s with found := t :: s.found, count := s.count + 1 }

/-- One more token, before which some number of tokens come. -/
def insertAt (s : Scan) (n : Nat) (t : Token) : Scan :=
  let later := s.count - n
  { s with found := s.found.take later ++ t :: s.found.drop later, count := s.count + 1 }

/-- The cursor moved. -/
def standAt (s : Scan) (c : Cursor) : Scan := { s with cursor := c }

/-! ### Keys and indentation -/

/-- No key begins where one may have begun; refused if one had to. -/
def dropKey? (s : Scan) : Option Scan :=
  if s.place.any (·.required) then none else some { s with place := none }

/-- A key may begin at the cursor, if keys may begin at all. -/
def saveKey? (s : Scan) : Option Scan :=
  if s.keyAllowed then do
    let s ← s.dropKey?
    let required := !s.inFlow && s.indent = s.cursor.column + 1
    some { s with place := some ⟨s.count, s.cursor, required⟩ }
  else some s

/-- The place where a key has begun, if one has: it is on the same line and not far away. Refused if
a key had to begin there and did not. -/
def keyPlace? (s : Scan) : Option (Option KeyPlace) :=
  match s.place with
  | none => some none
  | some p =>
    if p.start.line < s.cursor.line || p.start.index + 1024 < s.cursor.index then
      if p.required then none else some none
    else some (some p)

/-- A list by indentation opened at a column, if that is further in than the innermost one; its token
comes after `n` tokens. -/
def openList (s : Scan) (column n : Nat) (t : Token) : Scan :=
  if !s.inFlow && s.indent < column + 1 then
    { s.insertAt n t with indent := column + 1, indents := s.indent :: s.indents }
  else s

/-- All lists by indentation further in than a column closed; the column is given one more. -/
def closeTo (s : Scan) (column : Nat) : List Nat → Scan
  | [] => s
  | outer :: indents =>
    if column < s.indent then
      closeTo { s.emit .blockEnd with indent := outer, indents } column indents
    else s

/-- All lists by indentation further in than a column closed, if they can be closed here. -/
def close (s : Scan) (column : Nat) : Scan := if s.inFlow then s else s.closeTo column s.indents

/-! ### Single tokens -/

/-- A mark of a document, or a directive, is coming. -/
def leaveAll? (s : Scan) : Option Scan := do
  let s ← (s.close 0).dropKey?
  some { s with keyAllowed := false }

/-- A bracket or brace opens. -/
def openFlow? (s : Scan) (t : Token) : Option Scan := do
  let s ← s.saveKey?
  some { s.emit t with
    cursor := s.cursor.skip, keyAllowed := true, place := none, places := s.place :: s.places }

/-- A bracket or brace closes. -/
def closeFlow? (s : Scan) (t : Token) : Option Scan := do
  let s ← s.dropKey?
  let s := { s.emit t with cursor := s.cursor.skip, keyAllowed := false }
  match s.places with
  | place :: places => some { s with place, places }
  | [] => some s

/-- A comma. -/
def comma? (s : Scan) : Option Scan := do
  let s ← s.dropKey?
  some { s.emit .comma with cursor := s.cursor.skip, keyAllowed := true }

/-- A hyphen before an entry. -/
def entry? (s : Scan) : Option Scan :=
  if !s.inFlow && !s.keyAllowed then none
  else do
    let s ← (s.openList s.cursor.column s.count .blockSequence).dropKey?
    some { s.emit .entry with cursor := s.cursor.skip, keyAllowed := true }

/-- A question mark before a key. -/
def questionKey? (s : Scan) : Option Scan :=
  if !s.inFlow && !s.keyAllowed then none
  else do
    let s ← (s.openList s.cursor.column s.count .blockMapping).dropKey?
    some { s.emit .key with cursor := s.cursor.skip, keyAllowed := !s.inFlow }

/-- A colon before a value. -/
def colon? (s : Scan) : Option Scan := do
  match ← s.keyPlace? with
  | some p =>
    let s := (s.insertAt p.count .key).openList p.start.column p.count .blockMapping
    some { s.emit .value with cursor := s.cursor.skip, keyAllowed := false, place := none }
  | none =>
    if !s.inFlow && !s.keyAllowed then none
    else
      let s := { s with place := none }.openList s.cursor.column s.count .blockMapping
      some { s.emit .value with cursor := s.cursor.skip, keyAllowed := !s.inFlow }

/-- The name of a node, after an ampersand or an asterisk. -/
def name? (s : Scan) (token : String → Token) : Option Scan := do
  let s ← s.saveKey?
  let (name, c) := s.cursor.skip.takeWhile isNameChar
  if name.isEmpty || !(c.gapAt 0 || c.seesAny fun d => "?:,]\x7d%@\x60".toList.contains d) then none
  else some { s.emit (token (String.ofList name)) with cursor := c, keyAllowed := false }

/-! ### Tags -/

/-- The character may stand in a tag; commas and brackets only if it is given in full. -/
def isTagChar (full : Bool) (d : Char) : Bool :=
  isNameChar d || ";/?:@&=+$.!~*'()%".toList.contains d || (full && (d = ',' || d = '[' || d = ']'))

/-- The text of a tag with its numeric escapes resolved. They must be ASCII characters. -/
def unescapeTag? : List Char → Option (List Char)
  | '%' :: a :: b :: rest => do
    let code ← Text.ofDigits? 16 [a, b]
    if code < 128 then (unescapeTag? rest).map (Char.ofNat code :: ·) else none
  | '%' :: _ => none
  | c :: rest => (unescapeTag? rest).map (c :: ·)
  | [] => some []

/-- Characters of a tag, and the cursor after them. -/
def tagChars? (full : Bool) (c : Cursor) : Option (List Char × Cursor) := do
  let (cs, c) := c.takeWhile (isTagChar full)
  some (← unescapeTag? cs, c)

/-- The handle and the rest of a tag, from its exclamation mark on. -/
def readTag? (c : Cursor) : Option (Token × Cursor) :=
  if c.at? 1 = some '<' then do
    let (cs, c) ← tagChars? true (c.skipMany 2)
    if cs.isEmpty || !c.sees '>' then none else some (.tag "" (String.ofList cs), c.skip)
  else
    let (name, after) := c.skip.takeWhile isNameChar
    if after.sees '!' then do
      let (cs, c) ← tagChars? false after.skip
      if cs.isEmpty then none
      else some (.tag (String.ofList ('!' :: name ++ ['!'])) (String.ofList cs), c)
    else do
      let (cs, c) ← tagChars? false c.skip
      if cs.isEmpty then some (.tag "" "!", c) else some (.tag "!" (String.ofList cs), c)

/-- A tag. -/
def tag? (s : Scan) : Option Scan := do
  let s ← s.saveKey?
  let (t, c) ← readTag? s.cursor
  if c.gapAt 0 || (s.inFlow && c.sees ',') then
    some { s.emit t with cursor := c, keyAllowed := false }
  else none

/-! ### Directives -/

/-- The number at the cursor. -/
def number? (c : Cursor) : Option (Nat × Cursor) := do
  let (ds, c) := c.takeWhile Text.isDigit
  some (← Text.ofDigits? 10 ds, c)

/-- The version in a directive: the language has the versions 1.1 and 1.2. -/
def version? (c : Cursor) : Option (Token × Cursor) := do
  let (major, c) ← number? (c.skipWhile isSpace)
  if !c.sees '.' then none
  else
    let (minor, c) ← number? c.skip
    if major = 1 && (minor = 1 || minor = 2) then some (.version, c) else none

/-- The handle in a directive and what it stands for. -/
def handleOf? (c : Cursor) : Option (Token × Cursor) := do
  let c := c.skipWhile isSpace
  if !c.sees '!' then none
  else
    let (name, after) := c.skip.takeWhile isNameChar
    let (handle, c) ←
      if after.sees '!' then some (String.ofList ('!' :: name ++ ['!']), after.skip)
      else if name.isEmpty then some ("!", after) else none
    if !c.seesAny isSpace then none
    else
      let (cs, c) ← tagChars? true (c.skipWhile isSpace)
      if cs.isEmpty || !c.gapAt 0 then none
      else some (.handle handle (String.ofList cs), c)

/-- A directive, with all that is on its line. -/
def directive? (s : Scan) : Option Scan := do
  let s ← s.leaveAll?
  let (name, c) := s.cursor.skip.takeWhile isNameChar
  let (t, c) ←
    if name = "YAML".toList then version? c
    else if name = "TAG".toList then handleOf? c
    else none
  let c := c.skipWhile isSpace
  let c := if c.sees '#' then c.skipToLineEnd else c
  if c.atLineEnd then some ((s.emit t).standAt c.skipLine) else none

/-! ### Scalars -/

/-- A block scalar. -/
def block? (s : Scan) : Option Scan := do
  let s ← s.dropKey?
  let (text, c) ← readBlock? s.indent s.cursor
  let style : Style := if s.cursor.sees '|' then .literal else .folded
  some { s.emit (.scalar text style) with cursor := c, keyAllowed := true }

/-- A scalar in quotes. -/
def quoted? (s : Scan) : Option Scan := do
  let s ← s.saveKey?
  let (text, c) ← readQuoted? s.cursor
  some { s.emit (.scalar text .quoted) with cursor := c, keyAllowed := false }

/-- A plain scalar. -/
def plain? (s : Scan) : Option Scan := do
  let s ← s.saveKey?
  let (text, c, broken) ← readPlain? s.inFlow s.indent s.cursor
  some { s.emit (.scalar text .plain) with cursor := c, keyAllowed := broken }

/-! ### The next token -/

/-- Blanks, comments and line ends passed; `fuel` bounds the lines. Where a key may begin by
indentation, a tab is not passed. -/
def toToken (s : Scan) : (fuel : Nat) → Scan
  | 0 => s
  | fuel + 1 =>
    let c := if s.cursor.column = 0 && s.cursor.sees '\uFEFF' then s.cursor.skip else s.cursor
    let c := c.skipWhile fun d => d = ' ' || (d = '\t' && (s.inFlow || !s.keyAllowed))
    let c := if c.sees '#' then c.skipToLineEnd else c
    if c.seesAny isBreak then
      { s with cursor := c.skipLine, keyAllowed := s.keyAllowed || !s.inFlow }.toToken fuel
    else s.standAt c

/-- A plain scalar may begin with the next character. -/
def beginsPlain (s : Scan) (d : Char) : Bool :=
  let c := s.cursor
  if d = '-' then !(c.at? 1).any isSpace
  else if d = '?' || d = ':' then !s.inFlow && !c.gapAt 1
  else !isGap d && !",[]\x7b\x7d#&*!|>'\"%@\x60".toList.contains d

/-- The token that begins with a character; the cursor stands at it. -/
def token? (s : Scan) (d : Char) : Option Scan :=
  let c := s.cursor
  if c.column = 0 && d = '%' then s.directive?
  else if c.atMark '-' then s.leaveAll?.map fun s => (s.emit .documentStart).standAt (c.skipMany 3)
  else if c.atMark '.' then s.leaveAll?.map fun s => (s.emit .documentEnd).standAt (c.skipMany 3)
  else if d = '[' then s.openFlow? .flowSequence
  else if d = '\x7b' then s.openFlow? .flowMapping
  else if d = ']' then s.closeFlow? .flowSequenceEnd
  else if d = '\x7d' then s.closeFlow? .flowMappingEnd
  else if d = ',' then s.comma?
  else if d = '-' && c.gapAt 1 then s.entry?
  else if d = '?' && (s.inFlow || c.gapAt 1) then s.questionKey?
  else if d = ':' && (s.inFlow || c.gapAt 1) then s.colon?
  else if d = '*' then s.name? .alias
  else if d = '&' then s.name? .anchor
  else if d = '!' then s.tag?
  else if (d = '|' || d = '>') && !s.inFlow then s.block?
  else if d = '\'' || d = '"' then s.quoted?
  else if s.beginsPlain d then s.plain?
  else none

/-- All tokens from here on; `fuel` bounds them. -/
def run (s : Scan) : (fuel : Nat) → Option (List Token)
  | 0 => none
  | fuel + 1 =>
    let s := s.toToken (s.cursor.rest.length + 1)
    match s.cursor.peek? with
    | none => (s.leaveAll?).map (·.found.reverse)
    | some d => do
      let s ← (s.close (s.cursor.column + 1)).token? d
      s.run fuel

end Scan

/-- The tokens of a text. -/
def tokens? (text : String) : Option (List Token) :=
  let cs := text.toList
  Scan.run { cursor := { rest := cs } } (cs.length + 1)

end Parley.Yaml
