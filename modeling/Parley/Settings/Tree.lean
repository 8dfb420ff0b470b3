import Parley.Double.Text
import Parley.Settings.Dialect
import Parley.Text.Blank
import Parley.Text.Lower

/-!
# Trees of settings

Settings that come from several sources are put together as a tree before they are read. Names of
settings are kept in lower case. Putting a value at a path makes tables of whatever is on the way; a
table that is put where a table is goes into it entry by entry, and anything else takes the place of
what was there.

* `Tree.put` puts a value at a path.
* `Tree.dialect` is how values of a tree are understood: every value is taken for what it may mean.
-/

namespace Parley

/-- A tree of settings. -/
inductive Settings.Tree where
  /-- No value. -/
  | nothing
  /-- A truth value. -/
  | flag (value : Bool)
  /-- A whole number. -/
  | whole (value : Int)
  /-- A number. -/
  | real (value : Double)
  /-- A text. -/
  | text (value : String)
  /-- Several values. -/
  | items (items : List Settings.Tree)
  /-- Named values. -/
  | table (members : List (String × Settings.Tree))
  deriving Inhabited

namespace Settings.Tree

/-! ### Putting together -/

/-- The named values of a table; anything else has none. -/
def members : Tree → List (String × Tree)
  | table ms => ms
  | _ => []

/-- The value of a name in a table. -/
def member? (name : String) (t : Tree) : Option Tree :=
  (t.members.find? (·.1 == name)).map (·.2)

/-- A table with the value of a name; what is no table becomes one. -/
def set (t : Tree) (name : String) (value : Tree) : Tree :=
  if (t.member? name).isSome then
    table (t.members.map fun m => if m.1 == name then (name, value) else m)
  else table (t.members ++ [(name, value)])

mutual

/-- A table in which a value was put under a name. -/
def put (name : String) : (value : Tree) → Tree → Tree
  | table ms, t =>
    let name := Text.lowercaseText name
    t.set name (putAll ms ((t.member? name).getD (table [])))
  | value, t => t.set (Text.lowercaseText name) value

/-- A tree in which several named values were put. -/
def putAll : List (String × Tree) → Tree → Tree
  | [], t => t
  | (name, value) :: ms, t => putAll ms (put name value t)

end

/-- A table in which a value was put at a path. -/
def putAt : (path : List String) → (value : Tree) → Tree → Tree
  | [], _, t => t
  | [name], value, t => put name value t
  | name :: path, value, t =>
    let name := Text.lowercaseText name
    t.set name (putAt path value ((t.member? name).getD nothing))

/-! ### Paths -/

/-- The character may stand in a name on a path. -/
def isNameChar (c : Char) : Bool := c.isAlphanum || c = ' ' || c = '_' || c = '-'

/-- The path that a key with points stands for: names with nothing else in them, and none empty.
A key with a subscript in brackets is not taken for a path. -/
def path? (key : String) : Option (List String) :=
  let names := Text.splitAt '.' key.toList
  if names.all fun n => !n.isEmpty && n.all isNameChar then some (names.map String.ofList) else none

/-- A table in which the value of a key was put; a key that is no path is a single name. -/
def putKey (key : String) (value : Tree) (t : Tree) : Tree :=
  match path? key with
  | some path => putAt path value t
  | none => put key value t

/-- A table in which the values of several keys were put. -/
def putKeys (entries : List (String × Tree)) (t : Tree) : Tree :=
  entries.foldl (fun t (key, value) => putKey key value t) t

/-! ### Reading -/

/-- The text of a whole number. -/
def wholeText (i : Int) : String :=
  match i with
  | .ofNat n => Text.natText n
  | .negSucc n => "-" ++ Text.natText (n + 1)

/-- A text, or the text of a plain value. -/
def text? : Tree → Option String
  | text s => some s
  | flag b => some (if b then "true" else "false")
  | whole i => some (wholeText i)
  | real x => some x.text
  | _ => none

/-- The truth value of a word. -/
def word? (s : String) : Option Bool :=
  if ["true", "on", "yes"].contains s then some true
  else if ["false", "off", "no"].contains s then some false
  else none

/-- A 64-bit number. -/
def word64? : Tree → Option UInt64
  | whole i => if 0 ≤ i then some (UInt64.ofNat i.toNat) else none
  | flag b => some (if b then 1 else 0)
  | real x => some x.roundHalfAway
  | text s =>
    match word? (Text.lowercaseText s) with
    | some b => some (if b then 1 else 0)
    | none => (Text.readUnsigned? s.toList).map UInt64.ofNat
  | _ => none

/-- A 32-bit number. -/
def word32? (t : Tree) : Option UInt32 :=
  t.word64?.bind fun n => if n.toNat < UInt32.size then some (UInt32.ofNat n.toNat) else none

/-- A truth value. -/
def flag? : Tree → Option Bool
  | flag b => some b
  | whole i => some (i != 0)
  | real x => some x.isNonZero
  | text s =>
    let s := Text.lowercaseText s
    if s = "1" then some true else if s = "0" then some false else word? s
  | _ => none

/-- A form of log lines: its name in any case, or a table with that name alone. -/
def format? : Tree → Option LogFormat
  | text s => LogFormat.ofName? (Text.lowercaseText s)
  | table [(name, _)] => LogFormat.ofName? (Text.lowercaseText name)
  | _ => none

/-- The values of some names: of a table by name, of several values by place. -/
def parts? (names : List String) : Tree → Option (List (Option Tree))
  | table ms => some (names.map fun name => (table ms).member? name)
  | items ts => some (ts.map some)
  | _ => none

/-- How values of a tree are understood. -/
def dialect : Dialect Tree where
  text? := text?
  word64? := word64?
  word32? := word32?
  flag? := flag?
  format? := format?
  parts? := parts?

end Settings.Tree

end Parley
