import Parley.Settings.Tree
import Parley.Yaml.Node

/-!
# Settings in YAML

Read directly, a scalar is what is asked for if it can be that: every scalar is a text, and a plain one
may be a number or a truth value. Read as a tree, a plain scalar has a kind of its own by how it looks.

* `Yaml.settings?` reads settings from YAML text.
* `Yaml.toTree?` is a YAML node as a tree of settings, `Yaml.tree?` reads one.
-/

namespace Parley.Yaml

open Parley.Text

/-! ### Directly -/

/-- The character may stand in a text. -/
def isReadable (c : Char) : Bool :=
  let n := c.toNat
  n = 0x09 || n = 0x0A || n = 0x0D || (0x20 ≤ n && n ≤ 0x7E) || n = 0x85 ||
    (0xA0 ≤ n && n ≤ 0xFFFD) || 0x10000 ≤ n

/-- The digits without a plus in front. -/
def withoutPlus : List Char → List Char
  | '+' :: cs => cs
  | cs => cs

/-- The whole number that a plain scalar stands for: in base two, eight or sixteen after a mark, or in
base ten without zeros in front. -/
def plainNatural? (s : String) : Option Nat :=
  let cs := withoutPlus s.toList
  let decimal : Option Nat :=
    if 1 < cs.length && cs.head? = some '0' && cs.all isDigit then none else ofDigits? 10 cs
  match cs with
  | '0' :: 'x' :: ds => ofDigits? 16 ds
  | '0' :: 'o' :: ds => ofDigits? 8 ds
  | '0' :: 'b' :: ds => ofDigits? 2 ds
  | _ => decimal

/-- The text of a scalar that may stand for something else than a text: a plain one, or one under a
bar that a tag says to be of that kind. -/
def bareText? (tag : String) : Yaml → Option String
  | .scalar s .plain _ => some s
  | .scalar s .literal (some other) => if other = tag then some s else none
  | _ => none

/-- The number of a scalar, if it is below a bound. -/
def natural? (bound : Nat) (node : Yaml) : Option Nat := do
  let s ← node.bareText? "tag:yaml.org,2002:int"
  (plainNatural? s).filter (· < bound)

/-- The truth value that a scalar stands for. -/
def flag? (node : Yaml) : Option Bool := do
  let s ← node.bareText? "tag:yaml.org,2002:bool"
  if ["true", "True", "TRUE"].contains s then some true
  else if ["false", "False", "FALSE"].contains s then some false
  else none

/-- The text of a scalar. -/
def text? : Yaml → Option String
  | .scalar s _ _ => some s
  | _ => none

/-- A tag without its exclamation mark. -/
def tagName (tag : String) : String :=
  match tag.toList with
  | '!' :: cs => String.ofList cs
  | _ => tag

/-- A form of log lines: a scalar with its name, or nothing under a tag with its name. -/
def format? : Yaml → Option LogFormat
  | .scalar s _ none => LogFormat.ofName? s
  | .scalar s .plain (some tag) =>
    if ["", "~", "null", "Null", "NULL"].contains s then LogFormat.ofName? (tagName tag) else none
  | _ => none

/-- The pairs whose keys are scalars, by the text of the key; no answer if another node is a key. -/
def textPairs? : List (Yaml × Yaml) → Option (List (String × Yaml))
  | [] => some []
  | (.scalar s _ _, v) :: pairs => (textPairs? pairs).map ((s, v) :: ·)
  | _ :: _ => none

/-- The value of a name that comes once at most. -/
def onlyOne? (pairs : List (String × Yaml)) (name : String) : Option (Option Yaml) :=
  match pairs.filter (·.1 == name) with
  | [] => some none
  | [(_, v)] => some (some v)
  | _ => none

/-- The values of some names, none of which may come twice. No node at all is an empty section. -/
def parts? (names : List String) : Yaml → Option (List (Option Yaml))
  | .mapping pairs _ => do
    let pairs ← textPairs? pairs
    names.mapM (onlyOne? pairs)
  | .scalar "" .plain _ => some (names.map fun _ => none)
  | _ => none

/-- How YAML nodes are understood in settings. -/
def settingsDialect : Dialect Yaml where
  text? := text?
  word64? n := (natural? UInt64.size n).map UInt64.ofNat
  word32? n := (natural? UInt32.size n).map UInt32.ofNat
  flag? := flag?
  format? := format?
  parts? := parts?

/-- The settings in a YAML text with one document at most. -/
def settings? (content : String) : Option Settings := do
  if content.toList.all isReadable then
    match ← documents? content with
    | [] => some {}
    | [d] => settingsDialect.settings? d
    | _ => none
  else none

/-! ### As a tree -/

/-- The number in a base with an optional sign, if it fits a signed 64-bit word. -/
def signedIn? (base : Nat) (cs : List Char) : Option Int :=
  let i? : Option Int := match cs with
    | '+' :: ds => (ofDigits? base ds).map Int.ofNat
    | '-' :: ds => (ofDigits? base ds).map fun n => -(n : Int)
    | ds => (ofDigits? base ds).map Int.ofNat
  i?.filter fitsSigned

/-- The whole number that a plain scalar looks like. -/
def looksWhole? (s : String) : Option Int :=
  match s.toList with
  | '0' :: 'x' :: cs => signedIn? 16 cs
  | '0' :: 'o' :: cs => signedIn? 8 cs
  | '+' :: cs => readSigned? cs
  | cs => readSigned? cs

/-- The scalar stands for no finite number by a word of its own; such a number cannot be read. -/
def isNumberWord (s : String) : Bool :=
  [".inf", ".Inf", ".INF", "+.inf", "+.Inf", "+.INF", "-.inf", "-.Inf", "-.INF", ".nan", ".NaN",
    ".NAN"].contains s

/-- The tree that a plain scalar without a tag looks like. -/
def looksLike? (s : String) : Option Settings.Tree :=
  if ["", "~", "null"].contains s then some .nothing
  else if s = "true" then some (.flag true)
  else if s = "false" then some (.flag false)
  else if isNumberWord s then none
  else
    match looksWhole? s with
    | some i => some (.whole i)
    | none =>
      match if s.toList.any isDigit then Double.ofText? s else none with
      | some x => some (.real x)
      | none => some (.text s)

/-- The tree of a plain scalar with a tag of the language; one that is not what its tag says is no
value. -/
def tagged? (s tag : String) : Option Settings.Tree :=
  if tag = "tag:yaml.org,2002:bool" then
    some (if s = "true" then .flag true else if s = "false" then .flag false else .nothing)
  else if tag = "tag:yaml.org,2002:int" then
    some (((readSigned? s.toList).map Settings.Tree.whole).getD .nothing)
  else if tag = "tag:yaml.org,2002:float" then
    if isNumberWord s then none
    else some (((Double.ofText? s).map Settings.Tree.real).getD .nothing)
  else if tag = "tag:yaml.org,2002:null" then some .nothing
  else some (.text s)

/-- What a key stands for: a text, or a whole number, told apart, with its decimal text. -/
def keyOf? : Settings.Tree → Option (Bool × String)
  | .text s => some (false, s)
  | .whole i => some (true, Settings.Tree.wholeText i)
  | _ => none

mutual

/-- A node as a tree of settings. -/
def toTree? : Yaml → Option Settings.Tree
  | .scalar s .plain none => looksLike? s
  | .scalar s .plain (some tag) => tagged? s tag
  | .scalar s _ _ => some (.text s)
  | .sequence items _ => (toTrees? items).map .items
  | .mapping pairs _ => (toMembers? pairs).map fun ms => .table (ms.map fun m => (m.1.2, m.2))

/-- Several nodes as trees of settings. -/
def toTrees? : List Yaml → Option (List Settings.Tree)
  | [] => some []
  | n :: ns => do some ((← n.toTree?) :: (← toTrees? ns))

/-- Keys and values as trees of settings; a repeated key is refused. -/
def toMembers? : List (Yaml × Yaml) → Option (List ((Bool × String) × Settings.Tree))
  | [] => some []
  | (k, v) :: pairs => do
    let key ← keyOf? (← k.toTree?)
    let tree ← v.toTree?
    let members ← toMembers? pairs
    if members.any (·.1 == key) then none else some ((key, tree) :: members)

end

/-- The tree of settings in a YAML text with one document at most. -/
def tree? (content : String) : Option Settings.Tree := do
  match ← documents? content with
  | [] => some (.table [])
  | [d] => d.toTree?
  | _ => none

end Parley.Yaml
