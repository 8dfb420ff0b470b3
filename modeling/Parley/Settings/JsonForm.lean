import Parley.Json.Reader
import Parley.Settings.Tree
import Parley.Wire.Answer
import Parley.Wire.Settings

/-!
# Settings in JSON

* `Json.settings?` reads settings from JSON text, each value being of the kind that is asked for.
* `Json.toTree` is a JSON value as a tree of settings, `Json.tree?` reads one.
-/

namespace Parley.Json

/-- The settings in a JSON text. -/
def settings? (content : String) : Option Settings := (read? content).bind Settings.ofJson?

/-- A whole number as a tree of settings: beyond 63 bits it is the nearest double. -/
def treeOfNat (n : Nat) : Settings.Tree :=
  if Text.fitsSigned n then .whole n else .real (Double.ofNat n)

mutual

/-- A JSON value as a tree of settings. -/
def toTree : Json → Settings.Tree
  | null => .nothing
  | bool b => .flag b
  | natural n => treeOfNat n
  | negative n => .whole (-(n : Int))
  | real x => .real x
  | string s => .text s
  | array items => .items (toTrees items)
  | object members => .table (toMembers members)

/-- Several values as trees of settings. -/
def toTrees : List Json → List Settings.Tree
  | [] => []
  | j :: js => j.toTree :: toTrees js

/-- Named values as trees of settings. -/
def toMembers : List (String × Json) → List (String × Settings.Tree)
  | [] => []
  | (name, j) :: members => (name, j.toTree) :: toMembers members

end

/-- The tree of settings in a JSON text; of repeated names the last one counts. -/
def tree? (content : String) : Option Settings.Tree := do
  let j ← read? content
  if j.inRange && j.depth ≤ Wire.depthLimit then some j.settled.toTree else none

end Parley.Json
