import Parley.Settings.Tree
import Parley.Toml.Reader

/-!
# Settings in TOML

* `Toml.settings?` reads settings from TOML text, each value being of the kind that is asked for.
* `Toml.toTree` is a TOML value as a tree of settings, `Toml.tree?` reads one.
-/

namespace Parley.Toml

/-- The value is an empty table or an empty array. -/
def isEmpty : Toml → Bool
  | .table _ [] => true
  | .items _ [] => true
  | _ => false

/-- A form of log lines: its name, or a table with that name alone and nothing under it. -/
def format? : Toml → Option LogFormat
  | .text s => LogFormat.ofName? s
  | .table _ [(name, value)] => if value.isEmpty then LogFormat.ofName? name else none
  | _ => none

/-- The number of a value that is a whole number below a bound and not below zero. -/
def natural? (bound : Int) : Toml → Option Nat
  | .whole i => if 0 ≤ i && i < bound then some i.toNat else none
  | _ => none

/-- The values of some names: of a table by name, of an array by place. A date has none of them. -/
def parts? (names : List String) : Toml → Option (List (Option Toml))
  | .table _ members => some (names.map fun name => find? name members)
  | .items _ ts => some (ts.map some)
  | .moment _ => some (names.map fun _ => none)
  | _ => none

/-- The text of a text value. -/
def text? : Toml → Option String
  | .text s => some s
  | _ => none

/-- The truth value of a truth value. -/
def flag? : Toml → Option Bool
  | .flag b => some b
  | _ => none

/-- How TOML values are understood in settings. -/
def settingsDialect : Dialect Toml where
  text? := text?
  word64? t := (natural? UInt64.size t).map UInt64.ofNat
  word32? t := (natural? UInt32.size t).map UInt32.ofNat
  flag? := flag?
  format? := format?
  parts? := parts?

/-- The settings in a TOML text. -/
def settings? (content : String) : Option Settings :=
  (read? content).bind settingsDialect.settings?

mutual

/-- A TOML value as a tree of settings. -/
def toTree : Toml → Settings.Tree
  | .text s => .text s
  | .whole i => .whole i
  | .real x => .real x
  | .flag b => .flag b
  | .moment s => .text s
  | .items _ ts => .items (toTrees ts)
  | .table _ members => .table (toMembers members)

/-- Several values as trees of settings. -/
def toTrees : List Toml → List Settings.Tree
  | [] => []
  | t :: ts => t.toTree :: toTrees ts

/-- Named values as trees of settings. -/
def toMembers : List (String × Toml) → List (String × Settings.Tree)
  | [] => []
  | (name, t) :: members => (name, t.toTree) :: toMembers members

end

/-- The tree of settings in a TOML text. -/
def tree? (content : String) : Option Settings.Tree := (read? content).map toTree

end Parley.Toml
