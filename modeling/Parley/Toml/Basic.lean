import Parley.Double.Basic

/-!
# TOML values and how tables come about

A table can be written out under a header or between braces, or come about because a longer key or
header passes through it. How it came about decides what may still be added to it.

* `Toml.within` changes the table that a path leads to, making the tables on the way.
* `Toml.define` gives a key of a table its value; nothing is ever defined twice.
* `Draft` is a document under construction: the finished part and the table of the last header.
-/

namespace Parley

/-- How a table came about. -/
inductive Toml.Origin where
  /-- It has its own header. -/
  | header
  /-- A longer header passes through it. -/
  | passed
  /-- A dotted key passes through it. -/
  | dotted
  /-- It was written between braces. -/
  | braced
  deriving DecidableEq, Repr, Inhabited

/-- A TOML value. -/
inductive Toml where
  /-- A text. -/
  | text (value : String)
  /-- A whole number. -/
  | whole (value : Int)
  /-- A number. -/
  | real (value : Double)
  /-- A truth value. -/
  | flag (value : Bool)
  /-- A date, a time, or both, in its normal form. -/
  | moment (text : String)
  /-- An array; if `growing`, every header of its name adds a table to it. -/
  | items (growing : Bool) (items : List Toml)
  /-- A table. -/
  | table (origin : Toml.Origin) (members : List (String × Toml))
  deriving Inhabited

namespace Toml

/-- The value of a key. -/
def find? (key : String) (members : List (String × Toml)) : Option Toml :=
  (members.find? (·.1 == key)).map (·.2)

/-- The members with the value of a key changed, or with a new member. -/
def put (key : String) (value : Toml) (members : List (String × Toml)) : List (String × Toml) :=
  if members.any (·.1 == key) then members.map fun m => if m.1 == key then (key, value) else m
  else members ++ [(key, value)]

/-- Dotted keys may pass through a table that came about like this. -/
def Origin.isOpen : Origin → Bool
  | passed | dotted => true
  | header | braced => false

/-- The table that a path leads to from a table, changed. Tables that are missing on the way come
about as `made`; of an array of tables the last one is meant. No change if the path leads through
something else, or a dotted key through a table that is closed to it. -/
def within (made : Origin) (change : Toml → Option Toml) : List String → Toml → Option Toml
  | [], t => change t
  | key :: path, .table origin members =>
    match find? key members with
    | none => (within made change path (.table made [])).map fun t => .table origin (put key t members)
    | some (.table inner ms) =>
      if inner = .braced || (made = .dotted && !inner.isOpen) then none
      else (within made change path (.table inner ms)).map fun t => .table origin (put key t members)
    | some (.items true ts) =>
      match ts.getLast? with
      | some last => (within made change path last).map fun t =>
        .table origin (put key (.items true (ts.dropLast ++ [t])) members)
      | none => none
    | some _ => none
  | _, _ => none

/-- The table with a value for a key that has none. After a dotted key the table must be one that
such keys made, and otherwise it must not be. -/
def define (afterDots : Bool) (key : String) (value : Toml) : Toml → Option Toml
  | .table origin members =>
    if decide (origin = .dotted) == afterDots && (find? key members).isNone then
      some (.table origin (members ++ [(key, value)]))
    else none
  | _ => none

/-- The table with a value for a dotted key, of which `key` is the last part. -/
def defineAt (path : List String) (key : String) (value : Toml) (t : Toml) : Option Toml :=
  within .dotted (define (!path.isEmpty) key value) path t

/-- The table with the values of several keys, written between braces. -/
def ofPairs? (pairs : List (List String × String × Toml)) : Option Toml :=
  pairs.foldlM (fun t (path, key, value) => defineAt path key value t) (.table .braced [])

/-- A document under construction. -/
structure Draft where
  /-- The part that is finished. -/
  root : Toml := .table .header []
  /-- The path and the last part of the key in the last header; none before the first one. -/
  place : Option (List String × String) := none
  /-- The last header adds its table to an array. -/
  growing : Bool := false
  /-- The table under the last header. -/
  current : Toml := .table .header []
  deriving Inhabited

namespace Draft

/-- The document so far, with the table under the last header put in its place. -/
def finish? (d : Draft) : Option Toml :=
  match d.place with
  | none => some d.current
  | some (path, key) =>
    within .passed
      (fun parent => match parent with
        | .table origin members =>
          if d.growing then
            match find? key members with
            | some (.items true ts) =>
              some (.table origin (put key (.items true (ts ++ [d.current])) members))
            | _ => none
          else if (find? key members).isNone then
            some (.table origin (members ++ [(key, d.current)]))
          else none
        | _ => none)
      path d.root

/-- The document with a value for a dotted key in the table under the last header. -/
def define? (d : Draft) (path : List String) (key : String) (value : Toml) : Option Draft :=
  (defineAt path key value d.current).map fun current => { d with current }

/-- The table that a header opens, and the table around it without it: a table that longer headers
passed through is taken up again, anything else must not be there. -/
def takeUp (key : String) : Toml → Option (Toml × Toml)
  | .table origin members =>
    match find? key members with
    | none => some (.table .header [], .table origin members)
    | some (.table .passed ms) =>
      some (.table .header ms, .table origin (members.filter (·.1 != key)))
    | some _ => none
  | _ => none

/-- The table at the end of a path, which is made if it is missing. -/
def reach (path : List String) (root : Toml) : Option Toml :=
  match path, root with
  | [], t => some t
  | key :: path, .table _ members =>
    match find? key members with
    | none => reach path (.table .passed [])
    | some (.items true ts) => ts.getLast?.bind (reach path)
    | some t => reach path t
  | _, _ => none

/-- The document after a header. -/
def header? (d : Draft) (path : List String) (key : String) : Option Draft := do
  let root ← d.finish?
  let parent ← reach path root
  let (current, _) ← takeUp key parent
  let root ← within .passed (fun t => (takeUp key t).map (·.2)) path root
  some { root, place := some (path, key), growing := false, current }

/-- The array that a header of an array of tables adds to, made if it is missing. -/
def openArray (key : String) : Toml → Option Toml
  | .table origin members =>
    match find? key members with
    | none => some (.table origin (members ++ [(key, .items true [])]))
    | some (.items true _) => some (.table origin members)
    | some _ => none
  | _ => none

/-- The document after a header of an array of tables. -/
def arrayHeader? (d : Draft) (path : List String) (key : String) : Option Draft := do
  let root ← d.finish?
  let root ← within .passed (openArray key) path root
  some { root, place := some (path, key), growing := true, current := .table .header [] }

end Draft

end Toml

end Parley
