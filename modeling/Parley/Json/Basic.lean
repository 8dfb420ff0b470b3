import Parley.Double.Basic

/-!
# JSON values

A JSON value keeps the members of an object in the order they were written, repetitions included,
so that a reader of domain values can refuse a repeated field. Whole numbers that fit 64 bits are
kept exactly and apart from all other numbers: `5` is `natural 5`, `-5` is `negative 5`, and `5.0`
and `-0` are `real`.

* `Json.member?` and `Json.settled` give the reading in which the last of repeated keys counts.
-/

namespace Parley

/-- A JSON value. -/
inductive Json where
  /-- The value `null`. -/
  | null
  /-- A truth value. -/
  | bool (value : Bool)
  /-- A whole number that is not below zero and fits 64 bits. -/
  | natural (value : Nat)
  /-- A whole number below zero that fits 64 signed bits, without its sign. -/
  | negative (magnitude : Nat)
  /-- Any other number, as a double. -/
  | real (value : Double)
  /-- A text. -/
  | string (value : String)
  /-- A list of values. -/
  | array (items : List Json)
  /-- Named values, in order, a name may come again. -/
  | object (members : List (String × Json))
  deriving Inhabited

namespace Json

/-- The value of the last member of that name. -/
def lastMember? (name : String) (members : List (String × Json)) : Option Json :=
  (members.reverse.find? (·.1 == name)).map (·.2)

/-- The value of a member of an object, the last one of that name. -/
def member? (name : String) : Json → Option Json
  | object members => lastMember? name members
  | _ => none

/-- A member whose absence and whose `null` mean the same. -/
def given? (name : String) (j : Json) : Option Json :=
  match j.member? name with
  | some null => none
  | other => other

/-- The text of a string value. -/
def text? : Json → Option String
  | string s => some s
  | _ => none

/-- The number of a value that is a whole number and not below zero. -/
def natural? : Json → Option Nat
  | natural n => some n
  | _ => none

/-- The truth value of a boolean. -/
def bool? : Json → Option Bool
  | bool b => some b
  | _ => none

/-- The items of an array. -/
def items? : Json → Option (List Json)
  | array items => some items
  | _ => none

/-- The members of an object. -/
def members? : Json → Option (List (String × Json))
  | object members => some members
  | _ => none

/-- A text, or `null` for none. -/
def ofOption (s : Option String) : Json :=
  match s with
  | some s => string s
  | none => null

/-! ### Walks over whole values -/

mutual

/-- How deeply arrays and objects are nested; a plain value has depth zero. -/
def depth : Json → Nat
  | array items => depthOfItems items + 1
  | object members => depthOfMembers members + 1
  | _ => 0

/-- The largest depth among items. -/
def depthOfItems : List Json → Nat
  | [] => 0
  | j :: js => Nat.max j.depth (depthOfItems js)

/-- The largest depth among members. -/
def depthOfMembers : List (String × Json) → Nat
  | [] => 0
  | (_, j) :: ms => Nat.max j.depth (depthOfMembers ms)

end

mutual

/-- No number in the value lies outside the range of doubles. -/
def inRange : Json → Bool
  | real (.infinity _) => false
  | array items => inRangeItems items
  | object members => inRangeMembers members
  | _ => true

/-- The items are in range. -/
def inRangeItems : List Json → Bool
  | [] => true
  | j :: js => j.inRange && inRangeItems js

/-- The members are in range. -/
def inRangeMembers : List (String × Json) → Bool
  | [] => true
  | (_, j) :: ms => j.inRange && inRangeMembers ms

end

/-- A member put in its place among members sorted by name, unless one of that name is there. -/
def insertMember (name : String) (j : Json) : List (String × Json) → List (String × Json)
  | [] => [(name, j)]
  | (other, k) :: ms =>
    if name = other then (other, k) :: ms
    else if name < other then (name, j) :: (other, k) :: ms
    else (other, k) :: insertMember name j ms

mutual

/-- The value with one member for each name, the last one, and the members sorted by name. -/
def settled : Json → Json
  | array items => array (settledItems items)
  | object members => object (settledMembers members)
  | other => other

/-- The items, each settled. -/
def settledItems : List Json → List Json
  | [] => []
  | j :: js => j.settled :: settledItems js

/-- The members, each settled, sorted by name, the last of a name kept. -/
def settledMembers : List (String × Json) → List (String × Json)
  | [] => []
  | (name, j) :: ms => insertMember name j.settled (settledMembers ms)

end

end Json

end Parley
