import Parley.Json.Basic

/-!
# Reading fields

A record is written as an object with a member for each field, or as an array of the values of its
fields in their order. In an object unknown members are passed over, a known one must not come
twice, and a field that may be missing may be left out; an array must not be too long, and only
fields with a default may be missing at its end.

* `Fields.ofJson?` finds the values of named fields in either form.
* `Fields.required?`, `Fields.optional?` and `Fields.defaulted?` read one of them.
* `name?` reads a value that is one of several names.
-/

namespace Parley.Wire

/-- Reads a value. -/
abbrev Reader (α : Type) := Json → Option α

/-- The values found for the fields of a record, in the order of the fields. -/
structure Fields where
  /-- The record was written as an object. -/
  byName : Bool
  /-- The values; a field may have none. -/
  values : List (Option Json)

/-- The value of the member of a name, if there is one; no answer if there are several. -/
def onlyMember? (name : String) (members : List (String × Json)) : Option (Option Json) :=
  match members.filter (·.1 == name) with
  | [] => some none
  | [(_, j)] => some (some j)
  | _ => none

/-- The values of the members of some names. -/
def membersOf? (members : List (String × Json)) : List String → Option (List (Option Json))
  | [] => some []
  | name :: names => do
    let value ← onlyMember? name members
    let values ← membersOf? members names
    some (value :: values)

/-- The values of as many fields as there are names, taken from a list of items. -/
def positions? : List Json → List String → Option (List (Option Json))
  | [], names => some (names.map fun _ => none)
  | _ :: _, [] => none
  | j :: js, _ :: names => (positions? js names).map (some j :: ·)

namespace Fields

/-- The values of the fields of some names in a record written in either form. -/
def ofJson? (names : List String) : Json → Option Fields
  | .object members => (membersOf? members names).map (⟨true, ·⟩)
  | .array items => (positions? items names).map (⟨false, ·⟩)
  | _ => none

/-- The values of the fields of some names in a record written as an object. -/
def ofObject? (names : List String) : Json → Option Fields
  | .object members => (membersOf? members names).map (⟨true, ·⟩)
  | _ => none

/-- The value found for a field, counted from zero. -/
def value? (f : Fields) (i : Nat) : Option Json := (f.values[i]?).join

/-- A field that must be there. -/
def required? {α : Type} (f : Fields) (i : Nat) (read : Reader α) : Option α :=
  (f.value? i).bind read

/-- A field that may be `null`, and may be left out of an object. -/
def optional? {α : Type} (f : Fields) (i : Nat) (read : Reader α) : Option (Option α) :=
  match f.value? i with
  | some .null => some none
  | some j => (read j).map some
  | none => if f.byName then some none else none

/-- A field that may be left out and then has a value of its own. -/
def defaulted? {α : Type} (f : Fields) (i : Nat) (read : Reader α) (default : α) : Option α :=
  match f.value? i with
  | some j => read j
  | none => some default

end Fields

/-! ### Plain values -/

/-- A list of values. -/
def list? {α : Type} (read : Reader α) : Reader (List α)
  | .array items => items.mapM read
  | _ => none

/-- A whole number that fits 64 bits. -/
def word64? : Reader UInt64
  | .natural n => if n < UInt64.size then some (UInt64.ofNat n) else none
  | _ => none

/-- A whole number that fits 32 bits. -/
def word32? : Reader UInt32
  | .natural n => if n < UInt32.size then some (UInt32.ofNat n) else none
  | _ => none

/-- One of several names, as a text or as the only member of an object with `null` for its value. -/
def name? {α : Type} (ofName? : String → Option α) : Reader α
  | .string s => ofName? s
  | .object [(s, .null)] => ofName? s
  | _ => none

/-! ### Writing -/

/-- A 64-bit number. -/
def ofWord64 (n : UInt64) : Json := .natural n.toNat

/-- A 32-bit number. -/
def ofWord32 (n : UInt32) : Json := .natural n.toNat

/-- A list of texts. -/
def ofTexts (texts : List String) : Json := .array (texts.map .string)

/-- A value or `null`. -/
def ofOption {α : Type} (write : α → Json) : Option α → Json
  | some a => write a
  | none => .null

end Parley.Wire
