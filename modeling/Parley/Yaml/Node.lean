import Parley.Yaml.Token

/-!
# YAML nodes

The documents of a YAML text as trees. A node that was given a name can be named again instead of
written again, and is then put in as it was.

* `documents?` are the documents of a whole text.
-/

namespace Parley

/-- A YAML node, with its tag if it has one. -/
inductive Yaml where
  /-- A scalar. A missing node is an empty plain one. -/
  | scalar (text : String) (style : Yaml.Style) (tag : Option String)
  /-- A list of nodes. -/
  | sequence (items : List Yaml) (tag : Option String)
  /-- A list of keys and values. -/
  | mapping (pairs : List (Yaml × Yaml)) (tag : Option String)
  deriving Inhabited

namespace Yaml

/-- The node that stands where none was written. -/
def missing (tag : Option String) : Yaml := .scalar "" .plain tag

/-- What is left of the tokens, and the names given so far. -/
structure Feed where
  /-- The tokens. -/
  tokens : List Token
  /-- The nodes that have names, newest first. -/
  anchors : List (String × Yaml) := []
  /-- What handles stand for in this document. -/
  handles : List (String × String) := []
  deriving Inhabited

/-- Takes something from the tokens, or fails. -/
abbrev Takes := StateT Feed Option

/-- The next token. -/
def peek : Takes (Option Token) := fun f => some (f.tokens.head?, f)

/-- The next token is passed. -/
def pass : Takes Unit := fun f => some ((), { f with tokens := f.tokens.tail })

/-- A failure. -/
def fail {α : Type} : Takes α := fun _ => none

/-- The next token is passed if it is this one. -/
def passIf (t : Token) : Takes Bool := do
  if (← peek) = some t then
    pass
    return true
  else return false

/-- The next token is this one and is passed. -/
def demand (t : Token) : Takes Unit := do
  if ← passIf t then return ()
  else fail

/-- The next token is one of these, or there is none. -/
def seesOneOf (ts : List Token) : Takes Bool := do
  match ← peek with
  | some t => return ts.contains t
  | none => return true

/-! ### Names and tags -/

/-- What a handle stands for. -/
def resolveHandle? (f : Feed) (handle : String) : Option String :=
  match f.handles.find? (·.1 == handle) with
  | some (_, lead) => some lead
  | none =>
    if handle = "!" then some "!"
    else if handle = "!!" then some "tag:yaml.org,2002:"
    else none

/-- A whole tag. -/
def wholeTag (handle suffix : String) : Takes String := fun f =>
  if handle.isEmpty then some (suffix, f)
  else (resolveHandle? f handle).map fun lead => (lead ++ suffix, f)

/-- The name and the tag in front of a node, in either order; `fuel` bounds them. -/
def properties : (fuel : Nat) → Option String → Option String →
    Takes (Option String × Option String)
  | 0, name, tag => return (name, tag)
  | fuel + 1, name, tag => do
    match ← peek with
    | some (.anchor a) =>
      if name.isSome then return (name, tag)
      else
        pass
        properties fuel (some a) tag
    | some (.tag handle suffix) =>
      if tag.isSome then return (name, tag)
      else
        pass
        properties fuel name (some (← wholeTag handle suffix))
    | _ => return (name, tag)

/-- The node of a name. -/
def named (name : String) : Takes Yaml := fun f =>
  (f.anchors.find? (·.1 == name)).map fun (_, node) => (node, f)

/-- A node given its name, if it has one. -/
def register (name : Option String) (node : Yaml) : Takes Yaml := fun f =>
  match name with
  | some n => some (node, { f with anchors := (n, node) :: f.anchors })
  | none => some (node, f)

/-! ### Nodes -/

mutual

/-- A node. Lists by indentation may be read only if `block`, and a list of entries that are not
further in only if `level`. `fuel` bounds the calls. -/
def node (block level : Bool) : (fuel : Nat) → Takes Yaml
  | 0 => fail
  | fuel + 1 => do
    match ← peek with
    | some (.alias name) =>
      pass
      named name
    | _ =>
      let (name, tag) ← properties 2 none none
      match ← peek with
      | some (.scalar text style) =>
        pass
        register name (.scalar text style tag)
      | some .flowSequence =>
        pass
        let items ← flowItems true fuel
        register name (.sequence items tag)
      | some .flowMapping =>
        pass
        let pairs ← flowPairs true fuel
        register name (.mapping pairs tag)
      | other =>
        if level && other = some .entry then do
          let items ← levelEntries fuel
          register name (.sequence items tag)
        else if block && other = some .blockSequence then do
          pass
          let items ← entries fuel
          register name (.sequence items tag)
        else if block && other = some .blockMapping then do
          pass
          let pairs ← blockPairs fuel
          register name (.mapping pairs tag)
        else if name.isSome || tag.isSome then register name (missing tag)
        else fail

/-- A node, or nothing in front of one of some tokens. -/
def nodeBefore (stops : List Token) (block level : Bool) : (fuel : Nat) → Takes Yaml
  | 0 => fail
  | fuel + 1 => do
    if ← seesOneOf stops then return missing none
    else node block level fuel

/-- The entries of a list by indentation, up to its end. -/
def entries : (fuel : Nat) → Takes (List Yaml)
  | 0 => fail
  | fuel + 1 => do
    if ← passIf .entry then
      let item ← nodeBefore [.entry, .blockEnd] true false fuel
      let items ← entries fuel
      return item :: items
    else
      demand .blockEnd
      return []

/-- The entries of a list that is not further in than the key before it. -/
def levelEntries : (fuel : Nat) → Takes (List Yaml)
  | 0 => fail
  | fuel + 1 => do
    if ← passIf .entry then
      let item ← nodeBefore [.entry, .key, .value, .blockEnd] true false fuel
      let items ← levelEntries fuel
      return item :: items
    else return []

/-- The keys and values of a list by indentation, up to its end. -/
def blockPairs : (fuel : Nat) → Takes (List (Yaml × Yaml))
  | 0 => fail
  | fuel + 1 => do
    if ← passIf .key then
      let k ← nodeBefore [.key, .value, .blockEnd] true true fuel
      let v ← if ← passIf .value then nodeBefore [.key, .value, .blockEnd] true true fuel
        else pure (missing none)
      let pairs ← blockPairs fuel
      return (k, v) :: pairs
    else
      demand .blockEnd
      return []

/-- The items in brackets, up to the closing one. A key and a value make an item of their own. -/
def flowItems (first : Bool) : (fuel : Nat) → Takes (List Yaml)
  | 0 => fail
  | fuel + 1 => do
    if ← passIf .flowSequenceEnd then return []
    else
      if !first then demand .comma
      if ← passIf .flowSequenceEnd then return []
      else
        let item ← if ← passIf .key then singlePair fuel else node false false fuel
        let items ← flowItems false fuel
        return item :: items

/-- The key and value that make an item in brackets. -/
def singlePair : (fuel : Nat) → Takes Yaml
  | 0 => fail
  | fuel + 1 => do
    let k ← nodeBefore [.value, .comma, .flowSequenceEnd] false false fuel
    let v ← if ← passIf .value then nodeBefore [.comma, .flowSequenceEnd] false false fuel
      else pure (missing none)
    return .mapping [(k, v)] none

/-- The keys and values in braces, up to the closing one. A key need not have a value. -/
def flowPairs (first : Bool) : (fuel : Nat) → Takes (List (Yaml × Yaml))
  | 0 => fail
  | fuel + 1 => do
    if ← passIf .flowMappingEnd then return []
    else
      if !first then demand .comma
      if ← passIf .flowMappingEnd then return []
      else
        let pair ← if ← passIf .key then keyAndValue fuel
          else (node false false fuel).map (·, missing none)
        let pairs ← flowPairs false fuel
        return pair :: pairs

/-- A key in braces and its value. -/
def keyAndValue : (fuel : Nat) → Takes (Yaml × Yaml)
  | 0 => fail
  | fuel + 1 => do
    let k ← nodeBefore [.value, .comma, .flowMappingEnd] false false fuel
    let v ← if ← passIf .value then nodeBefore [.comma, .flowMappingEnd] false false fuel
      else pure (missing none)
    return (k, v)

end

/-! ### Documents -/

/-- The directives before a document: the handles they give; `fuel` bounds them. -/
def directives : (fuel : Nat) → (versioned : Bool) → Takes Bool
  | 0, versioned => return versioned
  | fuel + 1, versioned => do
    match ← peek with
    | some .version =>
      if versioned then fail
      else
        pass
        directives fuel true
    | some (.handle name lead) =>
      fun f =>
        if f.handles.any (·.1 == name) then none
        else directives fuel true
          { f with tokens := f.tokens.tail, handles := (name, lead) :: f.handles }
    | _ => return versioned

/-- The content of a document after its mark; `fuel` bounds the calls. -/
def content (fuel : Nat) : Takes Yaml := do
  match ← peek with
  | none => return missing none
  | some .documentStart => return missing none
  | some .documentEnd => return missing none
  | some .version => return missing none
  | some (.handle _ _) => return missing none
  | some _ => node true false fuel

/-- The document at the front, if there is one. The first one needs no mark. -/
def document? (first : Bool) (fuel : Nat) : Takes (Option Yaml) := fun f =>
  let start : Takes (Option Yaml) := do
    match ← peek with
    | none => return none
    | _ =>
      let directed ← directives fuel false
      if ← passIf .documentStart then (content fuel).map some
      else if first && !directed then (node true false fuel).map some
      else fail
  start { f with anchors := [], handles := [] }

/-- The marks of document ends passed; `fuel` bounds them. -/
def passEnds : (fuel : Nat) → Takes Unit
  | 0 => return ()
  | fuel + 1 => do
    if ← passIf .documentEnd then passEnds fuel
    else return ()

/-- All documents; `fuel` bounds the calls. -/
def documentsWithin (first : Bool) : (fuel : Nat) → Takes (List Yaml)
  | 0 => fail
  | fuel + 1 => do
    match ← document? first fuel with
    | none => return []
    | some d =>
      passEnds fuel
      let ds ← documentsWithin false fuel
      return d :: ds

/-- The documents of a text. -/
def documents? (text : String) : Option (List Yaml) := do
  let ts ← tokens? text
  let (ds, _) ← documentsWithin true (4 * ts.length + 8) { tokens := ts }
  some ds

end Yaml

end Parley
