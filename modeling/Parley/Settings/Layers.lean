import Parley.Settings.JsonForm
import Parley.Settings.TomlForm
import Parley.Settings.YamlForm
import Parley.Text.Utf8

/-!
# Layers of settings

Settings can be put together from layers: values to fall back on, files and environments, and values
that override all. Files and environments count in the order in which they are given, a later one over
an earlier one.

* `Layer.layOnto?` puts one layer onto a tree, `layered?` reads settings from all layers.
-/

namespace Parley.Settings

/-- The variables of an environment with their values. -/
abbrev Environment := List (String × String)

/-- A file: where it is, and its bytes if it is there. -/
structure File where
  /-- The directory. -/
  directory : String
  /-- The name. -/
  name : String
  /-- The bytes; none if there is no such file. -/
  bytes : Option (List UInt8)
  deriving DecidableEq, Repr

/-- A layer of settings. -/
inductive Layer where
  /-- A value to fall back on. -/
  | fallback (key value : String)
  /-- A value that overrides all. -/
  | override (key value : String)
  /-- The variables whose names begin with a word. -/
  | environment (lead : String)
  /-- A file, which may be missing unless it is required. -/
  | file (file : File) (required : Bool)
  deriving DecidableEq, Repr

/-! ### Files -/

/-- A format of files. -/
inductive FileFormat where
  /-- TOML. -/
  | toml
  /-- YAML. -/
  | yaml
  /-- JSON. -/
  | json
  deriving DecidableEq, Repr, Inhabited

/-- The format that an extension stands for. -/
def FileFormat.ofExtension? (extension : String) : Option FileFormat :=
  if extension = "toml" then some .toml
  else if extension = "yaml" || extension = "yml" then some .yaml
  else if extension = "json" then some .json
  else none

/-- The tree in a text of a format. -/
def FileFormat.tree? : FileFormat → String → Option Tree
  | toml, content => Toml.tree? content
  | yaml, content => Yaml.tree? content
  | json, content => Json.tree? content

namespace File

/-- The path of a file. -/
def path (f : File) : String := f.directory ++ "/" ++ f.name

/-- What follows the last point of the name, if something stands in front of that point. -/
def extension? (f : File) : Option String :=
  let parts := Text.splitAt '.' f.name.toList
  match parts.reverse with
  | last :: before :: others =>
    if before.isEmpty && others.isEmpty then none else some (String.ofList last)
  | _ => none

/-- The format of a file by its extension; TOML unless the extension says otherwise. -/
def format (f : File) : FileFormat := (f.extension?.bind FileFormat.ofExtension?).getD .toml

/-- The text in the bytes of a file, without a mark of the byte order; what cannot be read is
replaced. -/
def content (bytes : List UInt8) : String :=
  Text.Utf8.ofBytesLossy (if [0xEF, 0xBB, 0xBF].isPrefixOf bytes then bytes.drop 3 else bytes)

end File

/-- The named values in a tree that is a table. -/
def Tree.entries? : Tree → Option (List (String × Tree))
  | .table members => some members
  | _ => none

/-! ### Environments -/

/-- The value of a variable: a truth value, a whole number or a number if it looks like one. -/
def Environment.value (s : String) : Tree :=
  let word := Text.lowercaseText s
  if word = "true" then .flag true
  else if word = "false" then .flag false
  else match Text.readSigned? s.toList with
    | some i => .whole i
    | none =>
      match Double.ofText? s with
      | some x => .real x
      | none => .text s

/-- The key of a variable whose name begins with a word and an underscore, whatever the case: the
rest of the name, with a point for every two underscores. -/
def Environment.key? (lead name : String) : Option String :=
  let name := Text.lowercase name.toList
  let front := Text.lowercase (lead.toList ++ ['_'])
  if front.isPrefixOf name then
    some (String.ofList (Text.replace ['_', '_'] ['.'] (name.drop front.length)))
  else none

/-- The keys and values of the variables whose names begin with a word. -/
def Environment.entries (lead : String) (env : Environment) : List (String × Tree) :=
  env.filterMap fun (name, value) =>
    (Environment.key? lead name).map fun key => (key, Environment.value value)

/-! ### Layers -/

namespace Layer

/-- The layer's place in the order: what is fallen back on first, what overrides last. -/
def rank : Layer → Nat
  | fallback _ _ => 0
  | environment _ => 1
  | file _ _ => 1
  | override _ _ => 2

/-- The keys and values of a layer. -/
def entries? (env : Environment) : Layer → Option (List (String × Tree))
  | fallback key value => (Tree.path? key).map fun _ => [(key, .text value)]
  | override key value => (Tree.path? key).map fun _ => [(key, .text value)]
  | environment lead => some (env.entries lead)
  | file f required =>
    match f.bytes with
    | some bytes => (f.format.tree? (File.content bytes)).bind Tree.entries?
    | none => if required then none else some []

/-- A tree with a layer put onto it. -/
def layOnto? (env : Environment) (t : Tree) (l : Layer) : Option Tree :=
  (l.entries? env).map fun entries => t.putKeys entries

end Layer

/-- The layers in the order in which they count. -/
def ordered (layers : List Layer) : List Layer :=
  (List.range 3).flatMap fun rank => layers.filter (·.rank == rank)

/-- The tree of all layers. -/
def layeredTree? (env : Environment) (layers : List Layer) : Option Tree :=
  (ordered layers).foldlM (Layer.layOnto? env) (.table [])

/-- The settings in all layers. -/
def layered? (env : Environment) (layers : List Layer) : Option Settings :=
  (layeredTree? env layers).bind Tree.dialect.settings?

end Parley.Settings
