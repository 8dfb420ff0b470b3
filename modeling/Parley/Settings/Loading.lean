import Parley.Settings.Layers

/-!
# Loading settings

Settings can be read from a text of a known format, from a file by its extension, from the variables
of an environment, from both, or from any layers.

* `Settings.ofFile` takes the format from the extension and reads strictly.
* `Settings.ofFileAndEnvironment` lets variables override what is in a file, `Settings.ofLayers` is the
  general case.
-/

namespace Parley

/-- Why settings could not be loaded. -/
inductive LoadingError where
  /-- The name of the file has no extension. -/
  | noExtension
  /-- No format goes by the extension. -/
  | unsupportedExtension (extension : String)
  /-- There is no file to begin with. -/
  | noFile (path : String)
  /-- The file cannot be opened. -/
  | missing
  /-- The file is no text. -/
  | noText
  /-- The text is wrong for its format, or holds no settings. -/
  | malformed (format : Settings.FileFormat)
  /-- The layers do not make up settings. -/
  | layers
  deriving DecidableEq, Repr

/-- The wording of an error, where there is one. -/
def LoadingError.message? : LoadingError → Option String
  | noExtension => some "Failed to load config: No file extension found"
  | unsupportedExtension e => some ("Failed to load config: Unsupported file extension: " ++ e)
  | noFile path => some ("Failed to load config: Config file not found: " ++ path)
  | missing => some "IO error: No such file or directory (os error 2)"
  | noText => some "IO error: stream did not contain valid UTF-8"
  | malformed _ => none
  | layers => none

namespace Settings

/-- The settings in a text of a format. -/
def FileFormat.settings? : FileFormat → String → Option Settings
  | toml, content => Toml.settings? content
  | yaml, content => Yaml.settings? content
  | json, content => Json.settings? content

/-- The settings in a text of a format. -/
def ofText (format : FileFormat) (content : String) : Except LoadingError Settings :=
  match format.settings? content with
  | some s => .ok s
  | none => .error (.malformed format)

/-- The text of a file. -/
def File.text (f : File) : Except LoadingError String :=
  match f.bytes with
  | none => .error .missing
  | some bytes =>
    match Text.Utf8.ofBytes? bytes with
    | some content => .ok content
    | none => .error .noText

/-- The settings in a file. -/
def ofFile (f : File) : Except LoadingError Settings :=
  match f.extension? with
  | none => .error .noExtension
  | some extension => do
    let content ← f.text
    match FileFormat.ofExtension? extension with
    | some format => ofText format content
    | none => .error (.unsupportedExtension extension)

/-- The settings in layers. -/
def ofLayers (env : Environment) (layers : List Layer) : Except LoadingError Settings :=
  match layered? env layers with
  | some s => .ok s
  | none => .error .layers

/-- What the names of variables with settings begin with. -/
def standardLead : String := "NEGOTIATION"

/-- The settings in the variables whose names begin with a word. -/
def ofEnvironment (lead : String) (env : Environment) : Except LoadingError Settings :=
  ofLayers env [.environment lead]

/-- The settings in a file, overridden by the variables whose names begin with a word. -/
def ofFileAndEnvironment (f : File) (lead : String) (env : Environment) :
    Except LoadingError Settings :=
  if f.bytes.isNone then .error (.noFile f.path)
  else ofLayers env [.file f true, .environment lead]

end Settings

end Parley
