import Parley.Settings.Basic
import Parley.Text.Alphanumeric
import Parley.Text.Blank
import Parley.Text.Digits

/-!
# Log filters

A filter is a list of directives with commas between them. A directive lets entries of a target, or of
any target, through from a level on. The targets of entries are compared by how they begin, and the
longest target that fits decides.

* `Filter.ofText?` reads a filter; `Filter.allows` says whether it lets an entry through.
* `Logging.start` begins to log, if that has not begun yet.
-/

namespace Parley

/-- How important an entry must be to be let through; more is let through further down. -/
inductive Verbosity where
  /-- Nothing. -/
  | off
  /-- Errors. -/
  | error
  /-- Warnings too. -/
  | warn
  /-- Information too. -/
  | info
  /-- What helps to find errors too. -/
  | debug
  /-- Everything. -/
  | trace
  deriving DecidableEq, Repr, Inhabited

namespace Verbosity

/-- All of them, in order. -/
def all : List Verbosity := [off, error, warn, info, debug, trace]

/-- The name in filters. -/
def name : Verbosity → String
  | off => "off"
  | error => "error"
  | warn => "warn"
  | info => "info"
  | debug => "debug"
  | trace => "trace"

/-- The place in the order. -/
def number : Verbosity → Nat
  | off => 0
  | error => 1
  | warn => 2
  | info => 3
  | debug => 4
  | trace => 5

/-- What a text stands for: a number or a name in any case. -/
def ofText? (cs : List Char) : Option Verbosity :=
  match Text.readUnsigned? cs with
  | some n => all[n]?
  | none => all.find? fun v => v.name.toList == cs.map Char.toLower

end Verbosity

/-- A directive of a filter. -/
structure Directive where
  /-- How the targets begin; none for any target. -/
  target : Option String
  /-- What is let through. -/
  verbosity : Verbosity
  deriving DecidableEq, Repr

namespace Directive

/-- A directive may begin with this character. -/
def mayBegin (c : Char) : Bool := c = '-' || c = ':' || c = '_' || Text.isAlphanumeric c

/-- The directive without an equals sign: a level, or a target of which everything is let through. -/
def ofWord (cs : List Char) : Directive :=
  match Verbosity.ofText? cs with
  | some v => ⟨none, v⟩
  | none => ⟨some (String.ofList cs), .trace⟩

/-- The directive a text stands for. The first character, and the place of the equals sign, are those
of the trimmed text; what the directive holds is cut out of the text as it is. -/
def ofText? (cs : List Char) : Option Directive :=
  let trimmed := Text.trim cs
  if !trimmed.head?.any mayBegin then none
  else
    let place := (trimmed.takeWhile (· != '=')).length
    if place = trimmed.length then some (ofWord cs)
    else
      let target := some (String.ofList (cs.take place))
      let level := cs.drop (place + 1)
      if level.isEmpty then some ⟨target, .trace⟩
      else (Verbosity.ofText? level).map fun v => ⟨target, v⟩

/-- The directive is about entries of a target. -/
def concerns (target : String) (d : Directive) : Bool :=
  match d.target with
  | some t => t.toList.isPrefixOf target.toList
  | none => true

/-- The length of the target; less for none than for an empty one. -/
def weight (d : Directive) : Nat :=
  match d.target with
  | some t => t.utf8ByteSize + 1
  | none => 0

end Directive

/-- A list of directives. -/
abbrev Filter := List Directive

namespace Filter

/-- The filter a text stands for; empty directives are passed over. -/
def ofText? (s : String) : Option Filter :=
  ((Text.splitAt ',' s.toList).filter (!·.isEmpty)).mapM Directive.ofText?

/-- The heavier of two directives, and the second one of two that weigh the same. -/
def heavier (best : Option Directive) (d : Directive) : Option Directive :=
  match best with
  | some b => if d.weight < b.weight then some b else some d
  | none => some d

/-- The directive that decides about entries of a target: the one with the longest target that fits,
the last one of several. -/
def decisive? (f : Filter) (target : String) : Option Directive :=
  (f.filter (·.concerns target)).foldl heavier none

/-- What is let through of a target: errors if there are no directives at all, and nothing if none is
about the target. -/
def verbosity (f : Filter) (target : String) : Verbosity :=
  if f.isEmpty then .error
  else ((f.decisive? target).map (·.verbosity)).getD .off

/-- An entry of a level and a target is let through. -/
def allows (f : Filter) (level : Verbosity) (target : String) : Bool :=
  level.number ≤ (f.verbosity target).number

end Filter

/-! ### Beginning to log -/

/-- Why logging did not begin. -/
inductive LoggingError where
  /-- The filter cannot be read. -/
  | invalidFilter (filter : String)
  /-- Logging has begun already. -/
  | begun
  deriving DecidableEq, Repr

/-- What came of beginning to log: the entry that says so is let through or not. -/
structure LogStart where
  /-- What was configured. -/
  settings : LogSettings
  /-- The entry is let through. -/
  logged : Bool
  deriving DecidableEq, Repr

namespace LogStart

/-- The target of the entry that says that logging has begun. -/
def target : String := "contract_negotiation::logging"

/-- The text of that entry. -/
def message : String := "tracing initialized"

end LogStart

namespace Logging

/-- The filter of a level. -/
def filterOf (level : String) : Except LoggingError Filter :=
  match Filter.ofText? level with
  | some f => .ok f
  | none => .error (.invalidFilter level)

/-- The filter in force: the one of the environment if there is a valid one, else that of the
settings. -/
def filterInForce (environment : Option String) (s : LogSettings) : Except LoggingError Filter :=
  match environment.bind Filter.ofText? with
  | some f => .ok f
  | none => filterOf s.level

/-- Logging begins with some settings, unless it has begun. -/
def start (environment : Option String) (begun : Bool) (s : LogSettings) :
    Except LoggingError LogStart := do
  let f ← filterInForce environment s
  if begun then .error .begun else .ok ⟨s, f.allows .info LogStart.target⟩

/-- Logging begins with several settings, one after the other. -/
def startAll (environment : Option String) : (begun : Bool) → List LogSettings →
    List (Except LoggingError LogStart)
  | _, [] => []
  | begun, s :: ss =>
    let r := start environment begun s
    r :: startAll environment (begun || r.isOk) ss

end Logging

end Parley
