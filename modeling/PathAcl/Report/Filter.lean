import PathAcl.Report.Event
import PathAcl.Settings

/-! # Which events are logged
A filter is a list of directives, each of which lets events of a component pass up to a level. Of
the directives whose target begins the component's name the longest decides, and without one nothing
passes. -/

namespace PathAcl

/-- A **directive**: what passes of the components whose name begins with a target. -/
structure Directive where
  /-- The beginning of the name of a component; the empty text begins every name. -/
  target : String
  /-- The finest level that passes; nothing passes if there is none. -/
  finest : Option Level
  deriving Repr, DecidableEq

/-- Reads the name or number of a finest level: `off` and zero let nothing pass. -/
def Level.finestOfName? (name : String) : Option (Option Level) :=
  match name.toLower with
  | "off" | "0" => some none
  | "error" | "1" => some (some error)
  | "warn" | "2" => some (some warn)
  | "info" | "3" => some (some info)
  | "debug" | "4" => some (some debug)
  | "trace" | "5" => some (some trace)
  | _ => none

namespace Directive

/-- The characters a directive may begin with. -/
def mayBegin (c : Char) : Bool := c.isAlphanum || c == '-' || c == ':' || c == '_'

/-- Reads a directive: a level, a target, or both with an equals sign between. A target alone lets
everything pass. -/
def ofText? (text : String) : Option Directive :=
  let cs := Text.trim text.toList
  let name := String.ofList (cs.takeWhile (· != '='))
  if !(cs.head?.any mayBegin) then none
  else match cs.dropWhile (· != '=') with
    | [] =>
      match Level.finestOfName? name with
      | some finest => some ⟨"", finest⟩
      | none => some ⟨name, some .trace⟩
    | [_] => some ⟨name, some .trace⟩
    | _ :: level => (Level.finestOfName? (String.ofList level)).map fun finest => ⟨name, finest⟩

/-- Whether the directive speaks of a component. -/
def speaksOf (d : Directive) (component : String) : Bool :=
  d.target.toList.isPrefixOf component.toList

/-- Whether the directive lets a level pass. -/
def lets (d : Directive) (level : Level) : Bool :=
  match d.finest with
  | none => false
  | some finest => level.rank ≤ finest.rank

end Directive

/-- A **filter** of log events (`EnvFilter`). -/
structure LogFilter where
  directives : List Directive
  deriving Repr, DecidableEq

namespace LogFilter

/-- A filter of directives; of none at all, one that lets errors pass. -/
def ofDirectives : List Directive → LogFilter
  | [] => ⟨[⟨"", some .error⟩]⟩
  | ds => ⟨ds⟩

/-- The texts between commas, empty ones left out. -/
def pieces (text : String) : List String :=
  ((text.toList.splitOn ',').filter (!·.isEmpty)).map String.ofList

/-- Reads a filter, every directive of which has to be one. -/
def ofText? (text : String) : Option LogFilter :=
  ((pieces text).mapM Directive.ofText?).map ofDirectives

/-- Reads a filter and passes over what is no directive. -/
def ofText (text : String) : LogFilter := ofDirectives ((pieces text).filterMap Directive.ofText?)

/-- The filter of the settings, unless a readable one is given that goes before it (`env_filter`). -/
def ofSettings (settings : LogSettings) (given : Option String) : LogFilter :=
  match given.bind ofText? with
  | some f => f
  | none => ofText settings.level.toLower

/-- Whether an event passes: the longest target that speaks of its component decides, the last of
several. -/
def passes (f : LogFilter) (e : Event) : Bool :=
  ((Path.longest Directive.target (f.directives.filter (·.speaksOf e.target))).map
    (·.lets e.level)).getD false

end LogFilter

end PathAcl
