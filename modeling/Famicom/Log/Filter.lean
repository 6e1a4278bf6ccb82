import Famicom.Log.Basic
import Famicom.Pattern.Build
import Famicom.Text.Blank

/-!
# Log filters

A filter is a list of directives divided by commas, each a level for all targets or a level for
the targets that begin with a name.  The longest name that fits a target decides; a target that
no directive fits is silent.  Behind a slash may stand a pattern that the messages have to match.
-/

namespace Famicom.Log

/-- The level shown for targets that begin with a name; no level shows nothing. -/
structure Directive where
  name : Option String
  level : Option Level
  deriving DecidableEq

structure Filter where
  /-- In the order in which they are tried from the last, so by length of the name. -/
  directives : List Directive
  pattern : Option Pattern

namespace Filter

def upTo (level : Option Level) : Filter :=
  ⟨[⟨none, level⟩], none⟩

def shows (level : Option Level) (severity : Level) : Bool :=
  match level with
  | some level => severity.verbosity ≤ level.verbosity
  | none => false

def fits (target : String) (d : Directive) : Bool :=
  match d.name with
  | some name => target.startsWith name
  | none => true

def enabled (f : Filter) (target : String) (severity : Level) : Bool :=
  match f.directives.reverse.find? (fits target) with
  | some d => shows d.level severity
  | none => false

def allows (f : Filter) (r : Record) : Bool :=
  f.enabled r.target r.level && f.pattern.all (·.occursIn r.message)

end Filter

/-! ### Reading filters -/

inductive FilterError where
  | directive (text : String)
  /-- More than one slash; all of the filter is ignored. -/
  | slashes (text : String)
  | pattern (text : String) (error : Pattern.BuildError)
  deriving DecidableEq

namespace FilterError

def message : FilterError → String
  | .directive text => s!"invalid logging spec '{text}'"
  | .slashes text => s!"invalid logging spec '{text}' (too many '/'s)"
  | .pattern text error => s!"invalid regex filter - {error.message text}"

def warning (e : FilterError) : String :=
  s!"warning: {e.message}, ignoring it"

end FilterError

namespace Filter

/-- Reads the name of a level in any case; the outer option tells whether it is one. -/
def level? (text : String) : Option (Option Level) :=
  match text.map Char.toLower with
  | "off" => some none
  | "error" => some (some .error)
  | "warn" => some (some .warn)
  | "info" => some (some .info)
  | "debug" => some (some .debug)
  | "trace" => some (some .trace)
  | _ => none

/-- Reads one directive; a name alone shows everything of that name. -/
def readDirective (text : String) : Except FilterError Directive :=
  match text.splitOn "=" with
  | [word] =>
    match level? word with
    | some level => .ok ⟨none, level⟩
    | none => .ok ⟨some word, some .trace⟩
  | [name, word] =>
    let word := Text.trim word
    if word.isEmpty then .ok ⟨some name, some .trace⟩
    else
      match level? word with
      | some level => .ok ⟨some name, level⟩
      | none => .error (.directive word)
  | _ => .error (.directive text)

/-- Adds a directive in place of an earlier one of the same name. -/
def insert (directives : List Directive) (d : Directive) : List Directive :=
  if directives.any (·.name == d.name) then
    directives.map fun e => if e.name == d.name then d else e
  else directives ++ [d]

/-- The length of the name in bytes, by which directives are ordered. -/
def nameLength (d : Directive) : Nat :=
  (d.name.map String.utf8ByteSize).getD 0

/-- The filter of some directives in the order given; without any, errors show. -/
def ofDirectives (directives : List Directive) (pattern : Option Pattern) : Filter :=
  if directives.isEmpty then { upTo (some .error) with pattern := pattern }
  else
    ⟨(directives.foldl insert []).mergeSort fun a b => nameLength a ≤ nameLength b, pattern⟩

/-- Reads directives divided by commas; those that cannot be read are ignored. -/
def readDirectives (text : String) : List Directive × List FilterError :=
  let parts := ((text.splitOn ",").map Text.trim).filter (· ≠ "")
  let results := parts.map readDirective
  (results.filterMap Except.toOption, results.filterMap fun
    | .error e => some e
    | .ok _ => none)

def read (text : String) : Filter × List FilterError :=
  match text.splitOn "/" with
  | [part] =>
    let (directives, errors) := readDirectives part
    (ofDirectives directives none, errors)
  | [part, pattern] =>
    let (directives, errors) := readDirectives part
    match Pattern.build pattern with
    | .ok found => (ofDirectives directives (some found), errors)
    | .error error => (ofDirectives directives none, errors ++ [.pattern pattern error])
  | _ => (ofDirectives [] none, [.slashes text])

end Filter

end Famicom.Log
