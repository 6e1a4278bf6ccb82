import Famicom.Console.Trace
import Famicom.Pacing.Sample

/-!
# Command line options

Options have a long and a short name and take a value: behind an equals sign, in the next
argument, or, for short names, directly behind the letter.  An argument that begins with a dash
is never taken for a value.  Arguments are read from left to right, and the first one that asks
for something else or cannot be read ends the reading.
-/

namespace Famicom.CommandLine

structure Options where
  rom : String
  /-- The number of epochs after which to stop. -/
  epochs : Option Nat
  format : Pacing.Format
  screenshot : Option String
  traces : List Console.TraceTarget
  deriving DecidableEq

inductive Stop where
  | version
  | help
  | usage
  deriving DecidableEq

inductive Key where
  | rom
  | epochs
  | format
  | screenshot
  | trace
  deriving DecidableEq

namespace Key

def long : Key → String
  | .rom => "rom"
  | .epochs => "epochs"
  | .format => "format"
  | .screenshot => "screenshot"
  | .trace => "trace"

def short : Key → Char
  | .rom => 'r'
  | .epochs => 'e'
  | .format => 'f'
  | .screenshot => 's'
  | .trace => 't'

def all : List Key :=
  [.rom, .epochs, .format, .screenshot, .trace]

end Key

/-! ### Values -/

/-- Reads a decimal number of 64 bits, with or without a plus sign. -/
def number? (text : String) : Option Nat :=
  let digits := match text.toList with
    | '+' :: rest => rest
    | cs => cs
  if digits.isEmpty || !digits.all Char.isDigit then none
  else
    let n := digits.foldl (fun n c => 10 * n + (c.toNat - 48)) 0
    if n < Pacing.countLimit then some n else none

def format? : String → Option Pacing.Format
  | "text" => some .text
  | "json" => some .json
  | _ => none

/-- Reads the name of a file, which is not empty. -/
def path? (text : String) : Option String :=
  if text.isEmpty then none else some text

structure Draft where
  rom : Option String := none
  epochs : Option Nat := none
  format : Option Pacing.Format := none
  screenshot : Option String := none
  traces : List Console.TraceTarget := []
  /-- The option whose value is the next argument. -/
  awaiting : Option Key := none
  /-- Options have been ended by two dashes. -/
  ended : Bool := false

/-- Takes a value that may be given once. -/
def once {α : Type} (old : Option α) (value : Option α) : Option α :=
  if old.isSome then none else value

/-- Takes the value of an option.  Only traces may be given more than once. -/
def Draft.assign (d : Draft) (key : Key) (value : String) : Except Stop Draft :=
  let draft? : Option Draft :=
    match key with
    | .rom => (once d.rom (path? value)).map fun v => { d with rom := some v }
    | .epochs => (once d.epochs (number? value)).map fun v => { d with epochs := some v }
    | .format => (once d.format (format? value)).map fun v => { d with format := some v }
    | .screenshot =>
      (once d.screenshot (path? value)).map fun v => { d with screenshot := some v }
    | .trace =>
      (Console.TraceTarget.ofWord? value).map fun v => { d with traces := d.traces ++ [v] }
  match draft? with
  | some draft => .ok { draft with awaiting := none }
  | none => .error .usage

/-! ### Arguments -/

def Draft.long (d : Draft) (body : List Char) : Except Stop Draft :=
  let name := String.ofList (body.takeWhile (· ≠ '='))
  let value := body.dropWhile (· ≠ '=')
  match Key.all.find? (·.long == name), value with
  | some key, [] => .ok { d with awaiting := some key }
  | some key, _ :: text => d.assign key (String.ofList text)
  | none, [] =>
    if name == "version" then .error .version
    else if name == "help" then .error .help
    else .error .usage
  | none, _ => .error .usage

def Draft.short (d : Draft) (letter : Char) (rest : List Char) : Except Stop Draft :=
  match Key.all.find? (·.short == letter), rest with
  | some key, [] => .ok { d with awaiting := some key }
  | some key, '=' :: text => d.assign key (String.ofList text)
  | some key, text => d.assign key (String.ofList text)
  | none, _ =>
    if letter == 'V' then .error .version
    else if letter == 'h' then .error .help
    else .error .usage

def Draft.take (d : Draft) (argument : String) : Except Stop Draft :=
  match d.awaiting, argument.toList with
  | some _, '-' :: _ :: _ => .error .usage
  | some key, _ => d.assign key argument
  | none, cs =>
    if d.ended then .error .usage
    else
      match cs with
      | ['-', '-'] => .ok { d with ended := true }
      | '-' :: '-' :: body => d.long body
      | '-' :: letter :: rest => d.short letter rest
      | _ => .error .usage

def Draft.finish (d : Draft) : Except Stop Options :=
  match d.awaiting, d.rom with
  | none, some rom => .ok ⟨rom, d.epochs, d.format.getD .text, d.screenshot, d.traces⟩
  | _, _ => .error .usage

def Options.ofArguments (arguments : List String) : Except Stop Options := do
  let draft ← arguments.foldlM Draft.take {}
  draft.finish

end Famicom.CommandLine
