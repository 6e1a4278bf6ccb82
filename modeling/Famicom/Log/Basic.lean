import Famicom.Text.Control

/-!
# Log records

A record is a message with a severity and the name of the part of the program it comes from.  It
is written on a line, or on several when the message has more than one.
-/

namespace Famicom.Log

/-- Severities, the gravest first. -/
inductive Level where
  | error
  | warn
  | info
  | debug
  | trace
  deriving DecidableEq

namespace Level

def name : Level → String
  | .error => "ERROR"
  | .warn => "WARN"
  | .info => "INFO"
  | .debug => "DEBUG"
  | .trace => "TRACE"

/-- How much is shown when this is the least severity shown. -/
def verbosity : Level → Nat
  | .error => 1
  | .warn => 2
  | .info => 3
  | .debug => 4
  | .trace => 5

end Level

structure Record where
  level : Level
  target : String
  message : String
  deriving DecidableEq

def Record.text (r : Record) : String :=
  s!"{r.level.name} {r.target} {r.message}"

def indent : String := "    "

/-- The lines on which a text is written: those but the first are indented, and what steers a
terminal is left out. -/
def linesOf (text : String) : List String :=
  let indented := ("\n" ++ indent).intercalate (text.splitOn "\n")
  (Text.withoutControls indented).splitOn "\n"

/-- The lines on which a record is written.  Most records have nothing to indent or leave out. -/
def Record.lines (r : Record) : List String :=
  let text := r.text
  if text.all Text.isPrintable then [text] else linesOf text

end Famicom.Log
