import Famicom.Pattern.Position
import Famicom.Text

/-!
# Problems of patterns

Why a text is not a pattern, where in the text, and how both are shown.  A text of one line stands
on a line of its own, and below it a mark under each character concerned.  The lines of a longer
text are numbered and stand between two rules; a stretch over several lines is described in words
instead of marks.
-/

namespace Famicom.Pattern

inductive Fault where
  | classEscape
  | classRange
  | classRangeLiteral
  | classUnclosed
  | decimalInvalid
  | hexEmpty
  | hexInvalid
  | hexDigit
  | escapeEnd
  | escapeUnknown
  | flagDangling
  | flagTwice
  | flagNegatedTwice
  | flagEnd
  | flagUnknown
  | nameTwice
  | nameEmpty
  | nameChar
  | nameEnd
  | groupUnclosed
  | groupUnopened
  | nesting
  | countRange
  | countEmpty
  | countUnclosed
  | repetitionMissing
  | wordUnclosed
  | wordUnknown
  | wordEnd
  | propertyEscape
  | backreference
  | lookAround
  /-- A character stands where only bytes can. -/
  | wideChar
  /-- Bytes that are no character would match. -/
  | partOfChar
  | propertyUnknown
  | propertyValueUnknown
  | shorthandUnknown
  | caseUnknown
  deriving DecidableEq

def nestingLimit : Nat := 250

def Fault.message : Fault → String
  | .classEscape => "invalid escape sequence found in character class"
  | .classRange => "invalid character class range, the start must be <= the end"
  | .classRangeLiteral => "invalid range boundary, must be a literal"
  | .classUnclosed => "unclosed character class"
  | .decimalInvalid => "decimal literal invalid"
  | .hexEmpty => "hexadecimal literal empty"
  | .hexInvalid => "hexadecimal literal is not a Unicode scalar value"
  | .hexDigit => "invalid hexadecimal digit"
  | .escapeEnd => "incomplete escape sequence, reached end of pattern prematurely"
  | .escapeUnknown => "unrecognized escape sequence"
  | .flagDangling => "dangling flag negation operator"
  | .flagTwice => "duplicate flag"
  | .flagNegatedTwice => "flag negation operator repeated"
  | .flagEnd => "expected flag but got end of regex"
  | .flagUnknown => "unrecognized flag"
  | .nameTwice => "duplicate capture group name"
  | .nameEmpty => "empty capture group name"
  | .nameChar => "invalid capture group character"
  | .nameEnd => "unclosed capture group name"
  | .groupUnclosed => "unclosed group"
  | .groupUnopened => "unopened group"
  | .nesting =>
    s!"exceed the maximum number of nested parentheses/brackets ({nestingLimit})"
  | .countRange => "invalid repetition count range, the start must be <= the end"
  | .countEmpty => "repetition quantifier expects a valid decimal"
  | .countUnclosed => "unclosed counted repetition"
  | .repetitionMissing => "repetition operator missing expression"
  | .wordUnclosed =>
    "special word boundary assertion is either unclosed or contains an invalid character"
  | .wordUnknown =>
    "unrecognized special word boundary assertion, " ++
      "valid choices are: start, end, start-half or end-half"
  | .wordEnd =>
    "found either the beginning of a special word boundary or a bounded repetition on a \\b " ++
      "with an opening brace, but no closing brace"
  | .propertyEscape => "invalid Unicode character class"
  | .backreference => "backreferences are not supported"
  | .lookAround => "look-around, including look-ahead and look-behind, is not supported"
  | .wideChar => "Unicode not allowed here"
  | .partOfChar => "pattern can match invalid UTF-8"
  | .propertyUnknown => "Unicode property not found"
  | .propertyValueUnknown => "Unicode property value not found"
  | .shorthandUnknown =>
    "Unicode-aware Perl class not found (make sure the unicode-perl feature is enabled)"
  | .caseUnknown =>
    "Unicode-aware case insensitivity matching is not available " ++
      "(make sure the unicode-case feature is enabled)"

structure Problem where
  fault : Fault
  span : Span
  /-- What came first, where the fault is to give it again. -/
  first : Option Span := none
  deriving DecidableEq

namespace Problem

def spans (p : Problem) : List Span :=
  p.first.toList ++ [p.span]

/-! ### Marks -/

/-- A line with marks under a stretch; `line` is as long as the columns before it. -/
def markSpan (line : String) (s : Span) : String :=
  (line.pushn ' ' (s.start.column - 1 - line.length)).pushn '^' s.width

def marks? (p : Problem) (line : Nat) : Option String :=
  match p.spans.filter fun s => s.onOneLine && s.start.line == line with
  | [] => none
  | spans => some (spans.foldl markSpan "")

def describe (s : Span) : String :=
  s!"on line {s.start.line} (column {s.start.column}) " ++
    s!"through line {s.stop.line} (column {s.stop.column - 1})"

/-! ### Lines -/

def linesOf (text : String) : List String :=
  match (text.splitOn "\n").reverse with
  | [] => []
  | last :: ended =>
    let ended := ended.map fun line => (line.dropSuffix "\r").toString
    (if last.isEmpty then ended else last :: ended).reverse

def noteLine (p : Problem) (lead : String) (number : Nat) (line : String) : List String :=
  (lead ++ line) ::
    (p.marks? number).toList.map fun marks => "".pushn ' ' lead.length ++ marks

def noteShort (p : Problem) (text : String) : List String :=
  p.noteLine "    " 1 text

def rule : String :=
  "".pushn '~' 79

/-- The lines of a text of several lines.  Numbers are as wide as that of the last line, which is
the empty one behind a line end. -/
def noteLong (p : Problem) (text : String) : List String :=
  let width := (toString (text.splitOn "\n").length).length
  let noted := (linesOf text).zipIdx.flatMap fun (line, i) =>
    p.noteLine (Text.padLeft width (toString (i + 1)) ++ ": ") (i + 1) line
  [rule] ++ noted ++ [rule] ++ (p.spans.filter fun s => !s.onOneLine).map describe

def message (p : Problem) (text : String) : String :=
  let notes := if text.contains '\n' then p.noteLong text else p.noteShort text
  "\n".intercalate (["regex parse error:"] ++ notes ++ [s!"error: {p.fault.message}"])

end Problem

end Famicom.Pattern
