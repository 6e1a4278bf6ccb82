import Famicom.Pattern.Extent
import Famicom.Pattern.Meaning
import Famicom.Pattern.Nesting
import Famicom.Pattern.Reader

/-!
# Building patterns

From the text of a pattern to one that can be matched.  The text is read, then its nesting is
checked, then flags are applied, and last the automata of the pattern have to be such as can be
built: not too large, and without conditions on words of all scripts.
-/

namespace Famicom.Pattern

inductive BuildError where
  | problem (problem : Problem)
  | tooLarge
  /-- Words of all scripts are not known. -/
  | wideWords
  deriving DecidableEq

/-- The most bytes that an automaton may have. -/
def sizeLimit : Nat := 10485760

def BuildError.message (e : BuildError) (text : String) : String :=
  match e with
  | .problem p => p.message text
  | .tooLarge => s!"Compiled regex exceeds size limit of {sizeLimit} bytes."
  | .wideWords => "error building NFA"

def asksWideWords : Pattern → Bool
  | .assertion (.wideWord _) => true
  | .capture _ body | .repetition body _ _ => asksWideWords body
  | .sequence first second | .choice first second =>
    asksWideWords first || asksWideWords second
  | .empty | .literal _ | .char _ | .assertion _ => false

/-- The pattern has automata in both directions. -/
def checkAutomata (p : Pattern) : Except BuildError Unit :=
  if sizeLimit < automatonSize p .forward then .error .tooLarge
  else if asksWideWords p then .error .wideWords
  else if sizeLimit < automatonSize p .backward then .error .tooLarge
  else .ok ()

/-- The pattern of a text, before its automata are considered. -/
def meaningOf (text : String) : Except Problem Pattern := do
  let tree ← read text
  tree.checkNesting 0
  let (p, _) ← tree.meaning .initial
  return p

def build (text : String) : Except BuildError Pattern :=
  match meaningOf text with
  | .error problem => .error (.problem problem)
  | .ok p => do
    checkAutomata p
    return p

end Famicom.Pattern
