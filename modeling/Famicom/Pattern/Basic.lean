import Famicom.Pattern.CharSet

/-!
# Patterns

Regular expressions, and whether one matches somewhere in a text.  A text of `n` characters has
`n + 1` places, before, between and behind its characters.  A set of places tells for each in turn
whether it is in the set, and a pattern takes the places where a match may begin to those where it
may end.
-/

namespace Famicom

/-! ### Conditions -/

inductive WordEdge where
  | boundary
  | noBoundary
  | start
  | stop
  /-- No word goes on from the left. -/
  | halfStart
  /-- No word goes on to the right. -/
  | halfStop
  deriving DecidableEq

/-- A place is of that kind, given whether words stand to its left and to its right. -/
def WordEdge.holds (edge : WordEdge) (left right : Bool) : Bool :=
  match edge with
  | .boundary => left != right
  | .noBoundary => left == right
  | .start => !left && right
  | .stop => left && !right
  | .halfStart => !left
  | .halfStop => !right

inductive Assertion where
  | textStart
  | textEnd
  /-- With `returns`, a carriage return ends a line too, and before a line feed both are one end. -/
  | lineStart (returns : Bool)
  | lineEnd (returns : Bool)
  | word (edge : WordEdge)
  /-- At words of all scripts, of which nothing is known here. -/
  | wideWord (edge : WordEdge)
  deriving DecidableEq

namespace Assertion

def inWord (c : Option Char) : Bool :=
  c.any CharSet.wordChars.contains

/-- The condition holds between two characters; the ends of the text have none. -/
def holds (a : Assertion) (before after : Option Char) : Bool :=
  match a with
  | .textStart => before.isNone
  | .textEnd => after.isNone
  | .lineStart returns =>
    before.isNone || before == some '\n' ||
      (returns && before == some '\r' && after != some '\n')
  | .lineEnd returns =>
    after.isNone || (after == some '\n' && !(returns && before == some '\r')) ||
      (returns && after == some '\r')
  | .word edge => edge.holds (inWord before) (inWord after)
  | .wideWord _ => false

end Assertion

/-! ### Expressions -/

inductive Pattern where
  | empty
  | literal (chars : List Char)
  | char (set : CharSet)
  | assertion (condition : Assertion)
  | capture (index : Nat) (body : Pattern)
  | sequence (first second : Pattern)
  | choice (first second : Pattern)
  /-- At least and, if there is a limit, at most so many times. -/
  | repetition (body : Pattern) (least : Nat) (most : Option Nat)
  deriving DecidableEq

namespace Pattern

/-! ### Sets of places -/

abbrev Places : Type :=
  List Bool

def allPlaces (text : List Char) : Places :=
  true :: text.map fun _ => true

/-- The places behind the characters that pass a test and stand behind given places. -/
def placesBehind (test : Char → Bool) (text : List Char) (places : Places) : Places :=
  false :: List.zipWith (fun c here => here && test c) text places

/-- Those of given places where a condition holds, given the character to the left of the text. -/
def placesWhere (condition : Assertion) : Option Char → List Char → Places → Places
  | before, c :: rest, here :: later =>
    (here && condition.holds before (some c)) :: placesWhere condition (some c) rest later
  | before, [], here :: _ => [here && condition.holds before none]
  | _, _, [] => []

/-- Takes places on exactly `n` times, which need not be done when they stay the same. -/
def exactly (f : Places → Places) : Nat → Places → Places
  | 0, places => places
  | n + 1, places =>
    let reached := f places
    if reached == places then places else exactly f n reached

/-- Takes places on up to `n` times, or until nothing new is reached. -/
def upTo (f : Places → Places) : Nat → Places → Places
  | 0, places => places
  | n + 1, places =>
    let reached := List.zipWith (· || ·) places (f places)
    if reached == places then places else upTo f n reached

/-! ### Matching -/

/-- The places where matches may end that begin at given places.  A repetition of more times than
there are places reaches nothing new, so its count is cut there. -/
def ends (text : List Char) : Pattern → Places → Places
  | .empty, places => places
  | .literal chars, places =>
    chars.foldl (fun places c => placesBehind (· == c) text places) places
  | .char set, places => placesBehind set.contains text places
  | .assertion condition, places => placesWhere condition none text places
  | .capture _ body, places => ends text body places
  | .sequence first second, places =>
    let middle := ends text first places
    if middle.any id then ends text second middle else middle
  | .choice first second, places =>
    List.zipWith (· || ·) (ends text first places) (ends text second places)
  | .repetition body least most, places =>
    let limit := text.length + 1
    let more := match most with
      | some most => min (most - least) limit
      | none => limit
    upTo (ends text body) more (exactly (ends text body) (min least limit) places)

def occursIn (p : Pattern) (text : String) : Bool :=
  let text := text.toList
  (ends text p (allPlaces text)).any id

end Pattern

end Famicom
