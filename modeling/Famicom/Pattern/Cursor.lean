import Famicom.Pattern.Problem
import Famicom.Pattern.Tree
import Famicom.Text.Blank

/-!
# Reading a pattern

The state of a reader that goes over the text of a pattern from left to right, and its single
steps.  Where blanks do not count, they and comments are passed over between signs.
-/

namespace Famicom.Pattern

structure Cursor where
  rest : List Char
  position : Position
  /-- Blanks and comments do not count. -/
  spaced : Bool
  names : List (List Char × Span)
  groups : Nat

abbrev Reading (α : Type) : Type :=
  StateT Cursor (Except Problem) α

def fail {α : Type} (fault : Fault) (span : Span) : Reading α :=
  throw ⟨fault, span, none⟩

/-! ### Positions -/

def here : Reading Position :=
  return (← get).position

def since (start : Position) : Reading Span :=
  return ⟨start, ← here⟩

def spot : Reading Span :=
  return .point (← here)

/-! ### Signs -/

def remaining : Reading (List Char) :=
  return (← get).rest

def next? : Reading (Option Char) :=
  return (← get).rest.head?

def nextSpan : Reading Span := do
  let c ← get
  return ⟨c.position, c.position.afterAll (c.rest.take 1)⟩

def advance (n : Nat) : Reading Unit :=
  modify fun c =>
    { c with rest := c.rest.drop n, position := c.position.afterAll (c.rest.take n) }

/-- The number of signs up to and with the next line end. -/
def commentLength (cs : List Char) : Nat :=
  min ((cs.takeWhile (· ≠ '\n')).length + 1) cs.length

/-- The number of signs of the blanks and comments at the beginning; `fuel` bounds how many there
are. -/
def spaceLength : (fuel : Nat) → List Char → Nat
  | 0, _ => 0
  | _ + 1, [] => 0
  | fuel + 1, c :: rest =>
    if Text.isBlank c then 1 + spaceLength fuel rest
    else if c == '#' then
      let n := commentLength rest
      1 + n + spaceLength fuel (rest.drop n)
    else 0

/-- Moves past blanks and comments where they do not count. -/
def skipSpace : Reading Unit := do
  let c ← get
  if c.spaced then advance (spaceLength c.rest.length c.rest)

def advanceSpaced : Reading Unit := do
  advance 1
  skipSpace

/-- Reads signs as long as they pass a test, with what does not count behind each; `fuel` bounds
their number. -/
def readWhile (test : Char → Bool) : (fuel : Nat) → Reading (List Char)
  | 0 => return []
  | fuel + 1 => do
    match ← next? with
    | some c =>
      if test c then
        advanceSpaced
        return c :: (← readWhile test fuel)
      else return []
    | none => return []

def readAll (test : Char → Bool) : Reading (List Char) := do
  readWhile test (← remaining).length

end Famicom.Pattern
