import Famicom.Pattern.Class
import Famicom.Pattern.Group

/-!
# Reading patterns

The grammar of regular expressions: alternatives of sequences of elements, each of which may be
repeated.  The first fault from the left is reported; a group that is not closed is one at the end
of the text.
-/

namespace Famicom.Pattern

/-! ### Elements -/

def readElement (c : Char) : Reading Tree := do
  if c == '\\' then return .element (← readEscape)
  else if c == '[' then readClass
  else
    let span ← nextSpan
    advance 1
    match c with
    | '.' => return .element (.dot span)
    | '^' => return .element (.anchor span .lineStart)
    | '$' => return .element (.anchor span .lineEnd)
    | _ => return .element (.literal ⟨span, c, false⟩)

/-! ### Repetitions -/

def countLimit : Nat := 0x100000000

def skipBlanks : Reading Unit := do
  advance ((← remaining).takeWhile Text.isBlank).length

/-- Reads a count, which blanks may surround.  The faults of a count without digits and of one that
is too large are its result, because the signs behind it decide whether they are reported. -/
def readCount : Reading (Except Problem Nat) := do
  skipBlanks
  let start ← here
  let digits ← readAll Char.isDigit
  let span ← since start
  skipBlanks
  let n := digits.foldl (fun n c => 10 * n + (c.toNat - 48)) 0
  if digits.isEmpty then return .error ⟨.countEmpty, span, none⟩
  else if n < countLimit then return .ok n
  else return .error ⟨.decimalInvalid, span, none⟩

def readCounts (start : Position) : Reading (Nat × Option Nat) := do
  advanceSpaced
  if (← next?).isNone then fail .countUnclosed (← since start)
  else
    let least ← readCount
    match ← next? with
    | none => fail .countUnclosed (← since start)
    | some ',' =>
      advanceSpaced
      match ← next? with
      | none => fail .countUnclosed (← since start)
      | some '\x7d' => return (← liftM least, none)
      | some _ =>
        let least ← liftM least
        let most ← liftM (← readCount)
        return (least, some most)
    | some _ =>
      let n ← liftM least
      return (n, some n)

/-- Moves past the sign that asks for the shortest repetition, which does not change whether there
is one. -/
def skipLazy : Reading Unit := do
  if (← next?) == some '?' then advance 1

def readCounted (body : Tree) : Reading Tree := do
  let start ← here
  let (least, most) ← readCounts start
  if (← next?) != some '\x7d' then fail .countUnclosed (← since start)
  else
    advanceSpaced
    skipLazy
    if most.any (· < least) then fail .countRange (← since start)
    else return .repetition (← since body.span.start) body least most

def readRepetition (sign : Char) (body : Tree) : Reading Tree := do
  if sign == '\x7b' then readCounted body
  else
    advance 1
    skipLazy
    let span ← since body.span.start
    match sign with
    | '*' => return .repetition span body 0 none
    | '+' => return .repetition span body 1 none
    | _ => return .repetition span body 0 (some 1)

def isRepetition (c : Char) : Bool :=
  c == '*' || c == '+' || c == '?' || c == '\x7b'

def isRepeatable : Tree → Bool
  | .empty _ | .flags _ _ => false
  | _ => true

/-! ### Sequences and alternatives -/

structure Branches where
  start : Position
  /-- The alternatives before the current one, the last first. -/
  before : List Tree
  current : Position
  items : List Tree

namespace Branches

def startingAt (p : Position) : Branches :=
  ⟨p, [], p, []⟩

def push (b : Branches) (item : Tree) : Branches :=
  { b with items := item :: b.items }

def closed (b : Branches) (stop : Position) : List Tree :=
  .ofItems ⟨b.current, stop⟩ b.items :: b.before

def tree (b : Branches) (stop : Position) : Tree :=
  .ofBranches ⟨b.start, stop⟩ (b.closed stop)

end Branches

def setSpaced (spaced : Bool) : Reading Unit :=
  modify fun c => { c with spaced := spaced }

def spacedAfter (spaced : Bool) (changes : FlagChanges) : Bool :=
  ((changes.find? (·.1 == .spaced)).map (·.2)).getD spaced

def GroupKind.changes : GroupKind → FlagChanges
  | .capture _ => []
  | .plain changes => changes

/-- Reads the rest of a group, or of the whole pattern; `fuel` bounds the number of items. -/
def readItems : (fuel : Nat) → (opened : Option Span) → Branches → Reading Tree
  | 0, _, b => return b.tree (← here)
  | fuel + 1, opened, b => do
    skipSpace
    let stop ← here
    match ← next? with
    | none =>
      match opened with
      | some span => fail .groupUnclosed span
      | none => return b.tree stop
    | some ')' =>
      if opened.isNone then fail .groupUnopened (← nextSpan)
      else
        advance 1
        return b.tree stop
    | some '|' =>
      advance 1
      readItems fuel opened ⟨b.start, b.closed stop, ← here, []⟩
    | some '(' =>
      let spaced := (← get).spaced
      match ← readOpening with
      | .flags span changes =>
        setSpaced (spacedAfter spaced changes)
        readItems fuel opened (b.push (.flags span changes))
      | .group span kind =>
        setSpaced (spacedAfter spaced kind.changes)
        let body ← readItems fuel (some span) (.startingAt (← here))
        setSpaced spaced
        readItems fuel opened (b.push (.group (← since span.start) kind body))
    | some c =>
      if isRepetition c then
        match b.items with
        | body :: items =>
          if isRepeatable body then
            let repeated ← readRepetition c body
            readItems fuel opened { b with items := repeated :: items }
          else fail .repetitionMissing (← spot)
        | [] => fail .repetitionMissing (← spot)
      else
        let element ← readElement c
        readItems fuel opened (b.push element)

def read (text : String) : Except Problem Tree :=
  let cs := text.toList
  (readItems (cs.length + 1) none (.startingAt .first)).run' ⟨cs, .first, false, [], 0⟩

end Famicom.Pattern
