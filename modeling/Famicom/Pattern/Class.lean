import Famicom.Pattern.Escape

/-!
# Classes

Sets of characters between square brackets: characters, ranges, named sets and classes within
the class, joined by the operations of sets.
-/

namespace Famicom.Pattern

/-! ### Brackets -/

structure OpenClass where
  span : Span
  negated : Bool
  start : Position
  /-- What stood where only a character can stand, the last first. -/
  members : List ClassTree

/-- Moves past a sign of an opening bracket; the class has to go on behind it. -/
def openFurther (unclosed : Reading Span) : Reading Unit := do
  advanceSpaced
  if (← next?).isNone then fail .classUnclosed (← unclosed)

def readPlain (unclosed : Reading Span) (c : Char) : Reading ClassTree := do
  let span ← nextSpan
  openFurther unclosed
  return .literal ⟨span, c, false⟩

def readDashes (start : Position) : (fuel : Nat) → List ClassTree → Reading (List ClassTree)
  | 0, members => return members
  | fuel + 1, members => do
    if (← next?) == some '-' then
      let dash ← readPlain (return .point start) '-'
      readDashes start fuel (dash :: members)
    else return members

/-- Reads an opening bracket, a circumflex that negates the class, and what stands for itself
behind them. -/
def readOpenClass : Reading OpenClass := do
  let start ← here
  openFurther (since start)
  let negated := (← next?) == some '^'
  if negated then openFurther (since start)
  let first ← here
  let dashes ← readDashes start (← remaining).length []
  if dashes.isEmpty && (← next?) == some ']' then
    let bracket ← readPlain (since start) ']'
    return ⟨← since start, negated, first, [bracket]⟩
  else
    return ⟨← since start, negated, first, dashes⟩

/-- The name between `[:` and `:]`, negated if a circumflex stands before it, and the length of
it all. -/
def className? (cs : List Char) : Option (CharSet × Bool × Nat) :=
  match cs with
  | '[' :: ':' :: rest =>
    let negated := rest.head? == some '^'
    let name := (if negated then rest.drop 1 else rest).takeWhile (· ≠ ':')
    let length := name.length + if negated then 5 else 4
    if (cs.drop (length - 2)).take 2 == [':', ']'] then
      (CharSet.ofName? (String.ofList name)).map fun set => (set, negated, length)
    else none
  | _ => none

/-! ### Members -/

def readMember (c : Char) : Reading Element := do
  if c == '\\' then readEscape
  else
    let span ← nextSpan
    advance 1
    return .literal ⟨span, c, false⟩

def memberOf : Element → Reading ClassTree
  | .literal l => return .literal l
  | .shorthand span set negated => return .shorthand span set negated
  | .property span property => return .property span property
  | .dot span | .anchor span _ => fail .classEscape span

def rangeEnd : Element → Reading Literal
  | .literal l => return l
  | e => fail .classRangeLiteral e.span

/-- The sign that counts behind the first one.  Where blanks do not count, the mark of a comment
does not count either, but its text does. -/
def signBehind (spaced : Bool) (cs : List Char) : Option Char :=
  let rest := cs.drop 1
  if spaced then
    let behind := match rest.dropWhile Text.isBlank with
      | '#' :: comment => (comment.dropWhile Text.isBlank).head?
      | signs => signs.head?
    behind.or rest.head?
  else rest.head?

def startsRange (spaced : Bool) (cs : List Char) : Bool :=
  let behind := signBehind spaced cs
  cs.head? == some '-' && behind != some ']' && behind != some '-'

def readRange (opened : Span) (c : Char) : Reading ClassTree := do
  let first ← readMember c
  skipSpace
  if (← next?).isNone then fail .classUnclosed opened
  else if !startsRange (← get).spaced (← remaining) then memberOf first
  else
    advanceSpaced
    match ← next? with
    | none => fail .classUnclosed opened
    | some d =>
      let last ← readMember d
      let low ← rangeEnd first
      let high ← rangeEnd last
      if high.char < low.char then fail .classRange ⟨low.span.start, high.span.stop⟩
      else return .range low high

/-! ### Operations -/

def setOperation? : List Char → Option SetOperation
  | '&' :: '&' :: _ => some .inter
  | '-' :: '-' :: _ => some .without
  | '~' :: '~' :: _ => some .exclusive
  | _ => none

structure Members where
  /-- The last operation and what stands to its left. -/
  before : Option (SetOperation × ClassTree)
  start : Position
  /-- The members behind it, the last first. -/
  behind : List ClassTree

namespace Members

def push (m : Members) (member : ClassTree) : Members :=
  { m with behind := member :: m.behind }

def tree (m : Members) : ClassTree :=
  let right := ClassTree.ofMembers m.start m.behind
  match m.before with
  | some (operation, left) => .operation operation left right
  | none => right

end Members

/-- Reads the rest of an open class; `fuel` bounds the number of members. -/
def readMembers : (fuel : Nat) → (opened : Span) → Members → Reading ClassTree
  | 0, opened, _ => fail .classUnclosed opened
  | fuel + 1, opened, members => do
    skipSpace
    let cs ← remaining
    match cs with
    | [] => fail .classUnclosed opened
    | ']' :: _ =>
      advance 1
      return members.tree
    | '[' :: _ =>
      let start ← here
      match className? cs with
      | some (set, negated, length) =>
        advance length
        readMembers fuel opened (members.push (.named (← since start) set negated))
      | none =>
        let inner ← readOpenClass
        let inside ← readMembers fuel inner.span ⟨none, inner.start, inner.members⟩
        let inside := .brackets (← since start) inner.negated inside
        readMembers fuel opened (members.push inside)
    | c :: _ =>
      match setOperation? cs with
      | some operation =>
        advance 2
        readMembers fuel opened ⟨some (operation, members.tree), ← here, []⟩
      | none =>
        let member ← readRange opened c
        readMembers fuel opened (members.push member)

def readClass : Reading Tree := do
  let start ← here
  let length := (← remaining).length
  let opened ← readOpenClass
  let inside ← readMembers length opened.span ⟨none, opened.start, opened.members⟩
  return .brackets (← since start) opened.negated inside

end Famicom.Pattern
