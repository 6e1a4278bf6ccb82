import Famicom.Pattern.Cursor
import Famicom.Text.Letter

/-!
# Groups

The opening of a group: a plain parenthesis, a group with a name or with flags of its own, or
flags alone, which hold for the rest of the group around them.
-/

namespace Famicom.Pattern

/-! ### Flags -/

/-- A sign among flags; none is the dash, behind which flags are cleared. -/
abbrev FlagSign : Type :=
  Option Flag

def changesOf (signs : List FlagSign) : FlagChanges :=
  let isOn := fun sign : FlagSign => sign.isSome
  let on := signs.takeWhile isOn
  let off := signs.dropWhile isOn
  on.filterMap (·.map (·, true)) ++ off.filterMap (·.map (·, false))

def readFlagSign (c : Char) : Reading FlagSign := do
  if c == '-' then return none
  else
    match Flag.ofLetter? c with
    | some flag => return some flag
    | none => fail .flagUnknown (← nextSpan)

/-- Reads flags up to the sign that ends them.  `seen` are the signs so far, with their places, the
last first. -/
def readFlags : (fuel : Nat) → (seen : List (FlagSign × Span)) → Reading (List FlagSign)
  | 0, seen => return (seen.map (·.1)).reverse
  | fuel + 1, seen => do
    match ← next? with
    | none => fail .flagEnd (← spot)
    | some c =>
      if c == ':' || c == ')' then
        match seen with
        | (none, dash) :: _ => fail .flagDangling dash
        | _ => return (seen.map (·.1)).reverse
      else
        let sign ← readFlagSign c
        let span ← nextSpan
        match seen.find? (·.1 == sign) with
        | some (_, first) =>
          throw ⟨if sign.isNone then .flagNegatedTwice else .flagTwice, span, some first⟩
        | none =>
          advance 1
          readFlags fuel ((sign, span) :: seen)

/-! ### Names -/

/-- The character may stand in the name of a group, at its beginning or behind it. -/
def isNameChar (first : Bool) (c : Char) : Bool :=
  c == '_' || Text.isLetter c ||
    (!first && (Text.isNumber c || c == '.' || c == '[' || c == ']'))

def readNameChars : (fuel : Nat) → List Char → Reading (List Char)
  | 0, name => return name.reverse
  | fuel + 1, name => do
    match ← next? with
    | none => fail .nameEnd (← spot)
    | some '>' => return name.reverse
    | some c =>
      if isNameChar name.isEmpty c then
        advance 1
        readNameChars fuel (c :: name)
      else fail .nameChar (← nextSpan)

def readName : Reading Unit := do
  let start ← here
  let name ← readNameChars ((← remaining).length + 1) []
  let span ← since start
  advance 1
  if name.isEmpty then fail .nameEmpty (.point start)
  else
    match (← get).names.find? (·.1 == name) with
    | some (_, first) => throw ⟨.nameTwice, span, some first⟩
    | none => modify fun c => { c with names := (name, span) :: c.names }

/-! ### Openings -/

inductive Opening where
  /-- Flags for the rest of the group around it. -/
  | flags (span : Span) (changes : FlagChanges)
  | group (span : Span) (kind : GroupKind)

def numbered (opened : Span) : Reading Opening := do
  modify fun c => { c with groups := c.groups + 1 }
  return .group opened (.capture (← get).groups)

/-- How many signs of a look-around stand at the head of some signs. -/
def lookAround? : List Char → Option Nat
  | '?' :: '=' :: _ | '?' :: '!' :: _ => some 2
  | '?' :: '<' :: '=' :: _ | '?' :: '<' :: '!' :: _ => some 3
  | _ => none

def readFlagOpening (opened : Span) : Reading Opening := do
  let mark ← spot
  advance 1
  if (← next?).isNone then fail .groupUnclosed opened
  else
    let signs ← readFlags ((← remaining).length + 1) []
    let closed := (← next?) == some ')'
    advance 1
    if closed then
      if signs.isEmpty then fail .repetitionMissing mark
      else return .flags (← since opened.start) (changesOf signs)
    else return .group opened (.plain (changesOf signs))

def readOpening : Reading Opening := do
  let opened ← nextSpan
  advanceSpaced
  let cs ← remaining
  match lookAround? cs with
  | some n =>
    advance n
    fail .lookAround (← since opened.start)
  | none =>
    match cs with
    | '?' :: 'P' :: '<' :: _ =>
      advance 3
      let opening ← numbered opened
      readName
      return opening
    | '?' :: '<' :: _ =>
      advance 2
      let opening ← numbered opened
      readName
      return opening
    | '?' :: _ => readFlagOpening opened
    | _ => numbered opened

end Famicom.Pattern
