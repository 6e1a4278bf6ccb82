import Famicom.Pattern.Cursor

/-!
# Escape sequences

What a backslash begins, inside and outside of classes: characters by their number, properties,
anchors and single letters.
-/

namespace Famicom.Pattern

/-! ### Characters by number -/

def hexValue? (c : Char) : Option Nat :=
  if '0' ≤ c && c ≤ '9' then some (c.toNat - 48)
  else if 'a' ≤ c && c ≤ 'f' then some (c.toNat - 87)
  else if 'A' ≤ c && c ≤ 'F' then some (c.toNat - 55)
  else none

def isHexDigit (c : Char) : Bool :=
  (hexValue? c).isSome

def charOf (digits : List Char) (span : Span) : Reading Char :=
  let n := (digits.filterMap hexValue?).foldl (fun n d => 16 * n + d) 0
  if h : n.isValidChar then return Char.ofNatAux n h
  else fail .hexInvalid span

def readHexDigits : Nat → Reading (List Char)
  | 0 => return []
  | n + 1 => do
    match ← next? with
    | none => fail .escapeEnd (← spot)
    | some c =>
      if isHexDigit c then
        advanceSpaced
        return c :: (← readHexDigits n)
      else fail .hexDigit (← nextSpan)

/-- Reads a character by its digits between braces, from the opening one. -/
def readHexBraces : Reading Char := do
  let opened ← here
  let start := (← nextSpan).stop
  advanceSpaced
  let digits ← readAll isHexDigit
  let stop ← here
  match ← next? with
  | none => fail .escapeEnd (← since opened)
  | some '\x7d' =>
    advanceSpaced
    if digits.isEmpty then fail .hexEmpty (← since opened)
    else charOf digits ⟨start, stop⟩
  | some _ => fail .hexDigit (← nextSpan)

/-- Reads a character by its number, from the letter behind the backslash at `start`. -/
def readHex (start : Position) (count : Nat) : Reading Element := do
  advanceSpaced
  match ← next? with
  | none => fail .escapeEnd (← spot)
  | some '\x7b' =>
    let c ← readHexBraces
    return .literal ⟨← since start, c, false⟩
  | some _ =>
    let first ← here
    let digits ← readHexDigits count
    let c ← charOf digits (← since first)
    return .literal ⟨← since start, c, count == 2⟩

/-! ### Properties -/

/-- Reads a property by its letter or by its name between braces, from the letter behind the
backslash at `start`. -/
def readProperty (start : Position) : Reading Element := do
  advanceSpaced
  match ← next? with
  | none => fail .escapeEnd (← spot)
  | some '\x7b' =>
    advanceSpaced
    let text ← readAll (· ≠ '\x7d')
    if (← next?).isNone then fail .escapeEnd (← spot)
    else
      advance 1
      return .property (← since start) ⟨text⟩
  | some '\\' => fail .propertyEscape (← nextSpan)
  | some c =>
    advanceSpaced
    return .property (← since start) ⟨[c]⟩

/-! ### Word boundaries -/

def isEdgeChar (c : Char) : Bool :=
  c.isAlpha || c == '-'

def edge? : String → Option WordEdge
  | "start" => some .start
  | "end" => some .stop
  | "start-half" => some .halfStart
  | "end-half" => some .halfStop
  | _ => none

/-- Reads what may follow a word boundary that began at `start`: its name between braces.  Braces
with anything but a name belong to a repetition and are left to be read again. -/
def readEdge (start : Position) : Reading WordEdge := do
  if (← next?) != some '\x7b' then return .boundary
  else
    let before ← get
    let opened ← here
    advanceSpaced
    match ← next? with
    | none => fail .wordEnd (← since start)
    | some c =>
      if !isEdgeChar c then
        set before
        return .boundary
      else
        let first ← here
        let name ← readAll isEdgeChar
        if (← next?) != some '\x7d' then fail .wordUnclosed (← since opened)
        else
          let named ← since first
          advance 1
          match edge? (String.ofList name) with
          | some edge => return edge
          | none => fail .wordUnknown named

/-! ### Letters -/

def isMeta (c : Char) : Bool :=
  "\\.+*?()|[]\x7b\x7d^$#&-~".toList.contains c

def isEscapable (c : Char) : Bool :=
  isMeta c || (c.toNat < 0x80 && !c.isAlphanum && c != '<' && c != '>')

def escapedChar? : Char → Option Char
  | 'a' => some '\x07'
  | 'f' => some '\x0c'
  | 't' => some '\t'
  | 'n' => some '\n'
  | 'r' => some '\r'
  | 'v' => some '\x0b'
  | c => if isEscapable c then some c else none

/-- The set that a letter behind a backslash stands for, and whether it is negated. -/
def escapedSet? : Char → Option (Shorthand × Bool)
  | 'd' => some (.digit, false)
  | 'D' => some (.digit, true)
  | 's' => some (.blank, false)
  | 'S' => some (.blank, true)
  | 'w' => some (.word, false)
  | 'W' => some (.word, true)
  | _ => none

def escapedAnchor? : Char → Option Anchor
  | 'A' => some .textStart
  | 'z' => some .textEnd
  | 'B' => some (.word .noBoundary)
  | '<' => some (.word .start)
  | '>' => some (.word .stop)
  | _ => none

def readLetter (start : Position) (c : Char) : Reading Element := do
  advance 1
  let span ← since start
  match escapedSet? c, escapedAnchor? c, escapedChar? c with
  | some (set, negated), _, _ => return .shorthand span set negated
  | _, some anchor, _ => return .anchor span anchor
  | _, _, some d => return .literal ⟨span, d, false⟩
  | none, none, none => fail .escapeUnknown span

def readEscape : Reading Element := do
  let start ← here
  advance 1
  match ← next? with
  | none => fail .escapeEnd (← since start)
  | some 'x' => readHex start 2
  | some 'u' => readHex start 4
  | some 'U' => readHex start 8
  | some 'p' | some 'P' => readProperty start
  | some 'b' =>
    advance 1
    let edge ← readEdge start
    return .anchor (← since start) (.word edge)
  | some c =>
    if c.isDigit then fail .backreference ⟨start, (← nextSpan).stop⟩
    else readLetter start c

end Famicom.Pattern
