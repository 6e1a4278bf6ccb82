import Famicom.Pattern.Basic
import Famicom.Pattern.Position

/-!
# The parts of a written pattern

A pattern as it is written: what stands where, before flags decide what it matches.
-/

namespace Famicom.Pattern

/-! ### Flags -/

inductive Flag where
  | ignoreCase
  /-- The two anchors hold at every line. -/
  | multiLine
  /-- A point accepts line ends too. -/
  | dotAll
  /-- Repetitions prefer to be short. -/
  | swapGreed
  /-- Characters of all scripts are matched, instead of bytes. -/
  | wide
  /-- Carriage returns end lines too. -/
  | returns
  /-- Blanks and comments in the pattern do not count. -/
  | spaced
  deriving DecidableEq

def Flag.ofLetter? : Char → Option Flag
  | 'i' => some .ignoreCase
  | 'm' => some .multiLine
  | 's' => some .dotAll
  | 'U' => some .swapGreed
  | 'u' => some .wide
  | 'R' => some .returns
  | 'x' => some .spaced
  | _ => none

abbrev FlagChanges : Type :=
  List (Flag × Bool)

/-! ### Elements -/

structure Literal where
  span : Span
  char : Char
  /-- Written with two hexadecimal digits, so that it is a byte where bytes are matched. -/
  isByte : Bool

inductive Shorthand where
  | digit
  | blank
  | word
  deriving DecidableEq

def Shorthand.ascii : Shorthand → CharSet
  | .digit => .digits
  | .blank => .blanks
  | .word => .wordChars

structure Property where
  text : List Char
  deriving DecidableEq

/-- An anchor, before flags decide which condition it is. -/
inductive Anchor where
  | lineStart
  | lineEnd
  | textStart
  | textEnd
  | word (edge : WordEdge)
  deriving DecidableEq

inductive Element where
  | literal (l : Literal)
  | dot (span : Span)
  | anchor (span : Span) (anchor : Anchor)
  | shorthand (span : Span) (set : Shorthand) (negated : Bool)
  | property (span : Span) (property : Property)

def Element.span : Element → Span
  | .literal l => l.span
  | .dot span | .anchor span _ | .shorthand span _ _ | .property span _ => span

/-! ### Classes -/

inductive SetOperation where
  | inter
  | without
  | exclusive
  deriving DecidableEq

inductive ClassTree where
  | nothing (span : Span)
  | literal (l : Literal)
  | range (first last : Literal)
  | named (span : Span) (set : CharSet) (negated : Bool)
  | shorthand (span : Span) (set : Shorthand) (negated : Bool)
  | property (span : Span) (property : Property)
  | brackets (span : Span) (negated : Bool) (inside : ClassTree)
  | union (span : Span) (members : List ClassTree)
  | operation (operation : SetOperation) (left right : ClassTree)

def ClassTree.span : ClassTree → Span
  | .literal l => l.span
  | .range first last => ⟨first.span.start, last.span.stop⟩
  | .operation _ left right => ⟨left.span.start, right.span.stop⟩
  | .nothing span | .named span _ _ | .shorthand span _ _ | .property span _
  | .brackets span _ _ | .union span _ => span

/-- The inside of a class with some members, the last first; `start` is where they would stand. -/
def ClassTree.ofMembers (start : Position) : List ClassTree → ClassTree
  | [] => .nothing (.point start)
  | [member] => member
  | last :: before =>
    .union ⟨(before.getLast?.getD last).span.start, last.span.stop⟩ (last :: before).reverse

/-! ### Patterns -/

inductive GroupKind where
  | capture (index : Nat)
  | plain (changes : FlagChanges)

inductive Tree where
  | empty (span : Span)
  | flags (span : Span) (changes : FlagChanges)
  | element (element : Element)
  | brackets (span : Span) (negated : Bool) (inside : ClassTree)
  | repetition (span : Span) (body : Tree) (least : Nat) (most : Option Nat)
  | group (span : Span) (kind : GroupKind) (body : Tree)
  | sequence (span : Span) (items : List Tree)
  | choice (span : Span) (items : List Tree)

namespace Tree

def span : Tree → Span
  | .element e => e.span
  | .empty span | .flags span _ | .brackets span _ _ | .repetition span _ _ _
  | .group span _ _ | .sequence span _ | .choice span _ => span

def ofItems (span : Span) : List Tree → Tree
  | [] => .empty span
  | [item] => item
  | items => .sequence span items.reverse

def ofBranches (span : Span) : List Tree → Tree
  | [] => .empty span
  | [branch] => branch
  | branches => .choice span branches.reverse

end Tree

end Famicom.Pattern
