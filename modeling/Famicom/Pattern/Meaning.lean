import Famicom.Pattern.Normal
import Famicom.Pattern.Problem
import Famicom.Pattern.Tree

/-!
# What a written pattern matches

The pattern of a tree under flags.  Of characters beyond ASCII neither case nor kind is known:
where these matter and all scripts are to be matched, the pattern has a fault.  Where bytes are
matched instead, only those of ASCII are characters, and nothing that would match another byte is
allowed.
-/

namespace Famicom.Pattern

/-! ### Flags -/

structure Flags where
  ignoreCase : Bool
  multiLine : Bool
  dotAll : Bool
  wide : Bool
  returns : Bool
  deriving DecidableEq

namespace Flags

def initial : Flags :=
  ⟨false, false, false, true, false⟩

/-- Sets or clears a flag.  Two of them have no effect on what is matched. -/
def assign (f : Flags) (change : Flag × Bool) : Flags :=
  match change with
  | (.ignoreCase, on) => { f with ignoreCase := on }
  | (.multiLine, on) => { f with multiLine := on }
  | (.dotAll, on) => { f with dotAll := on }
  | (.wide, on) => { f with wide := on }
  | (.returns, on) => { f with returns := on }
  | (.swapGreed, _) | (.spaced, _) => f

def change (f : Flags) (changes : FlagChanges) : Flags :=
  changes.foldl assign f

end Flags

def faultAt {α : Type} (fault : Fault) (span : Span) : Except Problem α :=
  .error ⟨fault, span, none⟩

/-! ### Properties -/

/-- The name of a property without what does not count in it: case, blanks, dashes, low lines, the
word "is" before it, and what is not ASCII. -/
def Property.key (p : Property) : List Char :=
  let lower := p.text.map Char.toLower
  let bare := match lower with
    | 'i' :: 's' :: rest => rest
    | name => name
  bare.filter fun c => c.toNat < 0x80 && c != ' ' && c != '_' && c != '-'

/-- Why a property is not known.  A property with a value is looked up by its name, and three short
names are values of a property that is not known either. -/
def Property.fault (p : Property) : Fault :=
  let valued := p.text.any fun c => c == ':' || c == '='
  if !valued && [['c', 'f'], ['s', 'c'], ['l', 'c']].contains p.key then .propertyValueUnknown
  else .propertyUnknown

/-- A property matches nothing here: none is known, and bytes have none. -/
def propertyFault (flags : Flags) (span : Span) (p : Property) : Problem :=
  ⟨if flags.wide then p.fault else .wideChar, span, none⟩

/-! ### Classes -/

structure ClassValue where
  set : CharSet
  /-- With each member, its other case is one. -/
  bothCases : Bool

namespace ClassValue

def empty : ClassValue :=
  ⟨.empty, true⟩

def push (v : ClassValue) (first last : Char) : ClassValue :=
  ⟨v.set.insert ⟨first.toNat, last.toNat⟩, false⟩

def union (v w : ClassValue) : ClassValue :=
  if w.set.isEmpty || v.set = w.set then v
  else ⟨v.set.union w.set, v.bothCases && w.bothCases⟩

def complement (v : ClassValue) : ClassValue :=
  ⟨v.set.complement, v.bothCases || v.set.isEmpty⟩

def operate (operation : SetOperation) (v w : ClassValue) : ClassValue :=
  let set := match operation with
    | .inter => v.set.inter w.set
    | .without => v.set.without w.set
    | .exclusive => v.set.exclusive w.set
  ⟨set, set.isEmpty || (v.bothCases && w.bothCases)⟩

def fold (flags : Flags) (span : Span) (v : ClassValue) : Except Problem ClassValue :=
  if !flags.ignoreCase then .ok v
  else if !flags.wide then .ok ⟨v.set.bothCases, true⟩
  else if v.bothCases || v.set.isEmpty then .ok ⟨v.set, true⟩
  else faultAt .caseUnknown span

/-- The members of a class that ends here.  The complement of bytes of ASCII has other bytes. -/
def close (flags : Flags) (span : Span) (negated : Bool) (v : ClassValue) :
    Except Problem ClassValue := do
  let v ← v.fold flags span
  if !negated then return v
  else if flags.wide then return v.complement
  else faultAt .partOfChar span

end ClassValue

/-- The character of a literal; one that is a byte has to be of ASCII. -/
def Literal.value (flags : Flags) (l : Literal) : Except Problem Char :=
  if !flags.wide && l.isByte && l.char.toNat ≥ 0x80 then faultAt .partOfChar l.span
  else .ok l.char

def Literal.member (flags : Flags) (l : Literal) : Except Problem Char := do
  let c ← l.value flags
  if !flags.wide && c.toNat ≥ 0x80 then faultAt .wideChar l.span
  else return c

def Shorthand.meaning (flags : Flags) (span : Span) (s : Shorthand) (negated : Bool) :
    Except Problem CharSet :=
  if flags.wide then faultAt .shorthandUnknown span
  else if negated then faultAt .partOfChar span
  else .ok s.ascii

mutual

def ClassTree.addTo (flags : Flags) : ClassTree → ClassValue → Except Problem ClassValue
  | .nothing _, v => .ok v
  | .literal l, v => do
    let c ← l.member flags
    return v.push c c
  | .range first last, v => do
    let low ← first.member flags
    let high ← last.member flags
    return v.push low high
  | .named span set negated, v => do
    return v.union (← ClassValue.close flags span negated ⟨set, false⟩)
  | .shorthand span set negated, v => do
    return v.union ⟨← set.meaning flags span negated, false⟩
  | .property span p, _ => .error (propertyFault flags span p)
  | .brackets span negated inside, v => do
    let w ← inside.addTo flags .empty
    return v.union (← w.close flags span negated)
  | .union _ members, v => addMembers flags members v
  | .operation op left right, v => do
    let l ← left.addTo flags .empty
    let r ← right.addTo flags .empty
    let r ← r.fold flags right.span
    let l ← l.fold flags left.span
    return v.union (.operate op l r)

def addMembers (flags : Flags) : List ClassTree → ClassValue → Except Problem ClassValue
  | [], v => .ok v
  | member :: rest, v => do
    let v ← member.addTo flags v
    addMembers flags rest v

end

/-! ### Elements -/

def Literal.meaning (flags : Flags) (l : Literal) : Except Problem Pattern := do
  let c ← l.value flags
  if !flags.ignoreCase then return .literal [c]
  else if flags.wide then faultAt .caseUnknown l.span
  else return ofSet (if c.toNat < 0x80 then (CharSet.single c).bothCases else .single c)

def dotSet (flags : Flags) : CharSet :=
  if flags.dotAll then .all
  else if flags.returns then (CharSet.ofRanges [('\n', '\n'), ('\r', '\r')]).complement
  else (CharSet.single '\n').complement

def Anchor.meaning (flags : Flags) : Anchor → Assertion
  | .lineStart => if flags.multiLine then .lineStart flags.returns else .textStart
  | .lineEnd => if flags.multiLine then .lineEnd flags.returns else .textEnd
  | .textStart => .textStart
  | .textEnd => .textEnd
  | .word edge => if flags.wide then .wideWord edge else .word edge

def Element.meaning (flags : Flags) : Element → Except Problem Pattern
  | .literal l => l.meaning flags
  | .dot span =>
    if flags.wide then .ok (ofSet (dotSet flags)) else faultAt .partOfChar span
  | .anchor _ a => .ok (.assertion (a.meaning flags))
  | .shorthand span set negated => return ofSet (← set.meaning flags span negated)
  | .property span p => .error (propertyFault flags span p)

/-! ### Trees -/

mutual

/-- The pattern of a tree, and the flags behind it. -/
def Tree.meaning (flags : Flags) : Tree → Except Problem (Pattern × Flags)
  | .empty _ => .ok (.empty, flags)
  | .flags _ changes => .ok (.empty, flags.change changes)
  | .element e => return (← e.meaning flags, flags)
  | .brackets span negated inside => do
    let v ← inside.addTo flags .empty
    let v ← v.close flags span negated
    return (ofSet v.set, flags)
  | .repetition _ body least most => do
    let (body, flags) ← body.meaning flags
    return (repeated body least most, flags)
  | .group _ (.capture index) body => do
    let (body, _) ← body.meaning flags
    return (.capture index body, flags)
  | .group _ (.plain changes) body => do
    let (body, _) ← body.meaning (flags.change changes)
    return (body, flags)
  | .sequence _ items => do
    let (items, flags) ← meanings flags items
    return (sequenceOf items, flags)
  | .choice _ items => do
    let (items, flags) ← meanings flags items
    return (choiceOf items, flags)

def meanings (flags : Flags) : List Tree → Except Problem (List Pattern × Flags)
  | [] => .ok ([], flags)
  | item :: rest => do
    let (p, flags) ← item.meaning flags
    let (ps, flags) ← meanings flags rest
    return (p :: ps, flags)

end

end Famicom.Pattern
