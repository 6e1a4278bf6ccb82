import Famicom.Pattern.Basic

/-!
# Patterns in normal form

Constructors that keep patterns small: sequences and choices are flat, neighbouring characters are
one literal, choices between single characters are one set, and what all alternatives begin with
stands before the choice.  None of this changes what a pattern matches.
-/

namespace Famicom.Pattern

/-! ### Lengths -/

def encodedLength (n : Nat) : Nat :=
  if n < 0x80 then 1 else if n < 0x800 then 2 else if n < 0x10000 then 3 else 4

def bytesOf (chars : List Char) : Nat :=
  chars.foldl (fun n c => n + c.utf8Size) 0

/-- The fewest bytes that a pattern matches, unless part of it matches nothing. -/
def shortest? : Pattern → Option Nat
  | .empty | .assertion _ => some 0
  | .literal chars => some (bytesOf chars)
  | .char set => set.ranges.head?.map (encodedLength ·.first)
  | .capture _ body => shortest? body
  | .sequence first second => return (← shortest? first) + (← shortest? second)
  | .choice first second => return min (← shortest? first) (← shortest? second)
  | .repetition body least _ => return (← shortest? body) * least

/-- The most bytes that a pattern matches, unless there is no limit or part of it matches
nothing. -/
def longest? : Pattern → Option Nat
  | .empty | .assertion _ => some 0
  | .literal chars => some (bytesOf chars)
  | .char set => set.ranges.getLast?.map (encodedLength ·.last)
  | .capture _ body => longest? body
  | .sequence first second => return (← longest? first) + (← longest? second)
  | .choice first second => return max (← longest? first) (← longest? second)
  | .repetition body _ most => return (← longest? body) * (← most)

/-! ### Sequences -/

def factors : Pattern → List Pattern
  | .empty => []
  | .sequence first second => factors first ++ factors second
  | p => [p]

/-- Some parts, with literals next to each other as one. -/
def joinLiterals : List Pattern → List Pattern
  | [] => []
  | .literal chars :: rest =>
    match joinLiterals rest with
    | .literal more :: later => .literal (chars ++ more) :: later
    | later => .literal chars :: later
  | p :: rest => p :: joinLiterals rest

def chain : List Pattern → Pattern
  | [] => .empty
  | [p] => p
  | p :: rest => .sequence p (chain rest)

def sequenceOf (items : List Pattern) : Pattern :=
  chain (joinLiterals (items.flatMap factors))

/-! ### Sets and repetitions -/

/-- One character of a set; a set of one character is a literal. -/
def ofSet (set : CharSet) : Pattern :=
  match set.ranges with
  | [r] =>
    if r.first = r.last then .literal [Char.ofNat r.first] else .char set
  | _ => .char set

/-- A repetition.  What matches the empty text only need not be repeated. -/
def repeated (body : Pattern) (least : Nat) (most : Option Nat) : Pattern :=
  let void := body.longest? == some 0
  let least := if void then min least 1 else least
  let most := if void then some (min (most.getD 1) 1) else most
  if least = 0 ∧ most = some 0 then .empty
  else if least = 1 ∧ most = some 1 then body
  else .repetition body least most

/-! ### Choices -/

def alternatives : Pattern → List Pattern
  | .choice first second => alternatives first ++ alternatives second
  | p => [p]

/-- One of some alternatives; without any, nothing matches. -/
def oneOf : List Pattern → Pattern
  | [] => .char .empty
  | [p] => p
  | p :: rest => .choice p (oneOf rest)

def singleChar? : Pattern → Option CharSet
  | .literal [c] => some (.single c)
  | _ => none

def charSet? : Pattern → Option CharSet
  | .char set => some set
  | _ => none

/-- The set of alternatives that are all single characters, or all sets. -/
def commonSet? (items : List Pattern) : Option CharSet :=
  let sets := (items.mapM singleChar?).or (items.mapM charSet?)
  sets.map fun sets => sets.foldl CharSet.union .empty

/-- What two lists of parts begin with. -/
def commonParts : List Pattern → List Pattern → List Pattern
  | p :: ps, q :: qs => if p = q then p :: commonParts ps qs else []
  | _, _ => []

def parts? : Pattern → Option (List Pattern)
  | .sequence first second => some (factors (.sequence first second))
  | _ => none

/-- What alternatives, all of them sequences, begin with. -/
def sharedParts (items : List Pattern) : List Pattern :=
  match items.mapM parts? with
  | some (first :: rest) => rest.foldl commonParts first
  | _ => []

/-- The choice between alternatives; `fuel` bounds how often what they begin with is taken out. -/
def choiceWithin : (fuel : Nat) → List Pattern → Pattern
  | 0, items => oneOf items
  | fuel + 1, items =>
    let items := items.flatMap alternatives
    match items with
    | [] => .char .empty
    | [p] => p
    | _ =>
      match commonSet? items, sharedParts items with
      | some set, _ => ofSet set
      | none, [] => oneOf items
      | none, shared =>
        let rests := items.map fun p => sequenceOf ((factors p).drop shared.length)
        sequenceOf (shared ++ [choiceWithin fuel rests])

def choiceOf (items : List Pattern) : Pattern :=
  choiceWithin (items.foldl (fun n p => n + p.factors.length) 1) items

end Famicom.Pattern
