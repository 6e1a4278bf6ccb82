/-!
# Sets of characters

What a single place of a pattern accepts.  A set is a list of ranges of character numbers, in
increasing order and apart from each other.  The numbers that belong to no character are left out
at the ends of ranges.  Laws: the operations do on members what their names say.
-/

namespace Famicom

structure CharRange where
  first : Nat
  last : Nat
  deriving DecidableEq

namespace CharRange

def contains (r : CharRange) (c : Char) : Bool :=
  r.first ≤ c.toNat && c.toNat ≤ r.last

def inter? (r s : CharRange) : Option CharRange :=
  let first := max r.first s.first
  let last := min r.last s.last
  if first ≤ last then some ⟨first, last⟩ else none

end CharRange

structure CharSet where
  ranges : List CharRange
  deriving DecidableEq

namespace CharSet

def contains (s : CharSet) (c : Char) : Bool :=
  s.ranges.any (·.contains c)

def empty : CharSet :=
  ⟨[]⟩

def isEmpty (s : CharSet) : Bool :=
  s.ranges.isEmpty

/-! ### Joining -/

/-- Adds a range to ordered ranges and joins those that it touches. -/
def insertRange (r : CharRange) : List CharRange → List CharRange
  | [] => [r]
  | s :: rest =>
    if r.last + 1 < s.first then r :: s :: rest
    else if s.last + 1 < r.first then s :: insertRange r rest
    else insertRange ⟨min r.first s.first, max r.last s.last⟩ rest

def insert (s : CharSet) (r : CharRange) : CharSet :=
  ⟨insertRange r s.ranges⟩

def union (a b : CharSet) : CharSet :=
  b.ranges.foldl insert a

def ofRanges (ranges : List (Char × Char)) : CharSet :=
  ranges.foldl (fun s r => s.insert ⟨r.1.toNat, r.2.toNat⟩) empty

def single (c : Char) : CharSet :=
  ⟨[⟨c.toNat, c.toNat⟩]⟩

/-! ### Complement and common members -/

def isSurrogate (n : Nat) : Bool :=
  0xD800 ≤ n && n < 0xE000

/-- The characters from one number up to, and without, another. -/
def between (first stop : Nat) : List CharRange :=
  let first := if isSurrogate first then 0xE000 else first
  let last := if isSurrogate (stop - 1) then 0xD7FF else stop - 1
  if first < stop && first ≤ last then [⟨first, last⟩] else []

/-- The characters from a number on that are in none of some ordered ranges. -/
def gaps (first : Nat) : List CharRange → List CharRange
  | [] => between first 0x110000
  | r :: rest => between first r.first ++ gaps (r.last + 1) rest

def complement (s : CharSet) : CharSet :=
  ⟨gaps 0 s.ranges⟩

def all : CharSet :=
  complement empty

def inter (a b : CharSet) : CharSet :=
  ⟨a.ranges.flatMap fun r => b.ranges.filterMap r.inter?⟩

def without (a b : CharSet) : CharSet :=
  a.inter b.complement

def exclusive (a b : CharSet) : CharSet :=
  (a.union b).without (a.inter b)

/-! ### Case -/

/-- What a range has in common with another, moved by a distance. -/
def shifted (within : CharRange) (move : Nat → Nat) (r : CharRange) : Option CharRange :=
  (r.inter? within).map fun s => ⟨move s.first, move s.last⟩

def bothCases (s : CharSet) : CharSet :=
  let upper := s.ranges.filterMap (shifted ⟨97, 122⟩ (· - 32))
  let lower := s.ranges.filterMap (shifted ⟨65, 90⟩ (· + 32))
  (upper ++ lower).foldl insert s

/-! ### Named sets -/

def digits : CharSet :=
  ofRanges [('0', '9')]

def blanks : CharSet :=
  ofRanges [('\t', '\r'), (' ', ' ')]

def wordChars : CharSet :=
  ofRanges [('0', '9'), ('A', 'Z'), ('_', '_'), ('a', 'z')]

/-- A set by the name it has between colons in a class. -/
def ofName? : String → Option CharSet
  | "alnum" => some (ofRanges [('0', '9'), ('A', 'Z'), ('a', 'z')])
  | "alpha" => some (ofRanges [('A', 'Z'), ('a', 'z')])
  | "ascii" => some (ofRanges [('\x00', '\x7f')])
  | "blank" => some (ofRanges [('\t', '\t'), (' ', ' ')])
  | "cntrl" => some (ofRanges [('\x00', '\x1f'), ('\x7f', '\x7f')])
  | "digit" => some digits
  | "graph" => some (ofRanges [('!', '~')])
  | "lower" => some (ofRanges [('a', 'z')])
  | "print" => some (ofRanges [(' ', '~')])
  | "punct" => some (ofRanges [('!', '/'), (':', '@'), ('[', '\x60'), ('\x7b', '~')])
  | "space" => some blanks
  | "upper" => some (ofRanges [('A', 'Z')])
  | "word" => some wordChars
  | "xdigit" => some (ofRanges [('0', '9'), ('A', 'F'), ('a', 'f')])
  | _ => none

end CharSet

end Famicom
