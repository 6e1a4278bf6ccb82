import Famicom.Pattern.Encoding
import Famicom.Pattern.Normal

/-!
# The size of a pattern

A pattern is matched by an automaton over bytes, and in the other direction by another one.  Their
sizes in memory are computed here from the pattern, without building them, because a counted
repetition may stand for more states than fit.
-/

namespace Famicom.Pattern

/-! ### Extents -/

structure Extent where
  states : Nat
  /-- The bytes of lists of links, which stand apart from their states. -/
  links : Nat
  deriving DecidableEq

namespace Extent

instance : Add Extent where
  add a b := ⟨a.states + b.states, a.links + b.links⟩

def times (n : Nat) (e : Extent) : Extent :=
  ⟨n * e.states, n * e.links⟩

def sum (es : List Extent) : Extent :=
  es.foldr (· + ·) ⟨0, 0⟩

/-- The size in bytes; a state has a fixed size. -/
def bytes (e : Extent) : Nat :=
  32 * e.states + e.links

def fork (links : Nat) : Extent :=
  ⟨1, 4 * links⟩

/-- A state with links for so many ranges of bytes. -/
def branch (ranges : Nat) : Extent :=
  ⟨1, 8 * ranges⟩

def state : Extent :=
  ⟨1, 0⟩

end Extent

inductive Direction where
  | forward
  | backward
  deriving DecidableEq

/-! ### Sets -/

/-- Blocks by what they begin with, where those that begin alike follow each other. -/
def byFirst : List Block → List (ByteRange × List Block)
  | [] => []
  | [] :: rest => byFirst rest
  | (r :: tail) :: rest =>
    match byFirst rest with
    | (s, tails) :: more =>
      if r = s then (r, tail :: tails) :: more else (r, [tail]) :: (s, tails) :: more
    | [] => [(r, [tail])]

/-- The states on the way through blocks, each given by what is left of the blocks; `fuel` bounds
the length of blocks. -/
def waypoints : (fuel : Nat) → List Block → List (List Block)
  | 0, _ => []
  | fuel + 1, blocks =>
    blocks :: (byFirst blocks).flatMap fun (_, tails) =>
      let unfinished := tails.filter fun tail => !tail.isEmpty
      if unfinished.isEmpty then [] else waypoints fuel unfinished

def beginnings (b : Block) : List Block :=
  (List.range b.length).map fun n => b.take (n + 1)

/-- What a set takes up.  Forward, states from which the same is left are one; backward, states
that are reached alike are one. -/
def setExtent (direction : Direction) (set : CharSet) : Extent :=
  if isAscii set then .state + .branch set.ranges.length
  else
    let blocks := blocksOf set
    match direction with
    | .forward =>
      let points := (waypoints 4 blocks).eraseDups
      .state + .sum (points.map fun p => .branch (byFirst p).length)
    | .backward =>
      let starts := (blocks.flatMap beginnings).eraseDups
      .state + .fork blocks.length + Extent.state.times starts.length

/-! ### Literals -/

def literals? : Pattern → Option (List (List Char))
  | .literal chars => some [chars]
  | .choice first second => return (← literals? first) ++ (← literals? second)
  | _ => none

/-- The literals between those that end, given what is left of them. -/
def segments : List (List Nat) → List (List (List Nat))
  | [] => [[]]
  | [] :: rest => [] :: segments rest
  | tail :: rest =>
    match segments rest with
    | segment :: more => (tail :: segment) :: more
    | [] => [[tail]]

/-- What is left of literals behind a byte that some of them begin with. -/
def behind (byte : Nat) (tails : List (List Nat)) : List (List Nat) :=
  (tails.filter fun tail => tail.head? == some byte).map (·.drop 1)

def firstBytes (tails : List (List Nat)) : List Nat :=
  (tails.filterMap List.head?).eraseDups

/-- What the tree of literals takes up where so much is left of them.  Each state forks into its
segments; between them the literals end.  `fuel` bounds their length. -/
def tailsExtent : (fuel : Nat) → List (List Nat) → Extent
  | 0, _ => ⟨0, 0⟩
  | fuel + 1, tails =>
    let ended := tails.takeWhile List.isEmpty
    let parts := segments (ended.take 1 ++ tails.dropWhile List.isEmpty)
    let full := parts.filter fun part => !part.isEmpty
    let inner := full.map fun part =>
      let bytes := firstBytes part
      let below := bytes.map fun b =>
        let rest := behind b part
        if rest.all List.isEmpty then ⟨0, 0⟩ else tailsExtent fuel rest
      (if bytes.length = 1 then .state else .branch bytes.length) + .sum below
    .fork (parts.length - 1 + full.length) + .sum inner

def literalsExtent (direction : Direction) (literals : List (List Char)) : Extent :=
  let bytes := literals.map fun chars => chars.flatMap fun c => encode c.toNat
  let bytes := match direction with
    | .forward => bytes
    | .backward => bytes.map List.reverse
  .state + tailsExtent (bytes.foldl (fun n b => n + b.length) 1) bytes

/-! ### Patterns -/

def repetitionExtent (body : Extent) (consumes : Bool) (least : Nat) (most : Option Nat) :
    Extent :=
  match least, most with
  | 0, none =>
    if consumes then .fork 2 + body else body + .fork 2 + .fork 2 + .state
  | n, none => body.times n + .fork 2
  | 0, some 1 => .fork 2 + body + .state
  | n, some most =>
    if n = most then body.times n
    else
      (if n = 0 then .state else body.times n) + .state + (Extent.fork 2 + body).times (most - n)

/-- What a pattern takes up; as an alternative of a choice it has a link more. -/
def extent (direction : Direction) : (alternative : Bool) → Pattern → Extent
  | alternative, .choice first second =>
    let parts := extent direction true first + extent direction true second
    if alternative then parts
    else
      match literals? (.choice first second) with
      | some literals => literalsExtent direction literals
      | none => parts + .state + .state
  | alternative, .empty => linked alternative .state
  | alternative, .literal chars => linked alternative (Extent.state.times (bytesOf chars))
  | alternative, .char set => linked alternative (setExtent direction set)
  | alternative, .assertion _ => linked alternative .state
  | alternative, .capture _ body =>
    let inside := extent direction false body
    linked alternative <|
      match direction with
      | .forward => .state + inside + .state
      | .backward => inside
  | alternative, .sequence first second =>
    linked alternative (extent direction false first + extent direction false second)
  | alternative, .repetition body least most =>
    let consumes := (shortest? body).any (0 < ·)
    linked alternative (repetitionExtent (extent direction false body) consumes least most)
where
  linked (alternative : Bool) (e : Extent) : Extent :=
    if alternative then e + ⟨0, 4⟩ else e

/-! ### Automata -/

def startsText : Pattern → Bool
  | .assertion condition => condition = .textStart
  | .capture _ body => startsText body
  | .sequence first second =>
    startsText first || (longest? first == some 0 && startsText second)
  | .choice first second => startsText first && startsText second
  | .repetition body least _ => 0 < least && startsText body
  | .empty | .literal _ | .char _ => false

def endsText : Pattern → Bool
  | .assertion condition => condition = .textEnd
  | .capture _ body => endsText body
  | .sequence first second =>
    endsText second || (longest? second == some 0 && endsText first)
  | .choice first second => endsText first && endsText second
  | .repetition body least _ => 0 < least && endsText body
  | .empty | .literal _ | .char _ => false

/-- What leads to the beginning of a match: nothing where it is fixed, else any bytes. -/
def leadExtent (fixed : Bool) : Extent :=
  if fixed then .state else .fork 2 + .branch 1 + .state

def automatonSize (p : Pattern) : Direction → Nat
  | .forward =>
    (leadExtent (startsText p) + extent .forward false (.capture 0 p) + .state).bytes
  | .backward => (leadExtent (endsText p) + extent .backward false p + .state).bytes

end Famicom.Pattern
