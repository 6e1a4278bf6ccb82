import Famicom.Pattern.CharSet

/-!
# Characters as bytes

How ranges of characters are encoded in bytes.  A range is cut into blocks, such that the
characters of a block are encoded by all combinations of bytes from one range for each place.
-/

namespace Famicom.Pattern

structure ByteRange where
  first : Nat
  last : Nat
  deriving DecidableEq

/-- The ranges of the bytes of a block, in turn. -/
abbrev Block : Type :=
  List ByteRange

def encode (n : Nat) : List Nat :=
  if n < 0x80 then [n]
  else if n < 0x800 then [0xC0 + n / 64, 0x80 + n % 64]
  else if n < 0x10000 then [0xE0 + n / 4096, 0x80 + n / 64 % 64, 0x80 + n % 64]
  else [0xF0 + n / 262144, 0x80 + n / 4096 % 64, 0x80 + n / 64 % 64, 0x80 + n % 64]

/-- Where a range has to be cut so that its ends have as many bytes. -/
def lengthCut? (first last : Nat) : Option Nat :=
  [0x80, 0x800, 0x10000].find? fun n => first < n && n ≤ last

/-- Where a range has to be cut so that it has whole blocks of a size only. -/
def blockCut? (first last size : Nat) : Option Nat :=
  if first / size = last / size then none
  else if first % size ≠ 0 then some ((first / size + 1) * size)
  else if last % size ≠ size - 1 then some (last - last % size)
  else none

def cut? (first last : Nat) : Option Nat :=
  (lengthCut? first last).or <|
    if last < 0x80 then none
    else [64, 4096, 262144].findSome? (blockCut? first last)

/-- The blocks of a range in increasing order; `fuel` bounds the cuts on the way to one. -/
def blocksWithin : (fuel : Nat) → (first last : Nat) → List Block
  | 0, _, _ => []
  | fuel + 1, first, last =>
    if last < first then []
    else if first < 0xE000 && 0xD7FF < last then
      blocksWithin fuel first 0xD7FF ++ blocksWithin fuel 0xE000 last
    else
      match cut? first last with
      | some n => blocksWithin fuel first (n - 1) ++ blocksWithin fuel n last
      | none => [List.zipWith ByteRange.mk (encode first) (encode last)]

def blocksOf (set : CharSet) : List Block :=
  set.ranges.flatMap fun r => blocksWithin 32 r.first r.last

def isAscii (set : CharSet) : Bool :=
  set.ranges.all (·.last < 0x80)

end Famicom.Pattern
