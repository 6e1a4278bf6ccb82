import Famicom.Decimal.Basic

/-!
# Shortest decimals

The text of a binary floating point number has the fewest digits that still read back as that
number, and of those the nearest.  The number `m * 2 ^ q` stands for all reals between the
midpoints to its neighbours; the midpoints belong to it when `m` is even.  All of it is exact
arithmetic on fractions.
-/

namespace Famicom

/-- The number `mantissa * 2 ^ exponent`, as a floating point format stores it. -/
structure Binary where
  mantissa : Nat
  exponent : Int
  deriving DecidableEq

namespace Binary

/-- The leading bit of a double precision mantissa, 2^52. -/
def leadingBit : Nat := 0x10000000000000

/-- The number with the given bits in double precision; the sign is dropped. -/
def ofBits (bits : UInt64) : Binary :=
  let fraction : Nat := bits.toNat % leadingBit
  let biased : Nat := bits.toNat / leadingBit % 0x800
  if biased = 0 then ⟨fraction, -1074⟩ else ⟨fraction + leadingBit, (biased : Int) - 1075⟩

/-- The numerator over `den`. -/
def num (b : Binary) : Nat :=
  b.mantissa * Nat.pow 2 b.exponent.toNat

def den (b : Binary) : Nat :=
  Nat.pow 2 (-b.exponent).toNat

/-- The numerators over `4 * den` of the midpoints to the neighbours below and above.  Below a
power of two the neighbours lie half as far apart. -/
def midpoints (b : Binary) : Nat × Nat :=
  let unit := Nat.pow 2 b.exponent.toNat
  let below := if b.mantissa = leadingBit ∧ -1074 < b.exponent then unit else 2 * unit
  (4 * b.num - below, 4 * b.num + 2 * unit)

/-- The fraction `digits * 10 ^ exponent` reads back as the number. -/
def readsBack (b : Binary) (d : Decimal) : Bool :=
  let scaled := 4 * b.den * d.digits * Nat.pow 10 d.exponent.toNat
  let scale := Nat.pow 10 (-d.exponent).toNat
  let (low, high) := b.midpoints
  if b.mantissa % 2 = 0 then low * scale ≤ scaled ∧ scaled ≤ high * scale
  else low * scale < scaled ∧ scaled < high * scale

/-- The digits of the number in units of `10 ^ exponent`, rounded down, and twice the rest with
the unit it is measured by. -/
def gridBelow (b : Binary) (exponent : Int) : Nat × Nat × Nat :=
  let n := b.num * Nat.pow 10 (-exponent).toNat
  let unit := b.den * Nat.pow 10 exponent.toNat
  (n / unit, 2 * (n % unit), unit)

/-- The neighbours of the number on a decimal grid, the nearer first. -/
def gridNeighbours (b : Binary) (exponent : Int) : List Decimal :=
  let (below, twice, unit) := b.gridBelow exponent
  if twice < unit ∨ (twice = unit ∧ below % 2 = 0) then
    [⟨below, exponent⟩, ⟨below + 1, exponent⟩]
  else
    [⟨below + 1, exponent⟩, ⟨below, exponent⟩]

/-- The power of ten of the leading digit of a number below one, found by multiplying. -/
def leadingZeros (num den : Nat) : Nat → Nat
  | 0 => 0
  | fuel + 1 => if den ≤ num then 0 else leadingZeros (num * 10) den fuel + 1

def magnitude (b : Binary) : Int :=
  if b.den ≤ b.num then (toString (b.num / b.den)).length - 1
  else -(leadingZeros b.num b.den 400 : Nat)

/-- Seventeen digits always suffice. -/
def maxDigits : Nat := 17

/-- The nearest of the decimals with the fewest digits that read back as the number. -/
def shortest (b : Binary) : Decimal :=
  if b.mantissa = 0 then ⟨0, 0⟩
  else
    let candidates := (List.range maxDigits).flatMap fun (n : Nat) =>
      b.gridNeighbours (b.magnitude - n)
    ((candidates.find? b.readsBack).getD ⟨b.mantissa, 0⟩).normalise (maxDigits + 1)

end Binary

end Famicom
