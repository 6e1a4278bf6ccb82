/-!
# Decimal numbers

Numbers of the form `digits * 10 ^ exponent` and their text, and quotients rounded to a fixed
number of places.
-/

namespace Famicom

/-- The number `digits * 10 ^ exponent`. -/
structure Decimal where
  digits : Nat
  exponent : Int
  deriving DecidableEq

namespace Decimal

/-- Drops trailing zeros of the digits; `fuel` bounds how many. -/
def normalise : (fuel : Nat) → Decimal → Decimal
  | 0, d => d
  | fuel + 1, d =>
    if d.digits ≠ 0 ∧ d.digits % 10 = 0 then
      normalise fuel ⟨d.digits / 10, d.exponent + 1⟩
    else d

/-- The power of ten of the leading digit. -/
def magnitude (d : Decimal) : Int :=
  (toString d.digits).length - 1 + d.exponent

def insertPoint (text : String) (places : Nat) : String :=
  let padded := "".pushn '0' (places + 1 - text.length) ++ text
  let cut := padded.length - places
  String.ofList (padded.toList.take cut) ++ "." ++ String.ofList (padded.toList.drop cut)

/-- Positional text, with at least one digit behind the point. -/
def positional (d : Decimal) : String :=
  if 0 ≤ d.exponent then
    toString d.digits ++ "".pushn '0' d.exponent.toNat ++ ".0"
  else
    insertPoint (toString d.digits) (-d.exponent).toNat

/-- Scientific text: one digit before the point, none behind it if there are no more, and a
signed exponent. -/
def scientific (d : Decimal) : String :=
  let text := toString d.digits
  let mantissa := if text.length = 1 then text else insertPoint text (text.length - 1)
  let e := d.magnitude
  mantissa ++ (if 0 ≤ e then s!"e+{e.toNat}" else s!"e-{(-e).toNat}")

/-! ### Fixed places -/

/-- The quotient rounded to the nearest integer, a half to the even neighbour. -/
def roundDiv (num den : Nat) : Nat :=
  let q := num / den
  let twice := 2 * (num % den)
  if twice < den ∨ (twice = den ∧ q % 2 = 0) then q else q + 1

def fixed (places num den : Nat) : String :=
  insertPoint (toString (roundDiv (num * Nat.pow 10 places) den)) places

end Decimal

end Famicom
