/-!
# Text of numbers and lists

State lines print bytes and words as upper case hexadecimal of fixed width, raster positions
right aligned in a column, and bank lists in square brackets.
-/

namespace Famicom.Text

/-- The upper case hexadecimal digit of the low four bits. -/
def hexDigit (n : UInt8) : Char :=
  let d := n &&& 0x0F
  if d < 10 then Char.ofNat (48 + d.toNat) else Char.ofNat (55 + d.toNat)

def hexByte (b : UInt8) : String :=
  ("".push (hexDigit (b >>> 4))).push (hexDigit b)

def hexWord (w : UInt16) : String :=
  hexByte (w >>> 8).toUInt8 ++ hexByte w.toUInt8

/-- Pads with blanks on the left to at least `width` characters. -/
def padLeft (width : Nat) (s : String) : String :=
  "".pushn ' ' (width - s.length) ++ s

/-- Items between square brackets, divided by a comma and a blank. -/
def bracketed (items : List String) : String :=
  "[" ++ ", ".intercalate items ++ "]"

def boolean (b : Bool) : String :=
  if b then "true" else "false"

end Famicom.Text
