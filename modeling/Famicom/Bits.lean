/-!
# Bits, bytes and words

Control and status registers are bytes whose bits are read and switched in groups, and a
sixteen bit word is two bytes, low byte first.  These few operations are all the rest of the
library needs.  Words are split and joined arithmetically, so that statements about addresses
reduce to linear arithmetic.
-/

namespace Famicom

/-! ### Groups of bits -/

/-- Some bit of `mask` is set in `value`. -/
def anyBit (value mask : UInt8) : Bool :=
  value &&& mask != 0

/-- Switches all bits of `mask` on or off and keeps the others. -/
def withBits (value mask : UInt8) (on : Bool) : UInt8 :=
  if on then value ||| mask else value &&& ~~~mask

def bitOf (b : Bool) : UInt8 :=
  if b then 1 else 0

/-! ### Words -/

def wordOf (low high : UInt8) : UInt16 :=
  low.toUInt16 + high.toUInt16 * 256

def lowByte (w : UInt16) : UInt8 :=
  w.toUInt8

def highByte (w : UInt16) : UInt8 :=
  (w / 256).toUInt8

/-- The page of an address: all of it but the low byte. -/
def pageOf (address : UInt16) : UInt16 :=
  address / 256

theorem wordOf_toNat (low high : UInt8) :
    (wordOf low high).toNat = low.toNat + 256 * high.toNat := by
  have hl := low.toNat_lt
  have hh := high.toNat_lt
  simp [wordOf]
  omega

theorem wordOf_lowByte_highByte (w : UInt16) : wordOf (lowByte w) (highByte w) = w := by
  apply UInt16.toNat_inj.1
  have hw := w.toNat_lt
  rw [wordOf_toNat]
  simp [lowByte, highByte]
  omega

end Famicom
