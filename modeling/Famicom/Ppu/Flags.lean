import Famicom.Bits

/-!
# Control, mask and status

The three registers of the picture processor that are read bit by bit.
-/

namespace Famicom.Ppu

structure Control where
  bits : UInt8
  deriving DecidableEq

namespace Control

def vramStep (c : Control) : Nat :=
  if anyBit c.bits 0x04 then 32 else 1

def spriteTable (c : Control) : UInt16 :=
  if anyBit c.bits 0x08 then 0x1000 else 0

def backgroundTable (c : Control) : UInt16 :=
  if anyBit c.bits 0x10 then 0x1000 else 0

def spriteHeight (c : Control) : Nat :=
  if anyBit c.bits 0x20 then 16 else 8

def nmiEnabled (c : Control) : Bool :=
  anyBit c.bits 0x80

end Control

structure Mask where
  bits : UInt8
  deriving DecidableEq

namespace Mask

def greyscale (m : Mask) : Bool :=
  anyBit m.bits 0x01

def backgroundLeft (m : Mask) : Bool :=
  anyBit m.bits 0x02

def spritesLeft (m : Mask) : Bool :=
  anyBit m.bits 0x04

def background (m : Mask) : Bool :=
  anyBit m.bits 0x08

def sprites (m : Mask) : Bool :=
  anyBit m.bits 0x10

def rendering (m : Mask) : Bool :=
  anyBit m.bits 0x18

end Mask

structure Status where
  bits : UInt8
  deriving DecidableEq

namespace Status

/-- More than eight sprites were found on a line. -/
def overflowMask : UInt8 := 0x20

/-- The first sprite met an opaque background. -/
def spriteZeroMask : UInt8 := 0x40

def vblankMask : UInt8 := 0x80

def vblank (s : Status) : Bool :=
  anyBit s.bits vblankMask

def raise (s : Status) (mask : UInt8) (on : Bool) : Status :=
  if on then ⟨s.bits ||| mask⟩ else s

def clear (s : Status) (mask : UInt8) : Status :=
  ⟨withBits s.bits mask false⟩

end Status

end Famicom.Ppu
