import Famicom.Bits
import Famicom.Text

/-!
# Processor registers

The register file of the 6502: accumulator, two index registers, stack pointer, program counter
and the status byte `P`.  Bit 5 of `P` always reads as one and bit 4 exists only in the copies
that are pushed on the stack.
-/

namespace Famicom.Cpu

/-! ### The status byte -/

inductive Flag where
  | carry
  | zero
  | interruptDisable
  | decimal
  | overflow
  | negative
  deriving DecidableEq

def Flag.mask : Flag → UInt8
  | .carry => 0x01
  | .zero => 0x02
  | .interruptDisable => 0x04
  | .decimal => 0x08
  | .overflow => 0x40
  | .negative => 0x80

/-- Marks a copy of `P` pushed by an instruction rather than by an interrupt. -/
def breakMask : UInt8 := 0x10

/-- The bit of `P` without a meaning, always one. -/
def unusedMask : UInt8 := 0x20

/-! ### The register file -/

structure Registers where
  a : UInt8
  x : UInt8
  y : UInt8
  /-- The low byte of the next free stack slot. -/
  s : UInt8
  pc : UInt16
  p : UInt8
  deriving DecidableEq

namespace Registers

/-- The registers after a reset, before the program counter is loaded. -/
def initial : Registers where
  a := 0
  x := 0
  y := 0
  s := 0xFD
  pc := 0
  p := unusedMask ||| Flag.interruptDisable.mask

def test (r : Registers) (mask : UInt8) : Bool :=
  anyBit r.p mask

def assign (r : Registers) (mask : UInt8) (on : Bool) : Registers :=
  { r with p := withBits r.p mask on }

def flag (r : Registers) (f : Flag) : Bool :=
  r.test f.mask

def setFlag (r : Registers) (f : Flag) (on : Bool) : Registers :=
  r.assign f.mask on

def noteResult (r : Registers) (value : UInt8) : Registers :=
  (r.setFlag .zero (value == 0)).setFlag .negative (anyBit value 0x80)

/-- The copy of the status byte that is pushed: instructions set the break bit, interrupts clear
it. -/
def pushedStatus (r : Registers) (byInstruction : Bool) : UInt8 :=
  if byInstruction then r.p ||| unusedMask ||| breakMask
  else (r.p ||| unusedMask) &&& ~~~breakMask

/-- Takes the status byte from a pulled copy, whose break bit is dropped. -/
def loadStatus (r : Registers) (value : UInt8) : Registers :=
  { r with p := (value ||| unusedMask) &&& ~~~breakMask }

def stackSlot (s : UInt8) : UInt16 :=
  0x0100 + s.toUInt16

/-- The slot a push writes, and the registers after it. -/
def push (r : Registers) : UInt16 × Registers :=
  (stackSlot r.s, { r with s := r.s - 1 })

def pull (r : Registers) : UInt16 × Registers :=
  (stackSlot (r.s + 1), { r with s := r.s + 1 })

def describe (r : Registers) : String :=
  s!"Registers \x7b a: {r.a}, x: {r.x}, y: {r.y}, s: {r.s}, pc: {r.pc}, p: {r.p} \x7d"

end Registers

end Famicom.Cpu
