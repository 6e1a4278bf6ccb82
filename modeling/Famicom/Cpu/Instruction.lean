import Famicom.Cpu.Registers

/-!
# Instructions

Instructions are grouped by what they do to memory: reading an operand, storing a register,
modifying a byte in place, working on registers alone, using the stack, or moving the program
counter.  Which addressing modes an operation has, and what an indexed operand may cost, follows
from the group, so nothing else has to be said about single operations.
-/

namespace Famicom.Cpu

inductive Register where
  | a
  | x
  | y
  deriving DecidableEq

inductive Mode where
  | immediate
  | zeroPage
  /-- A one byte address plus `X`, within page zero. -/
  | zeroPageX
  /-- A one byte address plus `Y`, within page zero. -/
  | zeroPageY
  | absolute
  | absoluteX
  | absoluteY
  /-- The address stored in page zero at a one byte address plus `X`. -/
  | indexedIndirect
  /-- The address stored in page zero at a one byte address, plus `Y`. -/
  | indirectIndexed
  deriving DecidableEq

inductive ReadOp where
  | load (target : Register)
  | add
  | subtract
  | bitAnd
  | bitOr
  | bitXor
  | compare (register : Register)
  | bitTest
  /-- The operand is read and dropped. -/
  | discard
  deriving DecidableEq

inductive ModifyOp where
  | increment
  | decrement
  | shiftLeft
  | shiftRight
  | rotateLeft
  | rotateRight
  deriving DecidableEq

inductive RegisterOp where
  | transfer (source target : Register)
  | stackToX
  | xToStack
  | increment (register : Register)
  | decrement (register : Register)
  | setFlag (flag : Flag) (on : Bool)
  | idle
  deriving DecidableEq

/-- An instruction without its operand bytes. -/
inductive Instruction where
  | read (op : ReadOp) (mode : Mode)
  | store (register : Register) (mode : Mode)
  | modify (op : ModifyOp) (mode : Mode)
  | modifyAccumulator (op : ModifyOp)
  | internal (op : RegisterOp)
  | pushAccumulator
  | pushStatus
  | pullAccumulator
  | pullStatus
  /-- Jumps by a signed offset when the flag has the given value. -/
  | branch (flag : Flag) (on : Bool)
  | jump
  | jumpIndirect
  | call
  | subroutineReturn
  | interruptReturn
  | softwareInterrupt
  deriving DecidableEq

/-! ### What operations do to registers -/

namespace Registers

def get (r : Registers) : Register → UInt8
  | .a => r.a
  | .x => r.x
  | .y => r.y

def put (r : Registers) (target : Register) (value : UInt8) : Registers :=
  match target with
  | .a => { r with a := value }
  | .x => { r with x := value }
  | .y => { r with y := value }

/-- Replaces the contents of a data register and records the value in the flags. -/
def load (r : Registers) (target : Register) (value : UInt8) : Registers :=
  (r.put target value).noteResult value

/-- Adds a byte and the carry to the accumulator, in binary whatever the decimal flag says. -/
def add (r : Registers) (value : UInt8) : Registers :=
  let sum := r.a.toNat + value.toNat + (bitOf (r.flag .carry)).toNat
  let result := sum.toUInt8
  let r1 := r.setFlag .carry (decide (0xFF < sum))
  let r2 := r1.setFlag .overflow (anyBit (~~~(r.a ^^^ value) &&& (r.a ^^^ result)) 0x80)
  r2.load .a result

def compare (r : Registers) (left right : UInt8) : Registers :=
  (r.setFlag .carry (decide (right ≤ left))).noteResult (left - right)

end Registers

def ReadOp.apply (op : ReadOp) (value : UInt8) (r : Registers) : Registers :=
  match op with
  | .load target => r.load target value
  | .add => r.add value
  | .subtract => r.add (~~~value)
  | .bitAnd => r.load .a (r.a &&& value)
  | .bitOr => r.load .a (r.a ||| value)
  | .bitXor => r.load .a (r.a ^^^ value)
  | .compare register => r.compare (r.get register) value
  | .bitTest =>
    ((r.setFlag .zero (r.a &&& value == 0)).setFlag .overflow (anyBit value 0x40)).setFlag
      .negative (anyBit value 0x80)
  | .discard => r

def ModifyOp.result (op : ModifyOp) (value : UInt8) (carry : Bool) : UInt8 :=
  match op with
  | .increment => value + 1
  | .decrement => value - 1
  | .shiftLeft => value <<< 1
  | .shiftRight => value >>> 1
  | .rotateLeft => value <<< 1 ||| bitOf carry
  | .rotateRight => value >>> 1 ||| bitOf carry <<< 7

/-- The bit of `value` that leaves into the carry flag, if the operation moves one. -/
def ModifyOp.carryOut (op : ModifyOp) (value : UInt8) : Option Bool :=
  match op with
  | .increment | .decrement => none
  | .shiftLeft | .rotateLeft => some (anyBit value 0x80)
  | .shiftRight | .rotateRight => some (anyBit value 0x01)

/-- The byte that replaces `value`, and the registers after the operation. -/
def ModifyOp.apply (op : ModifyOp) (value : UInt8) (r : Registers) : UInt8 × Registers :=
  let result := op.result value (r.flag .carry)
  let shifted :=
    match op.carryOut value with
    | some carry => r.setFlag .carry carry
    | none => r
  (result, shifted.noteResult result)

def RegisterOp.apply (op : RegisterOp) (r : Registers) : Registers :=
  match op with
  | .transfer source target => r.load target (r.get source)
  | .stackToX => r.load .x r.s
  | .xToStack => { r with s := r.x }
  | .increment register => r.load register (r.get register + 1)
  | .decrement register => r.load register (r.get register - 1)
  | .setFlag flag on => r.setFlag flag on
  | .idle => r

end Famicom.Cpu
