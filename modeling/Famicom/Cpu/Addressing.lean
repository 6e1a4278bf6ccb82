import Famicom.Cpu.Bus
import Famicom.Cpu.Instruction

/-!
# Addressing

Fetching operand bytes, following pointers and using the stack.  Every word is two byte
accesses, low byte first; pointers in page zero and the pointer of an indirect jump stay within
their page.
-/

namespace Famicom.Cpu

/-! ### Operand bytes -/

/-- Reads the byte at the program counter and moves past it. -/
def fetch (r : Registers) : BusM (UInt8 × Registers) := do
  let value ← BusM.get r.pc
  return (value, { r with pc := r.pc + 1 })

/-- Fetches two bytes, low byte first. -/
def fetchWord (r : Registers) : BusM (UInt16 × Registers) := do
  let (low, r) ← fetch r
  let (high, r) ← fetch r
  return (wordOf low high, r)

/-! ### Pointers -/

def readWord (address : UInt16) : BusM UInt16 := do
  let low ← BusM.get address
  let high ← BusM.get (address + 1)
  return wordOf low high

/-- Reads a word of page zero, whose second byte wraps within the page. -/
def readZeroPageWord (pointer : UInt8) : BusM UInt16 := do
  let low ← BusM.get pointer.toUInt16
  let high ← BusM.get (pointer + 1).toUInt16
  return wordOf low high

/-- Reads the word of an indirect jump, whose second byte wraps within its page. -/
def readWordInPage (address : UInt16) : BusM UInt16 := do
  let low ← BusM.get address
  let high ← BusM.get (wordOf (lowByte address + 1) (highByte address))
  return wordOf low high

/-! ### Operands -/

/-- Where an operand lies, and the registers once its address is known. -/
structure Operand where
  address : UInt16
  /-- Indexing moved the address to another page. -/
  crossed : Bool
  registers : Registers

def Operand.indexed (base : UInt16) (index : UInt8) (r : Registers) : Operand :=
  let address := base + index.toUInt16
  ⟨address, pageOf base != pageOf address, r⟩

def Mode.locate (mode : Mode) (r : Registers) : BusM Operand :=
  match mode with
  | .immediate => return ⟨r.pc, false, { r with pc := r.pc + 1 }⟩
  | .zeroPage => do
    let (base, r) ← fetch r
    return ⟨base.toUInt16, false, r⟩
  | .zeroPageX => do
    let (base, r) ← fetch r
    return ⟨(base + r.x).toUInt16, false, r⟩
  | .zeroPageY => do
    let (base, r) ← fetch r
    return ⟨(base + r.y).toUInt16, false, r⟩
  | .absolute => do
    let (address, r) ← fetchWord r
    return ⟨address, false, r⟩
  | .absoluteX => do
    let (base, r) ← fetchWord r
    return Operand.indexed base r.x r
  | .absoluteY => do
    let (base, r) ← fetchWord r
    return Operand.indexed base r.y r
  | .indexedIndirect => do
    let (pointer, r) ← fetch r
    let address ← readZeroPageWord (pointer + r.x)
    return ⟨address, false, r⟩
  | .indirectIndexed => do
    let (pointer, r) ← fetch r
    let base ← readZeroPageWord pointer
    return Operand.indexed base r.y r

/-! ### The stack -/

def push (r : Registers) (value : UInt8) : BusM Registers := do
  let (slot, r) := r.push
  BusM.put slot value
  return r

def pull (r : Registers) : BusM (UInt8 × Registers) := do
  let (slot, r) := r.pull
  let value ← BusM.get slot
  return (value, r)

/-- Pushes a word, high byte first, so that it lies in memory low byte first. -/
def pushWord (r : Registers) (value : UInt16) : BusM Registers := do
  let r ← push r (highByte value)
  push r (lowByte value)

def pullWord (r : Registers) : BusM (UInt16 × Registers) := do
  let (low, r) ← pull r
  let (high, r) ← pull r
  return (wordOf low high, r)

end Famicom.Cpu
