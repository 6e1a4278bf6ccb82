import Famicom.Cpu.Addressing

/-!
# Execution

The effect of one instruction once its opcode has been fetched: its bus accesses, the registers
after it and the cycles it takes beyond its base cost.  Only an indexed read pays for leaving
the page of its base address, and only a taken branch for leaving the page of the next
instruction.
-/

namespace Famicom.Cpu

def nmiVector : UInt16 := 0xFFFA

def resetVector : UInt16 := 0xFFFC

/-- Where maskable and software interrupts enter. -/
def irqVector : UInt16 := 0xFFFE

/-- The cycles of a reset and of an interrupt entry. -/
def interruptCycles : Nat := 7

/-- Saves the program counter and status on the stack and continues at a vector with maskable
interrupts off. -/
def enterInterrupt (r : Registers) (returnTo : UInt16) (byInstruction : Bool) (vector : UInt16) :
    BusM Registers := do
  let status := r.pushedStatus byInstruction
  let r ← pushWord r returnTo
  let r ← push r status
  let target ← readWord vector
  return { r.setFlag .interruptDisable true with pc := target }

/-- A branch offset as a word: offsets from 128 up are negative. -/
def signExtend (offset : UInt8) : UInt16 :=
  if offset < 0x80 then offset.toUInt16 else offset.toUInt16 - 0x100

/-- The cycles a taken branch adds: one, and another when it leaves the page. -/
def branchCycles (source target : UInt16) : Nat :=
  if pageOf source != pageOf target then 2 else 1

/-- Executes an instruction from behind its opcode.  The number is the cycles beyond its base
cost. -/
def Instruction.execute (instruction : Instruction) (r : Registers) : BusM (Nat × Registers) :=
  match instruction with
  | .read op mode => do
    let operand ← mode.locate r
    let value ← BusM.get operand.address
    return (if operand.crossed then 1 else 0, op.apply value operand.registers)
  | .store register mode => do
    let operand ← mode.locate r
    BusM.put operand.address (operand.registers.get register)
    return (0, operand.registers)
  | .modify op mode => do
    let operand ← mode.locate r
    let value ← BusM.get operand.address
    let (result, r) := op.apply value operand.registers
    BusM.put operand.address result
    return (0, r)
  | .modifyAccumulator op =>
    let (result, r) := op.apply r.a r
    return (0, { r with a := result })
  | .internal op => return (0, op.apply r)
  | .pushAccumulator => do
    let r ← push r r.a
    return (0, r)
  | .pushStatus => do
    let r ← push r (r.pushedStatus true)
    return (0, r)
  | .pullAccumulator => do
    let (value, r) ← pull r
    return (0, r.load .a value)
  | .pullStatus => do
    let (value, r) ← pull r
    return (0, r.loadStatus value)
  | .branch flag on => do
    let (offset, r) ← fetch r
    if r.flag flag == on then
      let target := r.pc + signExtend offset
      return (branchCycles r.pc target, { r with pc := target })
    else
      return (0, r)
  | .jump => do
    let (target, r) ← fetchWord r
    return (0, { r with pc := target })
  | .jumpIndirect => do
    let (pointer, r) ← fetchWord r
    let target ← readWordInPage pointer
    return (0, { r with pc := target })
  | .call => do
    let (target, r) ← fetchWord r
    let r ← pushWord r (r.pc - 1)
    return (0, { r with pc := target })
  | .subroutineReturn => do
    let (target, r) ← pullWord r
    return (0, { r with pc := target + 1 })
  | .interruptReturn => do
    let (status, r) ← pull r
    let (target, r) ← pullWord (r.loadStatus status)
    return (0, { r with pc := target })
  | .softwareInterrupt => do
    let r ← enterInterrupt r (r.pc + 1) true irqVector
    return (0, r)

end Famicom.Cpu
