import Famicom.Cpu.Execute
import Famicom.Cpu.Opcode

/-!
# The processor

A step is one whole instruction or one interrupt entry.  A latched non-maskable interrupt comes
before the maskable one, and both before the next instruction.  An opcode that cannot be
executed is a fault; the processor is then as it was before the step.
-/

namespace Famicom

structure Cpu where
  registers : Cpu.Registers
  cycles : Nat
  irqLine : Bool
  /-- A non-maskable interrupt was requested and not yet entered. -/
  nmiLatched : Bool
  deriving DecidableEq

namespace Cpu

inductive Fault where
  | jam (opcode : UInt8) (pc : UInt16)
  | unsupported (opcode : UInt8) (pc : UInt16)
  deriving DecidableEq

def Fault.message : Fault → String
  | .jam opcode pc => s!"CPU jammed on opcode ${Text.hexByte opcode} at ${Text.hexWord pc}"
  | .unsupported opcode pc =>
    s!"unsupported opcode ${Text.hexByte opcode} at ${Text.hexWord pc}"

def powerOn : Cpu :=
  ⟨Registers.initial, 0, false, false⟩

def reset : BusM Cpu := do
  let pc ← readWord resetVector
  return ⟨{ Registers.initial with pc := pc }, interruptCycles, false, false⟩

/-- Requests a non-maskable interrupt, entered at the next step. -/
def latchNmi (cpu : Cpu) : Cpu :=
  { cpu with nmiLatched := true }

def setIrq (cpu : Cpu) (level : Bool) : Cpu :=
  { cpu with irqLine := level }

def spend (cpu : Cpu) (cycles : Nat) (r : Registers) : Cpu :=
  { cpu with registers := r, cycles := cpu.cycles + cycles }

def interrupt (cpu : Cpu) (vector : UInt16) : BusM (Nat × Cpu) := do
  let r ← enterInterrupt cpu.registers cpu.registers.pc false vector
  return (interruptCycles, cpu.spend interruptCycles r)

def runInstruction (cpu : Cpu) : BusM (Except Fault (Nat × Cpu)) := do
  let pc := cpu.registers.pc
  let (code, r) ← fetch cpu.registers
  match Opcode.ofByte code with
  | .timed instruction base =>
    let (extra, r) ← instruction.execute r
    return .ok (base + extra, cpu.spend (base + extra) r)
  | .jam => return .error (.jam code pc)
  | .unsupported => return .error (.unsupported code pc)

/-- Enters a pending interrupt or executes one instruction; gives the cycles it took. -/
def step (cpu : Cpu) : BusM (Except Fault (Nat × Cpu)) :=
  if cpu.nmiLatched then do
    let entered ← { cpu with nmiLatched := false }.interrupt nmiVector
    return .ok entered
  else if cpu.irqLine && !cpu.registers.flag .interruptDisable then do
    let entered ← cpu.interrupt irqVector
    return .ok entered
  else
    cpu.runInstruction

def stateLine (cpu : Cpu) : String :=
  let r := cpu.registers
  s!"PC:{Text.hexWord r.pc} A:{Text.hexByte r.a} X:{Text.hexByte r.x} Y:{Text.hexByte r.y}" ++
    s!" P:{Text.hexByte r.p} SP:{Text.hexByte r.s} CYC:{cpu.cycles}"

def describe (cpu : Cpu) : String :=
  s!"Mos6502 \x7b regs: {cpu.registers.describe}, cycles: {cpu.cycles}, " ++
    s!"irq_line: {Text.boolean cpu.irqLine}, nmi_pending: {Text.boolean cpu.nmiLatched} \x7d"

end Cpu

end Famicom
