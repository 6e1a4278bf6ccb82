import Famicom.Proofs.Cpu.Digits

/-!
# Straight-line code

Code without jumps that works on the registers alone is executed line by line, whatever the bus
is, as long as it answers the fetches with the code: each step does one line, and no interrupt
comes in between.
-/

namespace Famicom.Cpu

variable {β : Type} [Bus β]

/-! ### Several steps -/

def advance? (state : Cpu × β) : Option (Cpu × β) :=
  match state.1.step.run state.2 with
  | (.ok (_, next), bus) => some (next, bus)
  | (.error _, _) => none

def advanceBy? : Nat → Cpu × β → Option (Cpu × β)
  | 0, state => some state
  | count + 1, state => (advance? state).bind (advanceBy? count)

theorem advance?_eq {state : Cpu × β} {cycles : Nat} {next : Cpu} {bus : β}
    (h : state.1.step.run state.2 = (.ok (cycles, next), bus)) :
    advance? state = some (next, bus) := by
  rw [advance?, h]

/-- Reads from an address on are answered with some bytes. -/
def Reads : β → UInt16 → List UInt8 → Prop
  | _, _, [] => True
  | bus, address, value :: rest =>
    (Bus.read bus address).1 = value ∧ Reads (Bus.read bus address).2 (address + 1) rest

/-- The processor is about to execute some code, and no interrupt comes before it. -/
structure Ready (state : Cpu × β) (code : List UInt8) : Prop where
  free : state.1.pending? = none
  code : Reads state.2 state.1.registers.pc code

theorem pending?_of_masked {cpu next : Cpu} (hLatch : next.nmiLatched = cpu.nmiLatched)
    (hLine : next.irqLine = cpu.irqLine)
    (hMasked : next.registers.masked = cpu.registers.masked) : next.pending? = cpu.pending? := by
  have hFlag : next.registers.flag .interruptDisable =
    cpu.registers.flag .interruptDisable := hMasked
  rw [pending?, pending?, hLatch, hLine, hFlag]

theorem advance?_of_execute {cpu : Cpu} {bus after : β} {instruction : Instruction}
    {base extra : Nat} {next : Registers} (hFree : cpu.pending? = none)
    (hCode : Opcode.ofByte (Bus.read bus cpu.registers.pc).1 = .timed instruction base)
    (hRun : (instruction.execute (cpu.registers.past 1)).run
      (Bus.read bus cpu.registers.pc).2 = ((extra, next), after)) :
    advance? (cpu, bus) = some (cpu.spend (base + extra) next, after) := by
  have hExecute : (instruction.execute { cpu.registers with pc := cpu.registers.pc + 1 }).run
      (Bus.read bus cpu.registers.pc).2 = ((extra, next), after) := hRun
  have hStep : cpu.step.run bus = (.ok (base + extra, cpu.spend (base + extra) next), after) := by
    rw [step_eq_runInstruction hFree, runInstruction]
    dsimp only [fetch, BusM.get, bind, BusM.bind, pure, BusM.run]
    rw [hCode]
    refine (BusM.run_bind _ _ _).trans ?_
    rw [hExecute]
    rfl
  exact advance?_eq hStep

/-! ### Lines of code -/

/-- A line of code that works on the accumulator and the carry flag. -/
inductive Line where
  | carry (on : Bool)
  | load (value : UInt8)
  | add (value : UInt8)
  | subtract (value : UInt8)
  | shift (s : Shift)

namespace Line

def instruction : Line → Instruction
  | .carry on => .internal (.setFlag .carry on)
  | .load _ => .read (.load .a) .immediate
  | .add _ => .read .add .immediate
  | .subtract _ => .read .subtract .immediate
  | .shift s => .modifyAccumulator s.op

def opcode : Line → UInt8
  | .carry on => if on then 0x38 else 0x18
  | .load _ => 0xA9
  | .add _ => 0x69
  | .subtract _ => 0xE9
  | .shift .left => 0x0A
  | .shift .leftThrough => 0x2A
  | .shift .right => 0x4A
  | .shift .rightThrough => 0x6A

def code (line : Line) : List UInt8 :=
  match line with
  | .carry _ | .shift _ => [line.opcode]
  | .load value | .add value | .subtract value => [line.opcode, value]

def after (r : Registers) : Line → Registers
  | .carry on => (r.past 1).setFlag .carry on
  | .load value => (r.past 2).load .a value
  | .add value => (r.past 2).add value
  | .subtract value => (r.past 2).add (~~~value)
  | .shift s =>
    { (s.op.apply r.a (r.past 1)).2 with a := s.op.result r.a (r.flag .carry) }

theorem ofByte_opcode (line : Line) : Opcode.ofByte line.opcode = .timed line.instruction 2 := by
  -- Each opcode is looked up without its operand, which the matrix does not see.
  have hLoad : Opcode.ofByte 0xA9 = .timed (.read (.load .a) .immediate) 2 := rfl
  have hAdd : Opcode.ofByte 0x69 = .timed (.read .add .immediate) 2 := rfl
  have hSubtract : Opcode.ofByte 0xE9 = .timed (.read .subtract .immediate) 2 := rfl
  cases line with
  | carry on => cases on <;> rfl
  | load value => exact hLoad
  | add value => exact hAdd
  | subtract value => exact hSubtract
  | shift s => cases s <;> rfl

theorem masked_after (line : Line) (r : Registers) : (line.after r).masked = r.masked := by
  cases line with
  | carry on => exact masked_setFlag (by decide) (r.past 1) on
  | load value => exact masked_load (r.past 2) .a value
  | add value => exact masked_readOp .add value (r.past 2)
  | subtract value => exact masked_readOp .subtract value (r.past 2)
  | shift s => exact masked_modifyOp s.op r.a (r.past 1)

theorem immediate_run (op : ReadOp) (r : Registers) {bus : β} {value : UInt8}
    (h : (Bus.read bus (r.pc + 1)).1 = value) :
    ((Instruction.read op .immediate).execute (r.past 1)).run bus =
      ((0, op.apply value (r.past 2)), (Bus.read bus (r.pc + 1)).2) := by
  have hTwo : { r with pc := r.pc + 1 + 1 } = r.past 2 := by rw [add_two]; rfl
  refine Prod.ext ?_ rfl
  show (0, op.apply (Bus.read bus (r.pc + 1)).1 { r with pc := r.pc + 1 + 1 }) = _
  rw [hTwo, h]

/-- Executed from behind its opcode, a line reads its own bytes and no more. -/
theorem execute_run (line : Line) (r : Registers) {bus : β} {rest : List UInt8}
    (h : Reads bus r.pc (line.code ++ rest)) :
    ∃ bus', (line.instruction.execute (r.past 1)).run (Bus.read bus r.pc).2 =
      ((0, line.after r), bus') ∧ Reads bus' (line.after r).pc rest := by
  cases line with
  | carry on => exact ⟨_, rfl, h.2⟩
  | shift s => cases s <;> exact ⟨_, rfl, h.2⟩
  | load value =>
    obtain ⟨-, hValue, hRest⟩ := h
    rw [add_two] at hRest
    exact ⟨_, immediate_run (.load .a) r hValue, hRest⟩
  | add value =>
    obtain ⟨-, hValue, hRest⟩ := h
    rw [add_two] at hRest
    exact ⟨_, immediate_run .add r hValue, hRest⟩
  | subtract value =>
    obtain ⟨-, hValue, hRest⟩ := h
    rw [add_two] at hRest
    exact ⟨_, immediate_run .subtract r hValue, hRest⟩

end Line

theorem Ready.line {state : Cpu × β} {line : Line} {rest : List UInt8}
    (h : Ready state (line.code ++ rest)) :
    ∃ next, advance? state = some next ∧ next.1.registers = line.after state.1.registers ∧
      Ready next rest := by
  obtain ⟨cpu, bus⟩ := state
  have hOpcode : (Bus.read bus cpu.registers.pc).1 = line.opcode := by
    have hCode := h.code
    cases line <;> exact hCode.1
  obtain ⟨bus', hRun, hRest⟩ := line.execute_run cpu.registers h.code
  refine ⟨_, advance?_of_execute h.free (hOpcode ▸ line.ofByte_opcode) hRun, rfl, ?_, hRest⟩
  have hFree : cpu.pending? = none := h.free
  rw [← hFree]
  exact pending?_of_masked rfl rfl (line.masked_after cpu.registers)

theorem Ready.lines {state : Cpu × β} {lines : List Line} {rest : List UInt8}
    (h : Ready state (lines.flatMap Line.code ++ rest)) :
    ∃ next, advanceBy? lines.length state = some next ∧
      next.1.registers = lines.foldl Line.after state.1.registers ∧ Ready next rest := by
  induction lines generalizing state with
  | nil => exact ⟨state, rfl, rfl, h⟩
  | cons line lines ih =>
    rw [List.flatMap_cons, List.append_assoc] at h
    obtain ⟨middle, hFirst, hRegisters, hReady⟩ := h.line
    obtain ⟨next, hRest, hRegisters', hReady'⟩ := ih hReady
    refine ⟨next, ?_, ?_, hReady'⟩
    · rw [List.length_cons, advanceBy?, hFirst]
      exact hRest
    · rw [List.foldl_cons, hRegisters', hRegisters]

end Famicom.Cpu
