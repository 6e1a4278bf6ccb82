import Famicom.Cpu.Step
import Famicom.Proofs.Cpu.Transcript

/-!
# Rules of the processor

What one step does, said by rules: how each mode finds its operand, and for each instruction the
accesses it makes behind its opcode, the cycles beyond its base cost and the registers after it.
The registers that a rule speaks of are those at the opcode.  Every step obeys the rules whatever
the bus answers, and what is proved of steps elsewhere is read off them.
-/

namespace Famicom.Cpu

/-! ### Registers -/

def Registers.past (r : Registers) (bytes : Nat) : Registers :=
  { r with pc := r.pc + UInt16.ofNat bytes }

def Registers.entering (r : Registers) (target : UInt16) : Registers :=
  { r.setFlag .interruptDisable true with s := r.s - 3, pc := target }

/-! ### The stack -/

def OnStack (address : UInt16) : Prop :=
  pageOf address = 1

theorem onStack_stackSlot (s : UInt8) : OnStack (Registers.stackSlot s) := by
  have hs := s.toNat_lt
  apply UInt16.toNat_inj.1
  simp [pageOf, Registers.stackSlot]
  omega

/-- The writes that push some bytes, from a stack pointer down. -/
def pushes : UInt8 → List UInt8 → List Access
  | _, [] => []
  | s, value :: rest => .write (Registers.stackSlot s) value :: pushes (s - 1) rest

/-- The reads that pull some bytes, from above a stack pointer up. -/
def pulls : UInt8 → List UInt8 → List Access
  | _, [] => []
  | s, value :: rest => .read (Registers.stackSlot (s + 1)) value :: pulls (s + 1) rest

/-! ### Operands -/

/-- The bytes of an instruction with an operand in memory, its opcode included. -/
def Mode.size : Mode → Nat
  | .absolute | .absoluteX | .absoluteY => 3
  | _ => 2

/-- How a mode finds its operand: the reads on the way, the address before indexing and the
address of the operand. -/
inductive Mode.Finds (r : Registers) : Mode → List Access → UInt16 → UInt16 → Prop
  | immediate : Finds r .immediate [] (r.pc + 1) (r.pc + 1)
  | zeroPage (low : UInt8) :
    Finds r .zeroPage [.read (r.pc + 1) low] low.toUInt16 low.toUInt16
  | zeroPageX (low : UInt8) :
    Finds r .zeroPageX [.read (r.pc + 1) low] (low + r.x).toUInt16 (low + r.x).toUInt16
  | zeroPageY (low : UInt8) :
    Finds r .zeroPageY [.read (r.pc + 1) low] (low + r.y).toUInt16 (low + r.y).toUInt16
  | absolute (low high : UInt8) :
    Finds r .absolute [.read (r.pc + 1) low, .read (r.pc + 2) high]
      (wordOf low high) (wordOf low high)
  | absoluteX (low high : UInt8) :
    Finds r .absoluteX [.read (r.pc + 1) low, .read (r.pc + 2) high]
      (wordOf low high) (wordOf low high + r.x.toUInt16)
  | absoluteY (low high : UInt8) :
    Finds r .absoluteY [.read (r.pc + 1) low, .read (r.pc + 2) high]
      (wordOf low high) (wordOf low high + r.y.toUInt16)
  | indexedIndirect (pointer low high : UInt8) :
    Finds r .indexedIndirect
      [.read (r.pc + 1) pointer, .read (pointer + r.x).toUInt16 low,
        .read (pointer + r.x + 1).toUInt16 high]
      (wordOf low high) (wordOf low high)
  | indirectIndexed (pointer low high : UInt8) :
    Finds r .indirectIndexed
      [.read (r.pc + 1) pointer, .read pointer.toUInt16 low,
        .read (pointer + 1).toUInt16 high]
      (wordOf low high) (wordOf low high + r.y.toUInt16)

/-! ### Instructions -/

def Registers.branchTarget (r : Registers) (offset : UInt8) : UInt16 :=
  r.pc + 2 + signExtend offset

/-- The address of the second byte of an indirect jump's pointer: the next one within its page. -/
def nextInPage (address : UInt16) : UInt16 :=
  wordOf (lowByte address + 1) (highByte address)

/-- What an instruction does: its accesses behind the opcode, the cycles beyond its base cost and
the registers after it. -/
inductive Instruction.Runs (r : Registers) : Instruction → List Access → Nat → Registers → Prop
  | read {mode : Mode} {reads : List Access} {base address : UInt16} (op : ReadOp) (value : UInt8)
      (found : mode.Finds r reads base address) :
    Runs r (.read op mode) (reads ++ [.read address value])
      (if pageOf base = pageOf address then 0 else 1) (op.apply value (r.past mode.size))
  | store {mode : Mode} {reads : List Access} {base address : UInt16} (register : Register)
      (found : mode.Finds r reads base address) :
    Runs r (.store register mode) (reads ++ [.write address (r.get register)]) 0
      (r.past mode.size)
  | modify {mode : Mode} {reads : List Access} {base address : UInt16} (op : ModifyOp)
      (value : UInt8) (found : mode.Finds r reads base address) :
    Runs r (.modify op mode)
      (reads ++ [.read address value, .write address (op.result value (r.flag .carry))]) 0
      (op.apply value (r.past mode.size)).2
  | modifyAccumulator (op : ModifyOp) :
    Runs r (.modifyAccumulator op) [] 0
      { (op.apply r.a (r.past 1)).2 with a := op.result r.a (r.flag .carry) }
  | internal (op : RegisterOp) : Runs r (.internal op) [] 0 (op.apply (r.past 1))
  | pushAccumulator :
    Runs r .pushAccumulator (pushes r.s [r.a]) 0 { r.past 1 with s := r.s - 1 }
  | pushStatus :
    Runs r .pushStatus (pushes r.s [r.pushedStatus true]) 0 { r.past 1 with s := r.s - 1 }
  | pullAccumulator (value : UInt8) :
    Runs r .pullAccumulator (pulls r.s [value]) 0
      ({ r.past 1 with s := r.s + 1 }.load .a value)
  | pullStatus (value : UInt8) :
    Runs r .pullStatus (pulls r.s [value]) 0 ({ r.past 1 with s := r.s + 1 }.loadStatus value)
  | branchTaken {flag : Flag} {on : Bool} (offset : UInt8) (taken : r.flag flag = on) :
    Runs r (.branch flag on) [.read (r.pc + 1) offset]
      (branchCycles (r.pc + 2) (r.branchTarget offset)) { r with pc := r.branchTarget offset }
  | branchPassed {flag : Flag} {on : Bool} (offset : UInt8) (passed : r.flag flag ≠ on) :
    Runs r (.branch flag on) [.read (r.pc + 1) offset] 0 (r.past 2)
  | jump (low high : UInt8) :
    Runs r .jump [.read (r.pc + 1) low, .read (r.pc + 2) high] 0 { r with pc := wordOf low high }
  | jumpIndirect (low high targetLow targetHigh : UInt8) :
    Runs r .jumpIndirect
      [.read (r.pc + 1) low, .read (r.pc + 2) high, .read (wordOf low high) targetLow,
        .read (nextInPage (wordOf low high)) targetHigh] 0
      { r with pc := wordOf targetLow targetHigh }
  | call (low high : UInt8) :
    Runs r .call ([.read (r.pc + 1) low, .read (r.pc + 2) high] ++
      pushes r.s [highByte (r.pc + 2), lowByte (r.pc + 2)]) 0
      { r with s := r.s - 2, pc := wordOf low high }
  | subroutineReturn (low high : UInt8) :
    Runs r .subroutineReturn (pulls r.s [low, high]) 0
      { r with s := r.s + 2, pc := wordOf low high + 1 }
  | interruptReturn (status low high : UInt8) :
    Runs r .interruptReturn (pulls r.s [status, low, high]) 0
      { r.loadStatus status with s := r.s + 3, pc := wordOf low high }
  | softwareInterrupt (low high : UInt8) :
    Runs r .softwareInterrupt
      (pushes r.s [highByte (r.pc + 2), lowByte (r.pc + 2), r.pushedStatus true] ++
        [.read irqVector low, .read (irqVector + 1) high]) 0
      (r.entering (wordOf low high))

/-! ### Steps -/

/-- The vector of the interrupt that the next step enters. -/
def pending? (cpu : Cpu) : Option UInt16 :=
  if cpu.nmiLatched then some nmiVector
  else if cpu.irqLine && !cpu.registers.flag .interruptDisable then some irqVector
  else none

theorem pending?_eq_none_iff {cpu : Cpu} : cpu.pending? = none ↔
    cpu.nmiLatched = false ∧ (cpu.irqLine && !cpu.registers.flag .interruptDisable) = false := by
  unfold pending?
  cases cpu.nmiLatched <;> cases cpu.irqLine && !cpu.registers.flag .interruptDisable <;> decide

theorem pending?_eq_nmiVector (cpu : Cpu) :
    cpu.pending? = some nmiVector ↔ cpu.nmiLatched = true := by
  unfold pending?
  cases cpu.nmiLatched <;> cases cpu.irqLine && !cpu.registers.flag .interruptDisable <;> decide

theorem step_eq_runInstruction {cpu : Cpu} (h : cpu.pending? = none) :
    cpu.step = cpu.runInstruction := by
  obtain ⟨hNmi, hIrq⟩ := pending?_eq_none_iff.1 h
  rw [step, if_neg (Bool.eq_false_iff.1 hNmi), if_neg (Bool.eq_false_iff.1 hIrq)]

def entered (cpu : Cpu) (target : UInt16) : Cpu :=
  { cpu.spend interruptCycles (cpu.registers.entering target) with nmiLatched := false }

/-- What a step does: its accesses and its result. -/
inductive Steps (cpu : Cpu) : List Access → Except Fault (Nat × Cpu) → Prop
  | interrupt {vector : UInt16} (low high : UInt8) (pending : cpu.pending? = some vector) :
    Steps cpu
      (pushes cpu.registers.s [highByte cpu.registers.pc, lowByte cpu.registers.pc,
          cpu.registers.pushedStatus false] ++ [.read vector low, .read (vector + 1) high])
      (.ok (interruptCycles, cpu.entered (wordOf low high)))
  | instruction {code : UInt8} {instruction : Instruction} {base extra : Nat} {log : List Access}
      {next : Registers} (free : cpu.pending? = none)
      (decoded : Opcode.ofByte code = .timed instruction base)
      (runs : instruction.Runs cpu.registers log extra next) :
    Steps cpu (.read cpu.registers.pc code :: log)
      (.ok (base + extra, cpu.spend (base + extra) next))
  | jam {code : UInt8} (free : cpu.pending? = none) (jams : Opcode.ofByte code = .jam) :
    Steps cpu [.read cpu.registers.pc code] (.error (.jam code cpu.registers.pc))
  | unsupported {code : UInt8} (free : cpu.pending? = none)
      (unknown : Opcode.ofByte code = .unsupported) :
    Steps cpu [.read cpu.registers.pc code] (.error (.unsupported code cpu.registers.pc))

/-! ### Every step obeys the rules -/

theorem add_two (pc : UInt16) : pc + 1 + 1 = pc + 2 := by
  rw [UInt16.add_assoc]
  rfl

theorem add_three (pc : UInt16) : pc + 1 + 1 + 1 = pc + 3 := by
  rw [UInt16.add_assoc, UInt16.add_assoc]
  rfl

theorem locate_shows (mode : Mode) (r : Registers) :
    (mode.locate (r.past 1)).Shows fun reads operand => ∃ base,
      mode.Finds r reads base operand.address ∧
      operand.crossed = (pageOf base != pageOf operand.address) ∧
      operand.registers = r.past mode.size := by
  have hTwo : { r with pc := r.pc + 1 + 1 } = r.past 2 := by rw [add_two]; rfl
  have hThree : { r with pc := r.pc + 1 + 1 + 1 } = r.past 3 := by rw [add_three]; rfl
  cases mode with
  | immediate => exact ⟨_, .immediate, (bne_self_eq_false _).symm, hTwo⟩
  | zeroPage => exact fun low => ⟨_, .zeroPage low, (bne_self_eq_false _).symm, hTwo⟩
  | zeroPageX => exact fun low => ⟨_, .zeroPageX low, (bne_self_eq_false _).symm, hTwo⟩
  | zeroPageY => exact fun low => ⟨_, .zeroPageY low, (bne_self_eq_false _).symm, hTwo⟩
  | absolute =>
    intro low high
    refine ⟨wordOf low high, ?_, (bne_self_eq_false _).symm, hThree⟩
    exact add_two r.pc ▸ Mode.Finds.absolute low high
  | absoluteX =>
    intro low high
    refine ⟨wordOf low high, ?_, rfl, hThree⟩
    exact add_two r.pc ▸ Mode.Finds.absoluteX low high
  | absoluteY =>
    intro low high
    refine ⟨wordOf low high, ?_, rfl, hThree⟩
    exact add_two r.pc ▸ Mode.Finds.absoluteY low high
  | indexedIndirect =>
    exact fun pointer low high =>
      ⟨_, .indexedIndirect pointer low high, (bne_self_eq_false _).symm, hTwo⟩
  | indirectIndexed =>
    exact fun pointer low high => ⟨_, .indirectIndexed pointer low high, rfl, hTwo⟩

theorem enterInterrupt_shows (r : Registers) (returnTo : UInt16) (byInstruction : Bool)
    (vector : UInt16) :
    (enterInterrupt r returnTo byInstruction vector).Shows fun log next => ∃ low high,
      log = pushes r.s [highByte returnTo, lowByte returnTo, r.pushedStatus byInstruction] ++
        [.read vector low, .read (vector + 1) high] ∧ next = r.entering (wordOf low high) := by
  intro low high
  refine ⟨low, high, rfl, ?_⟩
  have hDown : r.s - 1 - 1 - 1 = r.s - 3 := by grind
  unfold Registers.entering
  rw [← hDown]
  rfl

theorem execute_shows (instruction : Instruction) (r : Registers) :
    (instruction.execute (r.past 1)).Shows fun log result =>
      instruction.Runs r log result.1 result.2 := by
  have hTwo : { r with pc := r.pc + 1 + 1 } = r.past 2 := by rw [add_two]; rfl
  have hDown : r.s - 1 - 1 = r.s - 2 := by grind
  have hUp : r.s + 1 + 1 = r.s + 2 := by grind
  have hUpThree : r.s + 1 + 1 + 1 = r.s + 3 := by grind
  cases instruction with
  | read op mode =>
    refine BusM.Shows.bind (locate_shows mode r) ?_
    rintro reads ⟨address, crossed, _⟩ ⟨base, hFinds, hCrossed, rfl⟩ value
    obtain rfl : crossed = (pageOf base != pageOf address) := hCrossed
    have hCost : (if pageOf base != pageOf address then 1 else 0) =
        if pageOf base = pageOf address then 0 else 1 := by
      simp only [bne_iff_ne, ne_eq, ite_not]
    exact hCost ▸ .read op value hFinds
  | store register mode =>
    refine BusM.Shows.bind (locate_shows mode r) ?_
    rintro reads ⟨address, crossed, _⟩ ⟨base, hFinds, hCrossed, rfl⟩
    exact .store register hFinds
  | modify op mode =>
    refine BusM.Shows.bind (locate_shows mode r) ?_
    rintro reads ⟨address, crossed, _⟩ ⟨base, hFinds, hCrossed, rfl⟩ value
    exact .modify op value hFinds
  | modifyAccumulator op => exact .modifyAccumulator op
  | internal op => exact .internal op
  | pushAccumulator => exact .pushAccumulator
  | pushStatus => exact .pushStatus
  | pullAccumulator => exact .pullAccumulator
  | pullStatus => exact .pullStatus
  | branch flag on =>
    intro offset
    show BusM.Shows (if r.flag flag == on then _ else _) _
    split
    · rename_i hTaken
      have hRuns := Instruction.Runs.branchTaken offset (beq_iff_eq.1 hTaken)
      unfold Registers.branchTarget at hRuns
      rwa [← add_two] at hRuns
    · rename_i hPassed
      exact hTwo ▸ .branchPassed offset fun h => hPassed (beq_iff_eq.2 h)
  | jump => exact fun low high => add_two r.pc ▸ .jump low high
  | jumpIndirect =>
    exact fun low high targetLow targetHigh =>
      add_two r.pc ▸ .jumpIndirect low high targetLow targetHigh
  | call =>
    intro low high
    have hLast : r.pc + 1 + 1 + 1 - 1 = r.pc + 2 := by grind
    show Instruction.Runs r .call [.read (r.pc + 1) low, .read (r.pc + 1 + 1) high,
      .write (Registers.stackSlot r.s) (highByte (r.pc + 1 + 1 + 1 - 1)),
      .write (Registers.stackSlot (r.s - 1)) (lowByte (r.pc + 1 + 1 + 1 - 1))] 0
      { r with s := r.s - 1 - 1, pc := wordOf low high }
    rw [hLast, add_two, hDown]
    exact .call low high
  | subroutineReturn =>
    intro low high
    have hRuns := Instruction.Runs.subroutineReturn (r := r) low high
    rwa [← hUp] at hRuns
  | interruptReturn =>
    intro status low high
    have hRuns := Instruction.Runs.interruptReturn (r := r) status low high
    rwa [← hUpThree] at hRuns
  | softwareInterrupt =>
    refine BusM.Shows.bind_pure ((enterInterrupt_shows _ _ true irqVector).mono ?_)
    rintro _ _ ⟨low, high, rfl, rfl⟩
    have hRuns := Instruction.Runs.softwareInterrupt (r := r) low high
    rwa [← add_two] at hRuns

theorem interrupt_shows (cpu : Cpu) (vector : UInt16) :
    (cpu.interrupt vector).Shows fun log result => ∃ low high,
      log = pushes cpu.registers.s [highByte cpu.registers.pc, lowByte cpu.registers.pc,
        cpu.registers.pushedStatus false] ++ [.read vector low, .read (vector + 1) high] ∧
      result = (interruptCycles,
        cpu.spend interruptCycles (cpu.registers.entering (wordOf low high))) := by
  refine BusM.Shows.bind_pure ((enterInterrupt_shows _ _ false vector).mono ?_)
  rintro _ _ ⟨low, high, rfl, rfl⟩
  exact ⟨low, high, rfl, rfl⟩

theorem runInstruction_shows {cpu : Cpu} (hFree : cpu.pending? = none) :
    cpu.runInstruction.Shows cpu.Steps := by
  intro code
  dsimp only [runInstruction, fetch, BusM.get, bind, BusM.bind, pure]
  cases hCode : Opcode.ofByte code with
  | timed instruction base =>
    refine BusM.Shows.bind_pure ((execute_shows instruction cpu.registers).mono ?_)
    exact fun log result hRuns => .instruction hFree hCode hRuns
  | jam => exact .jam hFree hCode
  | unsupported => exact .unsupported hFree hCode

/-- Whatever the bus answers, a step obeys the rules. -/
theorem step_shows (cpu : Cpu) : cpu.step.Shows cpu.Steps := by
  unfold step
  split
  · rename_i hNmi
    have hPending : cpu.pending? = some nmiVector := by rw [pending?, if_pos hNmi]
    refine BusM.Shows.bind_pure ((interrupt_shows _ nmiVector).mono ?_)
    rintro _ _ ⟨low, high, rfl, rfl⟩
    exact .interrupt low high hPending
  · rename_i hNmi
    have hLatch : cpu.nmiLatched = false := by simpa using hNmi
    split
    · rename_i hIrq
      have hPending : cpu.pending? = some irqVector := by
        rw [pending?, if_neg hNmi, if_pos hIrq]
      refine BusM.Shows.bind_pure ((interrupt_shows cpu irqVector).mono ?_)
      rintro _ _ ⟨low, high, rfl, rfl⟩
      have hEntered : cpu.spend interruptCycles (cpu.registers.entering (wordOf low high)) =
          cpu.entered (wordOf low high) := by
        unfold entered
        rw [← hLatch]
        rfl
      rw [hEntered]
      exact .interrupt low high hPending
    · rename_i hIrq
      exact runInstruction_shows (by rw [pending?, if_neg hNmi, if_neg hIrq])

theorem pending?_of_error {β : Type} [Bus β] {cpu : Cpu} {bus : β} {fault : Fault}
    (h : (cpu.step.run bus).1 = .error fault) : cpu.pending? = none := by
  have hSteps := (step_shows cpu).run bus
  rw [h] at hSteps
  generalize cpu.step.accesses bus = log at hSteps
  cases hSteps with
  | jam free jams => exact free
  | unsupported free unknown => exact free

/-! ### Steps on flat memory -/

/-- A step that executes an instruction of flat memory: its accesses behind the opcode, each
answered by memory, its result and the memory after it. -/
structure Executes (cpu : Cpu) (memory : FlatMemory) (instruction : Instruction) (base : Nat)
    (log : List Access) (extra : Nat) (next : Registers) : Prop where
  accesses : cpu.step.accesses memory =
    .read cpu.registers.pc (memory.byteAt cpu.registers.pc) :: log
  result : (cpu.step.run memory).1 = .ok (base + extra, cpu.spend (base + extra) next)
  runs : instruction.Runs cpu.registers log extra next
  answers : memory.Answers log
  after : (cpu.step.run memory).2 = log.foldl FlatMemory.afterAccess memory

theorem exists_executes {cpu : Cpu} {memory : FlatMemory} {instruction : Instruction} {base : Nat}
    (hFree : cpu.pending? = none)
    (hCode : Opcode.ofByte (memory.byteAt cpu.registers.pc) = .timed instruction base) :
    ∃ log extra next, cpu.Executes memory instruction base log extra next := by
  have hSteps := (step_shows cpu).run memory
  have hAnswers := FlatMemory.answers_accesses cpu.step memory
  have hAfter := FlatMemory.run_eq_foldl cpu.step memory
  generalize hLog : cpu.step.accesses memory = log at hSteps hAnswers hAfter
  generalize hResult : (cpu.step.run memory).1 = result at hSteps
  cases hSteps with
  | interrupt low high pending =>
    rw [hFree] at pending
    cases pending
  | @instruction code _ _ extra log next free decoded runs =>
    -- The opcode read is the one in memory, so the rule is about the given instruction.
    obtain ⟨rfl, hAnswers⟩ := hAnswers
    rw [hCode] at decoded
    cases decoded
    exact ⟨log, extra, next, hLog, hResult, runs, hAnswers, hAfter⟩
  | jam free jams =>
    obtain ⟨rfl, -⟩ := hAnswers
    rw [hCode] at jams
    cases jams
  | unsupported free unknown =>
    obtain ⟨rfl, -⟩ := hAnswers
    rw [hCode] at unknown
    cases unknown

end Famicom.Cpu
