import Famicom.Proofs.Cpu.Driven
import Famicom.Proofs.Cpu.Stack

/-!
# Nesting of interrupts and calls

An interrupt whose handler returns at once is not noticed by the program: two steps later every
register is as it was, and only the slots below the stack pointer have changed.  Calls and saved
status bytes nest in the same way.
-/

namespace Famicom.Cpu

def FlatMemory.wordAt (memory : FlatMemory) (address : UInt16) : UInt16 :=
  wordOf (memory.byteAt address) (memory.byteAt (address + 1))

/-! ### Entering -/

theorem vector_offStack {cpu : Cpu} {vector : UInt16} (h : cpu.pending? = some vector) :
    ¬OnStack vector ∧ ¬OnStack (vector + 1) := by
  unfold pending? at h
  split at h
  · cases h
    exact nmiVector_offStack
  · split at h
    · cases h
      exact irqVector_offStack
    · cases h

theorem step_interrupt {cpu : Cpu} {vector : UInt16} (h : cpu.pending? = some vector)
    (memory : FlatMemory) :
    cpu.step.run memory = (.ok (interruptCycles, cpu.entered (memory.wordAt vector)),
      memory.pushed cpu.registers.s [highByte cpu.registers.pc, lowByte cpu.registers.pc,
        cpu.registers.pushedStatus false]) := by
  have hSteps := (step_shows cpu).run memory
  have hAnswers := FlatMemory.answers_accesses cpu.step memory
  have hAfter := FlatMemory.run_eq_foldl cpu.step memory
  generalize cpu.step.accesses memory = log at hSteps hAnswers hAfter
  generalize hOutcome : cpu.step.run memory = outcome at hSteps hAfter
  obtain ⟨result, after⟩ := outcome
  cases hSteps with
  | interrupt low high pending =>
    obtain rfl : _ = vector := Option.some.inj (pending.symm.trans h)
    obtain ⟨rfl, rfl⟩ := vector_bytes (vector_offStack h).1 (vector_offStack h).2 hAnswers
    refine Prod.ext rfl (hAfter.trans ?_)
    rw [List.foldl_append]
    rfl
  | instruction free decoded runs => cases free.symm.trans h
  | jam free jams => cases free.symm.trans h
  | unsupported free unknown => cases free.symm.trans h

/-! ### Instructions that push -/

theorem run_at {cpu : Cpu} {memory : FlatMemory} {code : UInt8} {instruction : Instruction}
    {base : Nat} (hFree : cpu.pending? = none) (hCode : memory.byteAt cpu.registers.pc = code)
    (hOpcode : Opcode.ofByte code = .timed instruction base) :
    ∃ log extra next, instruction.Runs cpu.registers log extra next ∧ memory.Answers log ∧
      cpu.step.run memory = (.ok (base + extra, cpu.spend (base + extra) next),
        log.foldl FlatMemory.afterAccess memory) := by
  rw [← hCode] at hOpcode
  obtain ⟨log, extra, next, hExecutes⟩ := exists_executes hFree hOpcode
  exact ⟨log, extra, next, hExecutes.runs, hExecutes.answers,
    Prod.ext hExecutes.result hExecutes.after⟩

theorem step_softwareInterrupt {cpu : Cpu} {memory : FlatMemory} (hFree : cpu.pending? = none)
    (hCode : memory.byteAt cpu.registers.pc = 0x00) :
    cpu.step.run memory =
      (.ok (7, cpu.spend 7 (cpu.registers.entering (memory.wordAt irqVector))),
        memory.pushed cpu.registers.s [highByte (cpu.registers.pc + 2),
          lowByte (cpu.registers.pc + 2), cpu.registers.pushedStatus true]) := by
  obtain ⟨log, extra, next, hRuns, hAnswers, hRun⟩ := run_at hFree hCode rfl
  cases hRuns with
  | softwareInterrupt low high =>
    obtain ⟨rfl, rfl⟩ := vector_bytes irqVector_offStack.1 irqVector_offStack.2 hAnswers
    rw [hRun, List.foldl_append]
    rfl

theorem step_call {cpu : Cpu} {memory : FlatMemory} (hFree : cpu.pending? = none)
    (hCode : memory.byteAt cpu.registers.pc = 0x20) :
    cpu.step.run memory =
      (.ok (6, cpu.spend 6 { cpu.registers with
          s := cpu.registers.s - 2, pc := memory.wordAt (cpu.registers.pc + 1) }),
        memory.pushed cpu.registers.s
          [highByte (cpu.registers.pc + 2), lowByte (cpu.registers.pc + 2)]) := by
  obtain ⟨log, extra, next, hRuns, hAnswers, hRun⟩ := run_at hFree hCode rfl
  cases hRuns with
  | call low high =>
    obtain ⟨rfl, rfl, -⟩ := hAnswers
    rw [hRun, FlatMemory.wordAt, add_two]
    rfl

theorem step_pushStatus {cpu : Cpu} {memory : FlatMemory} (hFree : cpu.pending? = none)
    (hCode : memory.byteAt cpu.registers.pc = 0x08) :
    cpu.step.run memory =
      (.ok (3, cpu.spend 3 { cpu.registers.past 1 with s := cpu.registers.s - 1 }),
        memory.pushed cpu.registers.s [cpu.registers.pushedStatus true]) := by
  obtain ⟨log, extra, next, hRuns, hAnswers, hRun⟩ := run_at hFree hCode rfl
  cases hRuns with
  | pushStatus => exact hRun

/-! ### Instructions that pull what was pushed -/

theorem step_interruptReturn {cpu : Cpu} {memory : FlatMemory} {s status low high : UInt8}
    (hFree : cpu.pending? = none) (hSlot : cpu.registers.s = s - 3)
    (hCode : (memory.pushed s [high, low, status]).byteAt cpu.registers.pc = 0x40) :
    cpu.step.run (memory.pushed s [high, low, status]) =
      (.ok (6, cpu.spend 6 { cpu.registers.loadStatus status with s := s, pc := wordOf low high }),
        memory.pushed s [high, low, status]) := by
  obtain ⟨log, extra, next, hRuns, hAnswers, hRun⟩ := run_at hFree hCode rfl
  cases hRuns with
  | interruptReturn status' low' high' =>
    rw [hSlot] at hAnswers
    have hPulled : [status', low', high'] = [high, low, status].reverse :=
      reverse_of_pulls rfl (by simp) hAnswers
    obtain ⟨rfl, rfl, rfl⟩ : status' = status ∧ low' = low ∧ high' = high := by
      simpa using hPulled
    have hUp : cpu.registers.s + 3 = s := by rw [hSlot]; grind
    rw [hRun, foldl_pulls, hUp]

theorem step_subroutineReturn (cpu : Cpu) {memory : FlatMemory} {s : UInt8} (low high : UInt8)
    (hFree : cpu.pending? = none) (hSlot : cpu.registers.s = s - 2)
    (hCode : (memory.pushed s [high, low]).byteAt cpu.registers.pc = 0x60) :
    cpu.step.run (memory.pushed s [high, low]) =
      (.ok (6, cpu.spend 6 { cpu.registers with s := s, pc := wordOf low high + 1 }),
        memory.pushed s [high, low]) := by
  obtain ⟨log, extra, next, hRuns, hAnswers, hRun⟩ := run_at hFree hCode rfl
  cases hRuns with
  | subroutineReturn low' high' =>
    rw [hSlot] at hAnswers
    have hPulled : [low', high'] = [high, low].reverse :=
      reverse_of_pulls rfl (by simp) hAnswers
    obtain ⟨rfl, rfl⟩ : low' = low ∧ high' = high := by simpa using hPulled
    have hUp : cpu.registers.s + 2 = s := by rw [hSlot]; grind
    rw [hRun, foldl_pulls, hUp]

theorem step_pullStatus (cpu : Cpu) {memory : FlatMemory} {s : UInt8} (status : UInt8)
    (hFree : cpu.pending? = none) (hSlot : cpu.registers.s = s - 1)
    (hCode : (memory.pushed s [status]).byteAt cpu.registers.pc = 0x28) :
    cpu.step.run (memory.pushed s [status]) =
      (.ok (4, cpu.spend 4 ({ cpu.registers.past 1 with s := s }.loadStatus status)),
        memory.pushed s [status]) := by
  obtain ⟨log, extra, next, hRuns, hAnswers, hRun⟩ := run_at hFree hCode rfl
  cases hRuns with
  | pullStatus status' =>
    rw [hSlot] at hAnswers
    have hPulled : [status'] = [status].reverse := reverse_of_pulls rfl (by simp) hAnswers
    obtain rfl : status' = status := by simpa using hPulled
    have hUp : cpu.registers.s + 1 = s := by rw [hSlot]; grind
    rw [hRun, foldl_pulls, hUp]

/-! ### Round trips -/

/-- Two steps, with something done to the processor in between, take some cycles and bring it to
the given registers; memory changes in the next slots of the stack alone. -/
def Resumes (cpu : Cpu) (memory : FlatMemory) (between : Cpu → Cpu) (slots cycles : Nat)
    (r : Registers) : Prop :=
  ∃ first second middle last halfway after,
    cpu.step.run memory = (.ok (first, middle), halfway) ∧
    (between middle).step.run halfway = (.ok (second, last), after) ∧
    first + second = cycles ∧ last.cycles = cpu.cycles + cycles ∧ last.registers = r ∧
    ∀ address ∉ freeSlots cpu.registers.s slots, after.byteAt address = memory.byteAt address

theorem resumes_of_pushed {cpu middle last : Cpu} {memory : FlatMemory} {between : Cpu → Cpu}
    {values : List UInt8} {first second cycles : Nat} {r : Registers}
    (hFirst : cpu.step.run memory =
      (.ok (first, middle), memory.pushed cpu.registers.s values))
    (hSecond : (between middle).step.run (memory.pushed cpu.registers.s values) =
      (.ok (second, last), memory.pushed cpu.registers.s values))
    (hCost : first + second = cycles) (hCycles : last.cycles = cpu.cycles + cycles)
    (hRegisters : last.registers = r) : cpu.Resumes memory between values.length cycles r :=
  ⟨first, second, middle, last, _, _, hFirst, hSecond, hCost, hCycles, hRegisters,
    fun _ hAddress => byteAt_pushed memory hAddress⟩

/-- An interrupt that has pushed a return address and a status byte comes back to them. -/
theorem return_from_interrupt (cpu : Cpu) {memory : FlatMemory} {r : Registers} {target : UInt16}
    (returnTo : UInt16) (byInstruction : Bool) (hRegular : r.Regular)
    (hRegisters : cpu.registers = r.entering target) (hLatch : cpu.nmiLatched = false)
    (hHandler : memory.byteAt target = 0x40) (hOutside : target ∉ freeSlots r.s 3) :
    cpu.step.run (memory.pushed r.s
        [highByte returnTo, lowByte returnTo, r.pushedStatus byInstruction]) =
      (.ok (6, cpu.spend 6 { r with pc := returnTo }), memory.pushed r.s
        [highByte returnTo, lowByte returnTo, r.pushedStatus byInstruction]) := by
  have hFree : cpu.pending? = none := by
    have hMasked : cpu.registers.flag .interruptDisable = true := by
      rw [hRegisters]
      exact flag_setFlag_self r .interruptDisable true
    simp [pending?, hLatch, hMasked]
  have hCode : (memory.pushed r.s [highByte returnTo, lowByte returnTo,
      r.pushedStatus byInstruction]).byteAt cpu.registers.pc = 0x40 := by
    rw [hRegisters]
    exact (byteAt_pushed memory hOutside).trans hHandler
  have hSlot : cpu.registers.s = r.s - 3 := by rw [hRegisters]; rfl
  rw [step_interruptReturn hFree hSlot hCode, wordOf_lowByte_highByte, hRegisters]
  have hStatus := loadStatus_pushedStatus hRegular byInstruction (r.entering target)
  have hRestored : { (r.entering target).loadStatus (r.pushedStatus byInstruction) with
      s := r.s, pc := returnTo } = { r with pc := returnTo } :=
    congrArg (fun p => { r with pc := returnTo, p := p }) hStatus
  rw [hRestored]

theorem resumes_after_interrupt {cpu : Cpu} {memory : FlatMemory} {vector : UInt16}
    (hRegular : cpu.registers.Regular) (hPending : cpu.pending? = some vector)
    (hHandler : memory.byteAt (memory.wordAt vector) = 0x40)
    (hOutside : memory.wordAt vector ∉ freeSlots cpu.registers.s 3) (level : Bool) :
    cpu.Resumes memory (·.setIrq level) 3 13 cpu.registers := by
  have hEnter := step_interrupt hPending memory
  have hReturn := return_from_interrupt ((cpu.entered (memory.wordAt vector)).setIrq level)
    cpu.registers.pc false hRegular rfl rfl hHandler hOutside
  exact resumes_of_pushed hEnter hReturn rfl (Nat.add_assoc _ _ _) rfl

theorem resumes_after_softwareInterrupt {cpu : Cpu} {memory : FlatMemory}
    (hRegular : cpu.registers.Regular) (hFree : cpu.pending? = none)
    (hCode : memory.byteAt cpu.registers.pc = 0x00)
    (hHandler : memory.byteAt (memory.wordAt irqVector) = 0x40)
    (hOutside : memory.wordAt irqVector ∉ freeSlots cpu.registers.s 3) (level : Bool) :
    cpu.Resumes memory (·.setIrq level) 3 13
      { cpu.registers with pc := cpu.registers.pc + 2 } := by
  have hEnter := step_softwareInterrupt hFree hCode
  have hLatch : cpu.nmiLatched = false := (pending?_eq_none_iff.1 hFree).1
  have hReturn := return_from_interrupt
    ((cpu.spend 7 (cpu.registers.entering (memory.wordAt irqVector))).setIrq level)
    (cpu.registers.pc + 2) true hRegular rfl hLatch hHandler hOutside
  exact resumes_of_pushed hEnter hReturn rfl (Nat.add_assoc _ _ _) rfl

theorem resumes_after_call {cpu : Cpu} {memory : FlatMemory} (hFree : cpu.pending? = none)
    (hCode : memory.byteAt cpu.registers.pc = 0x20)
    (hRoutine : memory.byteAt (memory.wordAt (cpu.registers.pc + 1)) = 0x60)
    (hOutside : memory.wordAt (cpu.registers.pc + 1) ∉ freeSlots cpu.registers.s 2) :
    cpu.Resumes memory id 2 12 { cpu.registers with pc := cpu.registers.pc + 3 } := by
  have hCall := step_call hFree hCode
  have hReturn := step_subroutineReturn
    (cpu.spend 6 { cpu.registers with
      s := cpu.registers.s - 2, pc := memory.wordAt (cpu.registers.pc + 1) })
    (lowByte (cpu.registers.pc + 2)) (highByte (cpu.registers.pc + 2))
    hFree rfl ((byteAt_pushed memory hOutside).trans hRoutine)
  have hNext : cpu.registers.pc + 2 + 1 = cpu.registers.pc + 3 := by grind
  rw [wordOf_lowByte_highByte, hNext] at hReturn
  exact resumes_of_pushed hCall hReturn rfl (Nat.add_assoc _ _ _) rfl

theorem resumes_after_pushStatus {cpu : Cpu} {memory : FlatMemory}
    (hRegular : cpu.registers.Regular) (hFree : cpu.pending? = none)
    (hCode : memory.byteAt cpu.registers.pc = 0x08)
    (hPull : memory.byteAt (cpu.registers.pc + 1) = 0x28)
    (hOutside : cpu.registers.pc + 1 ∉ freeSlots cpu.registers.s 1) :
    cpu.Resumes memory id 1 7 { cpu.registers with pc := cpu.registers.pc + 2 } := by
  have hPush := step_pushStatus hFree hCode
  have hReturn := step_pullStatus
    (cpu.spend 3 { cpu.registers.past 1 with s := cpu.registers.s - 1 })
    (cpu.registers.pushedStatus true) hFree rfl ((byteAt_pushed memory hOutside).trans hPull)
  have hStatus := loadStatus_pushedStatus hRegular true cpu.registers
  have hRestored : { cpu.registers with
      pc := cpu.registers.pc + 1 + 1
      p := (cpu.registers.loadStatus (cpu.registers.pushedStatus true)).p } =
        { cpu.registers with pc := cpu.registers.pc + 2 } := by
    rw [hStatus, add_two]
  exact resumes_of_pushed hPush hReturn rfl (Nat.add_assoc _ _ _) hRestored

/-! ### Nesting -/

theorem masked_after_entry {cpu : Cpu} {memory : FlatMemory}
    (hEnters : cpu.pending? = none → memory.byteAt cpu.registers.pc = 0x00) :
    (perform (cpu, memory) .step).1.registers.masked = true := by
  cases hPending : cpu.pending? with
  | some vector =>
    rw [perform, step_interrupt hPending]
    exact flag_setFlag_self cpu.registers .interruptDisable true
  | none =>
    rw [perform, step_softwareInterrupt hPending (hEnters hPending)]
    exact flag_setFlag_self cpu.registers .interruptDisable true

/-- How interrupts and calls nest from a state of the processor and of flat memory.  The second
instruction of each pair lies outside the slots that the first one writes. -/
structure Nests (cpu : Cpu) (memory : FlatMemory) : Prop where
  /-- An interrupt and the `RTI` at its vector. -/
  interrupt : ∀ vector level, cpu.pending? = some vector →
    memory.byteAt (memory.wordAt vector) = 0x40 →
    memory.wordAt vector ∉ freeSlots cpu.registers.s 3 →
    cpu.Resumes memory (·.setIrq level) 3 13 cpu.registers
  /-- A `BRK` and the `RTI` at its vector. -/
  softwareInterrupt : ∀ level, cpu.pending? = none → memory.byteAt cpu.registers.pc = 0x00 →
    memory.byteAt (memory.wordAt irqVector) = 0x40 →
    memory.wordAt irqVector ∉ freeSlots cpu.registers.s 3 →
    cpu.Resumes memory (·.setIrq level) 3 13 { cpu.registers with pc := cpu.registers.pc + 2 }
  /-- A `JSR` and the `RTS` it calls. -/
  call : cpu.pending? = none → memory.byteAt cpu.registers.pc = 0x20 →
    memory.byteAt (memory.wordAt (cpu.registers.pc + 1)) = 0x60 →
    memory.wordAt (cpu.registers.pc + 1) ∉ freeSlots cpu.registers.s 2 →
    cpu.Resumes memory id 2 12 { cpu.registers with pc := cpu.registers.pc + 3 }
  /-- A `PHP` and the `PLP` behind it. -/
  savedStatus : cpu.pending? = none → memory.byteAt cpu.registers.pc = 0x08 →
    memory.byteAt (cpu.registers.pc + 1) = 0x28 →
    cpu.registers.pc + 1 ∉ freeSlots cpu.registers.s 1 →
    cpu.Resumes memory id 1 7 { cpu.registers with pc := cpu.registers.pc + 2 }
  priority : vectorOf? (cpu.step.accesses memory) =
    if cpu.nmiLatched then some nmiVector
    else if cpu.irqLine && !cpu.registers.flag .interruptDisable then some irqVector
    else none
  balance : ∀ operations : List Operation,
    (events (cpu, memory) operations).countP (Event.enters nmiVector) +
        (performAll (cpu, memory) operations).1.nmiLatched.toNat =
      (events (cpu, memory) operations).countP Event.latches + cpu.nmiLatched.toNat
  /-- A step that enters an interrupt, or `BRK`, keeps maskable interrupts out; over every run
  from there none is entered until an instruction has let them in again. -/
  masks : (cpu.pending? = none → memory.byteAt cpu.registers.pc = 0x00) →
    (perform (cpu, memory) .step).1.registers.flag .interruptDisable = true ∧
    ∀ operations : List Operation,
      let later := performAll (perform (cpu, memory) .step) operations
      vectorOf? (later.1.step.accesses later.2) = some irqVector →
      ∃ event ∈ events (perform (cpu, memory) .step) operations, event.Unmasks

/-- From every regular state interrupts and calls nest, whatever the stack pointer. -/
theorem nests_of_regular (cpu : Cpu) (memory : FlatMemory) (hRegular : cpu.registers.Regular) :
    cpu.Nests memory where
  interrupt _ level hPending hHandler hOutside :=
    resumes_after_interrupt hRegular hPending hHandler hOutside level
  softwareInterrupt level hFree hCode hHandler hOutside :=
    resumes_after_softwareInterrupt hRegular hFree hCode hHandler hOutside level
  call := resumes_after_call
  savedStatus := resumes_after_pushStatus hRegular
  priority := vectorOf?_eq_pending? cpu memory
  balance := latch_balance (cpu, memory)
  masks hEnters := by
    have hMasked := masked_after_entry hEnters
    refine ⟨hMasked, ?_⟩
    intro operations later hEntry
    have hPending : later.1.pending? = some irqVector :=
      (vectorOf?_eq_pending? later.1 later.2).symm.trans hEntry
    exact unmasks_before_irq hMasked hPending

/-- A processor near the bottom of its stack with both interrupts requested. -/
def atStackBottom : Cpu :=
  ⟨{ Registers.initial with s := 1, pc := 0x8000, p := unusedMask }, 100, true, true⟩

/-- The slots wrap around and the handler returns at once, with the maskable interrupt still
requested. -/
theorem nests_of_regular_stack_bottom :
    freeSlots atStackBottom.registers.s 3 = [0x0101, 0x0100, 0x01FF] ∧
      atStackBottom.Resumes (FlatMemory.filled 0x40) (·.setIrq true) 3 13
        atStackBottom.registers := by
  have hWord : (FlatMemory.filled 0x40).wordAt nmiVector = 0x4040 := by
    rw [FlatMemory.wordAt, FlatMemory.byteAt_filled, FlatMemory.byteAt_filled]
    rfl
  have hNests := nests_of_regular atStackBottom (FlatMemory.filled 0x40) rfl
  refine ⟨by decide, hNests.interrupt nmiVector true rfl ?_ ?_⟩
  · exact FlatMemory.byteAt_filled 0x40 _
  · rw [hWord]
    decide

end Famicom.Cpu
