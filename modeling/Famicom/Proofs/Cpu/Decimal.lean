import Famicom.Proofs.Cpu.BinaryMode

/-!
# The decimal flag

Two processors that differ in the decimal flag alone ask the same of the bus in every step, take
the same cycles and are the same afterwards, but for the flag itself and its copy in a saved
status byte.  Over a run this goes on for as long as both read the same bytes.
-/

namespace Famicom.Cpu

/-! ### Accesses without the flag -/

/-- Which access of a step writes the status byte.  A step that begins with a write enters an
interrupt and saves it behind the return address. -/
def statusPlace? : List Access → Option Nat
  | .write _ _ :: _ => some 2
  | .read _ code :: _ =>
    match Opcode.ofByte code with
    | .timed instruction _ => instruction.statusPlace?
    | .jam | .unsupported => none
  | [] => none

def Access.clearDecimal : Access → Access
  | .read address value => .read address value
  | .write address value => .write address (withBits value Flag.decimal.mask false)

/-- The accesses of a step with the decimal flag off in the status byte that it pushes. -/
def hideDecimal (log : List Access) : List Access :=
  match statusPlace? log with
  | some place => log.modify place Access.clearDecimal
  | none => log

theorem saves_cases (code : UInt8) :
    (∃ base, Opcode.ofByte code = .timed .pushStatus base) ∨
      (∃ base, Opcode.ofByte code = .timed .softwareInterrupt base) ∨ SavesNothing code := by
  cases hCode : Opcode.ofByte code with
  | timed instruction base =>
    cases instruction with
    | pushStatus => exact .inl ⟨base, rfl⟩
    | softwareInterrupt => exact .inr (.inl ⟨base, rfl⟩)
    | _ =>
      refine .inr (.inr fun other cycles hOther => ?_)
      cases hCode.symm.trans hOther
      rfl
  | jam => exact .inr (.inr fun _ _ hOther => by cases hCode.symm.trans hOther)
  | unsupported => exact .inr (.inr fun _ _ hOther => by cases hCode.symm.trans hOther)

theorem statusPlace?_timed {code : UInt8} {instruction : Instruction} {base : Nat}
    (h : Opcode.ofByte code = .timed instruction base) (address : UInt16) (rest : List Access) :
    statusPlace? (.read address code :: rest) = instruction.statusPlace? := by
  rw [statusPlace?, h]

theorem hideDecimal_interrupt (s high low : UInt8) (r : Registers) (rest : List Access) :
    hideDecimal (pushes s [high, low, r.pushedStatus false] ++ rest) =
      pushes s [high, low, r.binary.pushedStatus false] ++ rest := by
  rw [← withBits_pushedStatus]
  rfl

theorem hideDecimal_pushStatus {code : UInt8} {base : Nat}
    (h : Opcode.ofByte code = .timed .pushStatus base) (address : UInt16) (r : Registers) :
    hideDecimal (.read address code :: pushes r.s [r.pushedStatus true]) =
      .read address code :: pushes r.s [r.binary.pushedStatus true] := by
  rw [hideDecimal, statusPlace?_timed h, ← withBits_pushedStatus]
  rfl

theorem hideDecimal_softwareInterrupt {code : UInt8} {base : Nat}
    (h : Opcode.ofByte code = .timed .softwareInterrupt base) (address : UInt16)
    (s high low : UInt8) (r : Registers) (rest : List Access) :
    hideDecimal (.read address code :: (pushes s [high, low, r.pushedStatus true] ++ rest)) =
      .read address code :: (pushes s [high, low, r.binary.pushedStatus true] ++ rest) := by
  rw [hideDecimal, statusPlace?_timed h, ← withBits_pushedStatus]
  rfl

/-! ### Steps of two processors -/

variable {β γ : Type} [Bus β] [Bus γ]

theorem hidden_of_pending {cpu : Cpu} {vector : UInt16} (h : cpu.pending? = some vector)
    (bus : β) : ∃ low high,
      answersOf (cpu.step.accesses bus) = [low, high] ∧
      hideDecimal (cpu.step.accesses bus) = pushes cpu.binary.registers.s
        [highByte cpu.binary.registers.pc, lowByte cpu.binary.registers.pc,
          cpu.binary.registers.pushedStatus false] ++
            [.read vector low, .read (vector + 1) high] ∧
      binaryResult (cpu.step.run bus).1 =
        .ok (interruptCycles, cpu.binary.entered (wordOf low high)) := by
  obtain ⟨low, high, hLog, hResult⟩ := ((step_shows cpu).run bus).of_pending h
  refine ⟨low, high, ?_, ?_, ?_⟩
  · rw [hLog]
    rfl
  · rw [hLog, hideDecimal_interrupt]
    rfl
  · rw [hResult, entered_binary]
    rfl

theorem hidden_of_pushStatus (cpu : Cpu) {code : UInt8} {base : Nat}
    (h : Opcode.ofByte code = .timed .pushStatus base) (address : UInt16) (bus : β) :
    hideDecimal (.read address code :: (cpu.carryOut code).accesses bus) =
        .read address code ::
          pushes cpu.binary.registers.s [cpu.binary.registers.pushedStatus true] ∧
      binaryResult ((cpu.carryOut code).run bus).1 = .ok (base, cpu.binary.spend base
        { cpu.binary.registers.past 1 with s := cpu.binary.registers.s - 1 }) := by
  obtain ⟨hLog, hResult⟩ := cpu.carryOut_pushStatus bus h
  refine ⟨?_, ?_⟩
  · rw [hLog, hideDecimal_pushStatus h]
    rfl
  · rw [hResult]
    rfl

theorem hidden_of_softwareInterrupt (cpu : Cpu) {code : UInt8} {base : Nat}
    (h : Opcode.ofByte code = .timed .softwareInterrupt base) (address : UInt16) (bus : β) :
    ∃ low high,
      answersOf ((cpu.carryOut code).accesses bus) = [low, high] ∧
      hideDecimal (.read address code :: (cpu.carryOut code).accesses bus) =
        .read address code :: (pushes cpu.binary.registers.s
          [highByte (cpu.binary.registers.pc + 2), lowByte (cpu.binary.registers.pc + 2),
            cpu.binary.registers.pushedStatus true] ++
              [.read irqVector low, .read (irqVector + 1) high]) ∧
      binaryResult ((cpu.carryOut code).run bus).1 =
        .ok (base, cpu.binary.spend base (cpu.binary.registers.entering (wordOf low high))) := by
  obtain ⟨low, high, hLog, hResult⟩ := cpu.carryOut_softwareInterrupt bus h
  refine ⟨low, high, ?_, ?_, ?_⟩
  · rw [hLog]
    rfl
  · rw [hLog, hideDecimal_softwareInterrupt h]
    rfl
  · have hEntering : cpu.binary.registers.entering (wordOf low high) =
        (cpu.registers.entering (wordOf low high)).binary := entering_binary _ _
    rw [hResult, hEntering]
    rfl

theorem pending?_alike {cpu other : Cpu} (hAlike : other.binary = cpu.binary) :
    other.pending? = cpu.pending? := by
  rw [← pending?_binary other, hAlike, pending?_binary]

theorem step_alike {cpu other : Cpu} (hAlike : other.binary = cpu.binary)
    (h : cpu.pending? = none) : other.step = .read cpu.registers.pc other.carryOut := by
  have hPc : other.registers.pc = cpu.registers.pc :=
    congrArg (fun start => start.registers.pc) hAlike
  rw [step_fetches ((pending?_alike hAlike).trans h), hPc]

theorem carryOut_alike {cpu other : Cpu} (hAlike : other.binary = cpu.binary) {code : UInt8}
    (h : SavesNothing code) :
    binaryResult <$> other.carryOut code = binaryResult <$> cpu.carryOut code := by
  rw [← other.carryOut_binary h, hAlike, cpu.carryOut_binary h]

theorem hidden_carryOut {cpu other : Cpu} (hAlike : other.binary = cpu.binary) (code : UInt8)
    (address : UInt16) {bus : β} {otherBus : γ}
    (hAnswers : answersOf ((other.carryOut code).accesses otherBus) =
      answersOf ((cpu.carryOut code).accesses bus)) :
    hideDecimal (.read address code :: (other.carryOut code).accesses otherBus) =
        hideDecimal (.read address code :: (cpu.carryOut code).accesses bus) ∧
      binaryResult ((other.carryOut code).run otherBus).1 =
        binaryResult ((cpu.carryOut code).run bus).1 := by
  obtain ⟨base, hPush⟩ | ⟨base, hBreak⟩ | hPlain := saves_cases code
  · obtain ⟨hLog, hResult⟩ := cpu.hidden_of_pushStatus hPush address bus
    obtain ⟨hLog', hResult'⟩ := other.hidden_of_pushStatus hPush address otherBus
    rw [hLog, hLog', hResult, hResult', hAlike]
    exact ⟨rfl, rfl⟩
  · obtain ⟨low, high, hRead, hLog, hResult⟩ :=
      cpu.hidden_of_softwareInterrupt hBreak address bus
    obtain ⟨low', high', hRead', hLog', hResult'⟩ :=
      other.hidden_of_softwareInterrupt hBreak address otherBus
    rw [hRead, hRead'] at hAnswers
    obtain ⟨rfl, rfl⟩ : low' = low ∧ high' = high := by simpa using hAnswers
    rw [hLog, hLog', hResult, hResult', hAlike]
    exact ⟨rfl, rfl⟩
  · -- Apart from the flag both are one computation, so the answers settle what it does.
    have hSame := carryOut_alike hAlike hPlain
    rw [BusM.accesses_of_map_eq hSame otherBus] at hAnswers ⊢
    obtain ⟨hAccesses, hResult⟩ := BusM.eq_of_answersOf hAnswers
    rw [hAccesses, (BusM.run_of_map_eq hSame otherBus).1, hResult]
    exact ⟨rfl, rfl⟩

theorem hidden_step {cpu other : Cpu} (hAlike : other.binary = cpu.binary) {bus : β}
    {otherBus : γ}
    (hAnswers : answersOf (other.step.accesses otherBus) = answersOf (cpu.step.accesses bus)) :
    hideDecimal (other.step.accesses otherBus) = hideDecimal (cpu.step.accesses bus) ∧
      binaryResult (other.step.run otherBus).1 = binaryResult (cpu.step.run bus).1 := by
  cases hVector : cpu.pending? with
  | some vector =>
    obtain ⟨low, high, hRead, hLog, hResult⟩ := hidden_of_pending hVector bus
    obtain ⟨low', high', hRead', hLog', hResult'⟩ :=
      hidden_of_pending ((pending?_alike hAlike).trans hVector) otherBus
    rw [hRead, hRead'] at hAnswers
    obtain ⟨rfl, rfl⟩ : low' = low ∧ high' = high := by simpa using hAnswers
    rw [hLog, hLog', hResult, hResult', hAlike]
    exact ⟨rfl, rfl⟩
  | none =>
    rw [step_fetches hVector, step_alike hAlike hVector] at hAnswers ⊢
    simp only [BusM.accesses, answersOf_read, List.cons.injEq] at hAnswers
    obtain ⟨hCode, hRest⟩ := hAnswers
    simp only [BusM.accesses, BusM.run]
    rw [hCode] at hRest ⊢
    exact hidden_carryOut hAlike _ cpu.registers.pc hRest

def Access.request : Access → UInt16 × Option UInt8
  | .read address _ => (address, none)
  | .write address value => (address, some value)

def unplacedResult (result : Except Fault (Nat × Cpu)) : Except Fault (Nat × Cpu) :=
  (binaryResult result).map fun next =>
    (next.1, { next.2 with registers := { next.2.registers with pc := 0 } })

/-- The next step of two processors on the same bus, whatever it is. -/
structure IgnoresDecimal (cpu other : Cpu) (bus : β) : Prop where
  /-- They ask the same of the bus, but for the decimal flag in a status byte that they push. -/
  requests : (hideDecimal (other.step.accesses bus)).map Access.request =
    (hideDecimal (cpu.step.accesses bus)).map Access.request
  /-- They fault alike, or take the same cycles and have the same registers afterwards, but for
  the decimal flag and a program counter that was read after a status byte was pushed. -/
  result : unplacedResult (other.step.run bus).1 = unplacedResult (cpu.step.run bus).1
  /-- Where no status byte is pushed nothing but the flag is left apart. -/
  plain : statusPlace? (cpu.step.accesses bus) = none →
    other.step.accesses bus = cpu.step.accesses bus ∧
    binaryResult (other.step.run bus).1 = binaryResult (cpu.step.run bus).1 ∧
    (other.step.run bus).2 = (cpu.step.run bus).2

theorem IgnoresDecimal.of_plain {cpu other : Cpu} {bus : β}
    (hLog : other.step.accesses bus = cpu.step.accesses bus)
    (hResult : binaryResult (other.step.run bus).1 = binaryResult (cpu.step.run bus).1)
    (hBus : (other.step.run bus).2 = (cpu.step.run bus).2) : IgnoresDecimal cpu other bus where
  requests := by rw [hLog]
  result := by rw [unplacedResult, hResult, unplacedResult]
  plain _ := ⟨hLog, hResult, hBus⟩

theorem ignoresDecimal_of_pending {cpu other : Cpu} (hAlike : other.binary = cpu.binary)
    {vector : UInt16} (h : cpu.pending? = some vector) (bus : β) :
    IgnoresDecimal cpu other bus := by
  obtain ⟨low, high, -, hLog, hResult⟩ := hidden_of_pending h bus
  obtain ⟨low', high', -, hLog', hResult'⟩ :=
    hidden_of_pending ((pending?_alike hAlike).trans h) bus
  refine ⟨?_, ?_, fun hPlace => ?_⟩
  · rw [hLog, hLog', hAlike]
    rfl
  · rw [unplacedResult, unplacedResult, hResult, hResult', hAlike]
    rfl
  · obtain ⟨_, _, hPushes, -⟩ := ((step_shows cpu).run bus).of_pending h
    rw [hPushes] at hPlace
    cases hPlace

theorem ignoresDecimal_of_free {cpu other : Cpu} (hAlike : other.binary = cpu.binary)
    (h : cpu.pending? = none) (bus : β) : IgnoresDecimal cpu other bus := by
  generalize hFetched : Bus.read bus cpu.registers.pc = fetched
  obtain ⟨code, rest⟩ := fetched
  have hFetch {start : Cpu} (hStep : start.step = .read cpu.registers.pc start.carryOut) :
      start.step.accesses bus =
          .read cpu.registers.pc code :: (start.carryOut code).accesses rest ∧
        start.step.run bus = (start.carryOut code).run rest := by
    rw [hStep, BusM.accesses, BusM.run, hFetched]
    exact ⟨rfl, rfl⟩
  obtain ⟨hAccesses, hRun⟩ := hFetch (step_fetches h)
  obtain ⟨hAccesses', hRun'⟩ := hFetch (step_alike hAlike h)
  obtain ⟨base, hPush⟩ | ⟨base, hBreak⟩ | hPlain := saves_cases code
  · obtain ⟨hLog, hResult⟩ := cpu.hidden_of_pushStatus hPush cpu.registers.pc rest
    obtain ⟨hLog', hResult'⟩ := other.hidden_of_pushStatus hPush cpu.registers.pc rest
    refine ⟨?_, ?_, fun hPlace => ?_⟩
    · rw [hAccesses, hAccesses', hLog, hLog', hAlike]
    · rw [unplacedResult, unplacedResult, hRun, hRun', hResult, hResult', hAlike]
    · rw [hAccesses, statusPlace?_timed hPush] at hPlace
      cases hPlace
  · obtain ⟨low, high, -, hLog, hResult⟩ :=
      cpu.hidden_of_softwareInterrupt hBreak cpu.registers.pc rest
    obtain ⟨low', high', -, hLog', hResult'⟩ :=
      other.hidden_of_softwareInterrupt hBreak cpu.registers.pc rest
    refine ⟨?_, ?_, fun hPlace => ?_⟩
    · rw [hAccesses, hAccesses', hLog, hLog', hAlike]
      rfl
    · rw [unplacedResult, unplacedResult, hRun, hRun', hResult, hResult', hAlike]
      rfl
    · rw [hAccesses, statusPlace?_timed hBreak] at hPlace
      cases hPlace
  · have hSame := carryOut_alike hAlike hPlain
    obtain ⟨hResult, hBus⟩ := BusM.run_of_map_eq hSame rest
    refine .of_plain ?_ ?_ ?_
    · rw [hAccesses, hAccesses', BusM.accesses_of_map_eq hSame]
    · rw [hRun, hRun', hResult]
    · rw [hRun, hRun', hBus]

theorem ignoresDecimal_of_alike {cpu other : Cpu} (hAlike : other.binary = cpu.binary)
    (bus : β) : IgnoresDecimal cpu other bus := by
  cases hPending : cpu.pending? with
  | some vector => exact ignoresDecimal_of_pending hAlike hPending bus
  | none => exact ignoresDecimal_of_free hAlike hPending bus

/-! ### Runs of two processors -/

def Event.accesses (event : Event β) : List Access :=
  match event.operation with
  | .step => event.before.1.step.accesses event.before.2
  | .nmi | .irq _ => []

def Event.result? (event : Event β) : Option (Except Fault (Nat × Cpu)) :=
  match event.operation with
  | .step => some (event.before.1.step.run event.before.2).1
  | .nmi | .irq _ => none

def Event.answers (event : Event β) : List UInt8 :=
  answersOf event.accesses

/-- An operation as it shows without the decimal flag. -/
structure Outline where
  before : Cpu
  accesses : List Access
  result? : Option (Except Fault (Nat × Cpu))

def Event.outline (event : Event β) : Outline :=
  ⟨event.before.1.binary, hideDecimal event.accesses, event.result?.map binaryResult⟩

theorem binary_perform_step (state : Cpu × β) :
    (perform state .step).1.binary =
      match binaryResult (state.1.step.run state.2).1 with
      | .ok (_, next) => next
      | .error _ => state.1.binary := by
  rw [perform]
  generalize state.1.step.run state.2 = outcome
  obtain ⟨_ | _, bus⟩ := outcome <;> rfl

theorem outline_perform {state : Cpu × β} {other : Cpu × γ}
    (hAlike : other.1.binary = state.1.binary) (operation : Operation)
    (hAnswers : Event.answers ⟨other, operation⟩ = Event.answers ⟨state, operation⟩) :
    Event.outline ⟨other, operation⟩ = Event.outline ⟨state, operation⟩ ∧
      (perform other operation).1.binary = (perform state operation).1.binary := by
  cases operation with
  | step =>
    obtain ⟨hLog, hResult⟩ := hidden_step hAlike hAnswers
    rw [binary_perform_step, binary_perform_step, hAlike, hResult]
    refine ⟨?_, rfl⟩
    show Outline.mk _ _ (some _) = Outline.mk _ _ (some _)
    rw [hAlike, hResult]
    exact congrArg (fun log => Outline.mk _ log _) hLog
  | nmi =>
    refine ⟨congrArg (fun start => Outline.mk start [] none) hAlike, ?_⟩
    exact congrArg latchNmi hAlike
  | irq level =>
    refine ⟨congrArg (fun start => Outline.mk start [] none) hAlike, ?_⟩
    exact congrArg (fun start => start.setIrq level) hAlike

theorem outline_performAll {state : Cpu × β} {other : Cpu × γ}
    (hAlike : other.1.binary = state.1.binary) {operations : List Operation}
    (hAnswers : (events other operations).map Event.answers =
      (events state operations).map Event.answers) :
    (events other operations).map Event.outline = (events state operations).map Event.outline ∧
      (performAll other operations).1.binary = (performAll state operations).1.binary := by
  -- The answers are compared operation by operation, so each induction step takes its own share.
  induction operations generalizing state other with
  | nil => exact ⟨rfl, hAlike⟩
  | cons operation rest ih =>
    obtain ⟨hFirst, hRest⟩ := List.cons.inj hAnswers
    obtain ⟨hOutline, hNext⟩ := outline_perform hAlike operation hFirst
    obtain ⟨hOutlines, hLast⟩ := ih hNext hRest
    exact ⟨congrArg₂ List.cons hOutline hOutlines, hLast⟩

/-- After a reset, whatever the bus answers and however steps and interrupts come, the status byte
keeps the bit without a meaning on and the break bit off, and its saved copies are as documented.
The decimal flag shows in those copies alone: of every processor, on every bus, step by step, and
over every two runs that read the same bytes. -/
theorem status_regular_decimal_inert (bus : β) (operations : List Operation) :
    StatusHolds (performAll (reset.run bus) operations) ∧
    ∀ (cpu : Cpu) (on : Bool), IgnoresDecimal cpu (cpu.setDecimal on) bus ∧
      ∀ other : γ,
        (events (cpu.setDecimal on, other) operations).map Event.answers =
          (events (cpu, bus) operations).map Event.answers →
        (events (cpu.setDecimal on, other) operations).map Event.outline =
          (events (cpu, bus) operations).map Event.outline ∧
        (performAll (cpu.setDecimal on, other) operations).1.binary =
          (performAll (cpu, bus) operations).1.binary := by
  refine ⟨statusHolds_after_reset bus operations, ?_⟩
  intro cpu on
  have hAlike := binary_setDecimal cpu on
  refine ⟨ignoresDecimal_of_alike hAlike bus, ?_⟩
  intro other hAnswers
  exact outline_performAll hAlike hAnswers

/-- Memory that answers from a fixed table and drops what is written. -/
structure FixedMemory where
  byteAt : UInt16 → UInt8

instance : Bus FixedMemory where
  read memory address := (memory.byteAt address, memory)
  write memory _ _ := memory

/-- `PHP` and `ADC #$01`, and a handler that begins with `BRK`. -/
def savingProgram : FixedMemory where
  byteAt address :=
    match address.toNat with
    | 0x8000 => 0x08
    | 0x8001 => 0x69
    | 0x8002 => 0x01
    | 0xFFFB => 0x90
    | _ => 0x00

/-- Nine and one are ten in both modes, and all three ways to save the status byte are taken. -/
theorem status_regular_decimal_inert_sum :
    let start : Cpu := ⟨{ Registers.initial with a := 0x09, pc := 0x8000 }, 7, false, false⟩
    let operations : List Operation := [.step, .step, .nmi, .step, .step]
    (events (start.setDecimal true, savingProgram) operations).map Event.answers =
        (events (start, savingProgram) operations).map Event.answers ∧
      (events (start.setDecimal true, savingProgram) operations).map Event.outline =
        (events (start, savingProgram) operations).map Event.outline ∧
      (performAll (start.setDecimal true, savingProgram) operations).1.registers.a = 0x0A := by
  intro start operations
  have hAnswers : (events (start.setDecimal true, savingProgram) operations).map Event.answers =
      (events (start, savingProgram) operations).map Event.answers := by
    decide
  have hInert :=
    (status_regular_decimal_inert (γ := FixedMemory) savingProgram operations).2 start true
  refine ⟨hAnswers, (hInert.2 savingProgram hAnswers).1, ?_⟩
  decide

end Famicom.Cpu
