import Famicom.Proofs.Cpu.Driven
import Famicom.Proofs.Cpu.Fault

/-!
# Saved status bytes

The bit without a meaning and the break bit of the status byte are out of reach: no operation
switches them and a pulled byte cannot bring them in.  They differ in the copies on the stack
alone, where they tell who saved the byte.
-/

namespace Famicom.Cpu

/-! ### The bits that no flag has -/

/-- The two bits of the status byte that hold no flag. -/
def Registers.idleBits (r : Registers) : UInt8 :=
  r.p &&& (unusedMask ||| breakMask)

@[simp] theorem idleBits_setFlag (r : Registers) (f : Flag) (on : Bool) :
    (r.setFlag f on).idleBits = r.idleBits := by
  have hApart : f.mask &&& (unusedMask ||| breakMask) = 0 ∧
      ~~~f.mask &&& (unusedMask ||| breakMask) = unusedMask ||| breakMask := by
    cases f <;> decide
  exact withBits_and_other r.p on hApart.1 hApart.2

theorem idleBits_untouched : Registers.Untouched Registers.idleBits where
  put r target value := by cases target <;> rfl
  setFlag r f on _ _ := idleBits_setFlag r f on

theorem idleBits_registerOp (op : RegisterOp) (r : Registers) :
    (op.apply r).idleBits = r.idleBits := by
  cases op with
  | transfer source target => exact idleBits_untouched.load r target _
  | stackToX => exact idleBits_untouched.load r .x r.s
  | increment register => exact idleBits_untouched.load r register _
  | decrement register => exact idleBits_untouched.load r register _
  | setFlag flag on => exact idleBits_setFlag r flag on
  | xToStack => rfl
  | idle => rfl

theorem regular_loadStatus (r : Registers) (value : UInt8) : (r.loadStatus value).Regular :=
  forall_byte (p := fun value => (value ||| unusedMask) &&& ~~~breakMask &&&
    (unusedMask ||| breakMask) = unusedMask) (by decide +kernel) value

theorem regular_of_idleBits {r next : Registers} (h : r.Regular)
    (hKept : next.idleBits = r.idleBits) : next.Regular :=
  hKept.trans h

theorem Instruction.Runs.regular {instruction : Instruction} {r next : Registers}
    {log : List Access} {extra : Nat} (runs : instruction.Runs r log extra next)
    (h : r.Regular) : next.Regular := by
  cases runs with
  | read op value found => exact regular_of_idleBits h (idleBits_untouched.readOp _ op value)
  | modify op value found => exact regular_of_idleBits h (idleBits_untouched.modifyOp _ op value)
  | modifyAccumulator op =>
    exact regular_of_idleBits h (idleBits_untouched.modifyOp (r.past 1) op r.a)
  | internal op => exact regular_of_idleBits h (idleBits_registerOp op _)
  | pullAccumulator value => exact regular_of_idleBits h (idleBits_untouched.load _ .a value)
  | pullStatus value => exact regular_loadStatus _ value
  | interruptReturn status low high => exact regular_loadStatus r status
  | softwareInterrupt low high =>
    exact regular_of_idleBits h (idleBits_setFlag r .interruptDisable true)
  | _ => exact h

/-! ### Driven runs -/

variable {β : Type} [Bus β]

theorem regular_reset (bus : β) : (reset.run bus).1.registers.Regular := by
  show Registers.initial.Regular
  rfl

theorem regular_perform {state : Cpu × β} (h : state.1.registers.Regular)
    (operation : Operation) : (perform state operation).1.registers.Regular := by
  cases operation with
  | nmi => exact h
  | irq level => exact h
  | step =>
    obtain ⟨log, result, hSteps, -, hNext⟩ := perform_step state
    rw [hNext]
    cases hSteps with
    | interrupt low high pending =>
      exact regular_of_idleBits h (idleBits_setFlag state.1.registers .interruptDisable true)
    | instruction free decoded runs => exact runs.regular h
    | jam free jams => exact h
    | unsupported free unknown => exact h

theorem regular_performAll {state : Cpu × β} (h : state.1.registers.Regular)
    (operations : List Operation) : (performAll state operations).1.registers.Regular := by
  induction operations generalizing state with
  | nil => exact h
  | cons operation rest ih => exact ih (regular_perform h operation)

/-! ### Pushed copies -/

theorem pushedStatus_instruction (r : Registers) : r.pushedStatus true = r.p ||| 0x30 :=
  UInt8.or_assoc r.p unusedMask breakMask

theorem pushedStatus_interrupt {r : Registers} (h : r.Regular) : r.pushedStatus false = r.p :=
  forall_byte (p := fun p => p &&& (unusedMask ||| breakMask) = unusedMask →
    (p ||| unusedMask) &&& ~~~breakMask = p) (by decide +kernel) r.p h

/-! ### Steps that save the status byte -/

theorem Steps.of_pending {cpu : Cpu} {log : List Access} {result : Except Fault (Nat × Cpu)}
    {vector : UInt16} (h : cpu.Steps log result) (hPending : cpu.pending? = some vector) :
    ∃ low high, log = pushes cpu.registers.s [highByte cpu.registers.pc,
        lowByte cpu.registers.pc, cpu.registers.pushedStatus false] ++
          [.read vector low, .read (vector + 1) high] ∧
      result = .ok (interruptCycles, cpu.entered (wordOf low high)) := by
  cases h with
  | interrupt low high pending =>
    obtain rfl := Option.some.inj (pending.symm.trans hPending)
    exact ⟨low, high, rfl, rfl⟩
  | instruction free decoded runs => cases free.symm.trans hPending
  | jam free jams => cases free.symm.trans hPending
  | unsupported free unknown => cases free.symm.trans hPending

theorem carryOut_pushStatus (cpu : Cpu) (bus : β) {code : UInt8} {base : Nat}
    (h : Opcode.ofByte code = .timed .pushStatus base) :
    (cpu.carryOut code).accesses bus =
        pushes cpu.registers.s [cpu.registers.pushedStatus true] ∧
      ((cpu.carryOut code).run bus).1 =
        .ok (base, cpu.spend base { cpu.registers.past 1 with s := cpu.registers.s - 1 }) := by
  obtain ⟨extra, next, hRuns, hResult⟩ := cpu.carryOut_runs bus h
  generalize (cpu.carryOut code).accesses bus = rest at hRuns
  cases hRuns with
  | pushStatus => exact ⟨rfl, hResult⟩

theorem carryOut_softwareInterrupt (cpu : Cpu) (bus : β) {code : UInt8} {base : Nat}
    (h : Opcode.ofByte code = .timed .softwareInterrupt base) :
    ∃ low high, (cpu.carryOut code).accesses bus = pushes cpu.registers.s
        [highByte (cpu.registers.pc + 2), lowByte (cpu.registers.pc + 2),
          cpu.registers.pushedStatus true] ++
            [.read irqVector low, .read (irqVector + 1) high] ∧
      ((cpu.carryOut code).run bus).1 =
        .ok (base, cpu.spend base (cpu.registers.entering (wordOf low high))) := by
  obtain ⟨extra, next, hRuns, hResult⟩ := cpu.carryOut_runs bus h
  generalize (cpu.carryOut code).accesses bus = rest at hRuns
  cases hRuns with
  | softwareInterrupt low high => exact ⟨low, high, rfl, hResult⟩

/-- The status bytes that a step pushes, by its accesses. -/
structure SavesStatus (cpu : Cpu) (log : List Access) : Prop where
  /-- The entry of an interrupt saves the status byte itself, behind the return address. -/
  interrupt : ∀ vector, cpu.pending? = some vector → ∃ low high,
    log = pushes cpu.registers.s
        [highByte cpu.registers.pc, lowByte cpu.registers.pc, cpu.registers.p] ++
      [.read vector low, .read (vector + 1) high]
  /-- `PHP` and `BRK` save it with both bits on, `BRK` behind its return address. -/
  instruction : cpu.pending? = none → ∃ code rest,
    log = .read cpu.registers.pc code :: rest ∧
    (∀ base, Opcode.ofByte code = .timed .pushStatus base →
      rest = pushes cpu.registers.s [cpu.registers.p ||| 0x30]) ∧
    (∀ base, Opcode.ofByte code = .timed .softwareInterrupt base → ∃ low high,
      rest = pushes cpu.registers.s [highByte (cpu.registers.pc + 2),
          lowByte (cpu.registers.pc + 2), cpu.registers.p ||| 0x30] ++
        [.read irqVector low, .read (irqVector + 1) high])

theorem savesStatus_step {cpu : Cpu} (hRegular : cpu.registers.Regular) (bus : β) :
    cpu.SavesStatus (cpu.step.accesses bus) where
  interrupt vector hPending := by
    obtain ⟨low, high, hLog, -⟩ := ((step_shows cpu).run bus).of_pending hPending
    rw [pushedStatus_interrupt hRegular] at hLog
    exact ⟨low, high, hLog⟩
  instruction hFree := by
    rw [step_fetches hFree]
    refine ⟨_, _, rfl, ?_, ?_⟩
    · intro base hCode
      rw [(cpu.carryOut_pushStatus _ hCode).1, pushedStatus_instruction]
    · intro base hCode
      obtain ⟨low, high, hLog, -⟩ :=
        cpu.carryOut_softwareInterrupt (Bus.read bus cpu.registers.pc).2 hCode
      rw [pushedStatus_instruction] at hLog
      exact ⟨low, high, hLog⟩

structure StatusHolds (state : Cpu × β) : Prop where
  /-- `U` is on and `B` is off. -/
  regular : state.1.registers.Regular
  saved : state.1.SavesStatus (state.1.step.accesses state.2)

theorem statusHolds_after_reset (bus : β) (operations : List Operation) :
    StatusHolds (performAll (reset.run bus) operations) :=
  have hRegular := regular_performAll (regular_reset bus) operations
  ⟨hRegular, savesStatus_step hRegular _⟩

end Famicom.Cpu
