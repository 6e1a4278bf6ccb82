import Famicom.Proofs.Checked.Arithmetic
import Famicom.Proofs.Cpu.Cost

/-!
# Checked processor

An instruction with its sums and shifts checked is a computation on the bus that may end without a
result.  Addresses and registers wrap around by design and are not checked.  Whatever the reads are
answered with, no step is refused: it makes the accesses of the plain step and gives its result.
-/

namespace Famicom.Cpu

open Checked

/-! ### Computations that may be refused -/

def check {α : Type} (x : Option α) : OptionT BusM α :=
  OptionT.mk (pure x)

theorem check_then {α γ : Type} {x : Option α} {a : α} (h : x = some a) (g : α → OptionT BusM γ) :
    (check x >>= g) = g a := by
  rw [h]
  rfl

/-- A computation that is never refused goes on as the plain one does, given what is known of its
result. -/
theorem lift_then_of_shows {α γ : Type} {m : BusM α} {P : α → Prop}
    (hm : m.Shows fun _ a => P a) {f : α → BusM γ} {g : α → OptionT BusM γ}
    (h : ∀ a, P a → g a = OptionT.lift (f a)) :
    (OptionT.lift m >>= g) = OptionT.lift (m >>= f) := by
  induction m with
  | done value => exact h value hm
  | read address next ih => exact congrArg (BusM.read address) (funext fun b => ih b (hm b))
  | write address value next ih => exact congrArg (BusM.write address value) (ih hm)

theorem lift_then {α γ : Type} {m : BusM α} {f : α → BusM γ} {g : α → OptionT BusM γ}
    (h : ∀ a, g a = OptionT.lift (f a)) : (OptionT.lift m >>= g) = OptionT.lift (m >>= f) :=
  lift_then_of_shows m.shows_true fun a _ => h a

/-! ### Operations -/

def Registers.add? (r : Registers) (value : UInt8) : Option Registers := do
  let operands ← Checked.add .word r.a.toNat value.toNat
  let sum ← Checked.add .word operands (bitOf (r.flag .carry)).toNat
  let result := sum.toUInt8
  let r1 := r.setFlag .carry (decide (0xFF < sum))
  let r2 := r1.setFlag .overflow (anyBit (~~~(r.a ^^^ value) &&& (r.a ^^^ result)) 0x80)
  return r2.load .a result

def ReadOp.applied? (op : ReadOp) (value : UInt8) (r : Registers) : Option Registers :=
  match op with
  | .add => r.add? value
  | .subtract => r.add? (~~~value)
  | op => some (op.apply value r)

def ModifyOp.result? (op : ModifyOp) (value : UInt8) (carry : Bool) : Option UInt8 :=
  match op with
  | .increment => some (value + 1)
  | .decrement => some (value - 1)
  | .shiftLeft => shiftUp value 1
  | .shiftRight => shiftDown value 1
  | .rotateLeft => do return (← shiftUp value 1) ||| bitOf carry
  | .rotateRight => do return (← shiftDown value 1) ||| (← shiftUp (bitOf carry) 7)

def ModifyOp.applied? (op : ModifyOp) (value : UInt8) (r : Registers) :
    Option (UInt8 × Registers) := do
  let result ← op.result? value (r.flag .carry)
  let shifted :=
    match op.carryOut value with
    | some carry => r.setFlag .carry carry
    | none => r
  return (result, shifted.noteResult result)

theorem Registers.add?_eq (r : Registers) (value : UInt8) : r.add? value = some (r.add value) := by
  have hA := r.a.toNat_lt
  have hValue := value.toNat_lt
  have hCarry : (bitOf (r.flag .carry)).toNat ≤ 1 := by
    cases r.flag .carry <;> decide
  rw [add?, bind_eq (add_word (by omega)), bind_eq (add_word (by omega))]
  rfl

theorem ReadOp.applied?_eq (op : ReadOp) (value : UInt8) (r : Registers) :
    op.applied? value r = some (op.apply value r) := by
  cases op with
  | add => exact r.add?_eq value
  | subtract => exact r.add?_eq (~~~value)
  | _ => rfl

theorem ModifyOp.result?_eq (op : ModifyOp) (value : UInt8) (carry : Bool) :
    op.result? value carry = some (op.result value carry) := by
  cases op with
  | increment => rfl
  | decrement => rfl
  | shiftLeft => exact shiftUp_eq value (by decide)
  | shiftRight => exact shiftDown_eq value (by decide)
  | rotateLeft => exact bind_eq (shiftUp_eq value (by decide)) _
  | rotateRight =>
    rw [result?, bind_eq (shiftDown_eq value (by decide)), bind_eq (shiftUp_eq _ (by decide))]
    rfl

theorem ModifyOp.applied?_eq (op : ModifyOp) (value : UInt8) (r : Registers) :
    op.applied? value r = some (op.apply value r) :=
  bind_eq (op.result?_eq value _) _

/-! ### Instructions -/

def pushWord? (r : Registers) (value : UInt16) : OptionT BusM Registers := do
  let high ← check (shr .word value.toNat 8)
  let r ← OptionT.lift (push r high.toUInt8)
  OptionT.lift (push r (lowByte value))

def enterInterrupt? (r : Registers) (returnTo : UInt16) (byInstruction : Bool) (vector : UInt16) :
    OptionT BusM Registers := do
  let status := r.pushedStatus byInstruction
  let r ← pushWord? r returnTo
  let r ← OptionT.lift (push r status)
  let target ← OptionT.lift (readWord vector)
  return { r.setFlag .interruptDisable true with pc := target }

/-- Executes an instruction from behind its opcode.  Those that only move bytes and addresses have
nothing to check. -/
def Instruction.execute? (instruction : Instruction) (r : Registers) :
    OptionT BusM (Nat × Registers) :=
  match instruction with
  | .read op mode => do
    let operand ← OptionT.lift (mode.locate r)
    let value ← OptionT.lift (BusM.get operand.address)
    let r ← check (op.applied? value operand.registers)
    return (if operand.crossed then 1 else 0, r)
  | .modify op mode => do
    let operand ← OptionT.lift (mode.locate r)
    let value ← OptionT.lift (BusM.get operand.address)
    let modified ← check (op.applied? value operand.registers)
    OptionT.lift (BusM.put operand.address modified.1)
    return (0, modified.2)
  | .modifyAccumulator op => do
    let modified ← check (op.applied? r.a r)
    return (0, { modified.2 with a := modified.1 })
  | .call => do
    let fetched ← OptionT.lift (fetchWord r)
    let r ← pushWord? fetched.2 (fetched.2.pc - 1)
    return (0, { r with pc := fetched.1 })
  | .softwareInterrupt => do
    let r ← enterInterrupt? r (r.pc + 1) true irqVector
    return (0, r)
  | instruction => OptionT.lift (instruction.execute r)

theorem pushWord?_eq (r : Registers) (value : UInt16) :
    pushWord? r value = OptionT.lift (pushWord r value) := by
  have hHigh : (value.toNat / 2 ^ 8).toUInt8 = highByte value := by
    apply UInt8.toNat_inj.1
    simp [highByte]
  rw [pushWord?, check_then (shr_word (by decide)), hHigh]
  exact lift_then fun r => rfl

theorem enterInterrupt?_eq (r : Registers) (returnTo : UInt16) (byInstruction : Bool)
    (vector : UInt16) : enterInterrupt? r returnTo byInstruction vector =
      OptionT.lift (enterInterrupt r returnTo byInstruction vector) := by
  rw [enterInterrupt?, pushWord?_eq]
  refine lift_then fun r => ?_
  refine lift_then fun r => ?_
  exact lift_then fun target => rfl

theorem Instruction.execute?_eq (instruction : Instruction) (r : Registers) :
    instruction.execute? r = OptionT.lift (instruction.execute r) := by
  cases instruction with
  | read op mode =>
    refine lift_then fun operand => ?_
    refine lift_then fun value => ?_
    exact check_then (op.applied?_eq value _) _
  | modify op mode =>
    refine lift_then fun operand => ?_
    refine lift_then fun value => ?_
    rw [check_then (op.applied?_eq value _)]
    exact lift_then fun _ => rfl
  | modifyAccumulator op => exact check_then (op.applied?_eq r.a r) _
  | call =>
    refine lift_then fun fetched => ?_
    rw [pushWord?_eq]
    exact lift_then fun r => rfl
  | softwareInterrupt =>
    rw [execute?, enterInterrupt?_eq]
    exact lift_then fun r => rfl
  | _ => rfl

/-! ### Steps -/

def interrupt? (cpu : Cpu) (vector : UInt16) : OptionT BusM (Nat × Cpu) := do
  let r ← enterInterrupt? cpu.registers cpu.registers.pc false vector
  return (interruptCycles, cpu.spend interruptCycles r)

def runInstruction? (cpu : Cpu) : OptionT BusM (Except Fault (Nat × Cpu)) := do
  let fetched ← OptionT.lift (fetch cpu.registers)
  match Opcode.ofByte fetched.1 with
  | .timed instruction base =>
    let executed ← instruction.execute? fetched.2
    let cycles ← check (add .double base executed.1)
    return .ok (cycles, cpu.spend cycles executed.2)
  | .jam => return .error (.jam fetched.1 cpu.registers.pc)
  | .unsupported => return .error (.unsupported fetched.1 cpu.registers.pc)

def step? (cpu : Cpu) : OptionT BusM (Except Fault (Nat × Cpu)) :=
  if cpu.nmiLatched then do
    let entered ← { cpu with nmiLatched := false }.interrupt? nmiVector
    return .ok entered
  else if cpu.irqLine && !cpu.registers.flag .interruptDisable then do
    let entered ← cpu.interrupt? irqVector
    return .ok entered
  else
    cpu.runInstruction?

theorem interrupt?_eq (cpu : Cpu) (vector : UInt16) :
    cpu.interrupt? vector = OptionT.lift (cpu.interrupt vector) := by
  rw [interrupt?, enterInterrupt?_eq]
  exact lift_then fun r => rfl

theorem runInstruction?_eq (cpu : Cpu) :
    cpu.runInstruction? = OptionT.lift cpu.runInstruction := by
  have hFetch : (fetch cpu.registers).Shows fun _ fetched =>
      fetched.2 = cpu.registers.past 1 := fun _ => rfl
  refine lift_then_of_shows hFetch ?_
  rintro ⟨code, _⟩ rfl
  show (match Opcode.ofByte code with
    | .timed _ _ => _
    | .jam => _
    | .unsupported => _) = OptionT.lift (match Opcode.ofByte code with
    | .timed _ _ => _
    | .jam => _
    | .unsupported => _)
  split
  · rename_i instruction base hCode
    have hMost := (cycles_of_ofByte hCode).2
    rw [Instruction.execute?_eq]
    refine lift_then_of_shows (P := fun result => result.1 ≤ instruction.maxSurcharge)
      ((execute_shows instruction cpu.registers).mono fun _ _ hRuns => hRuns.surcharge.le) ?_
    intro executed hExtra
    exact check_then (add_double (by omega)) _
  · rfl
  · rfl

/-- No step of the processor is refused, whatever the reads are answered with. -/
theorem step?_eq (cpu : Cpu) : cpu.step? = OptionT.lift cpu.step := by
  unfold step? step
  split
  · rw [interrupt?_eq]
    exact lift_then fun entered => rfl
  · split
    · rw [interrupt?_eq]
      exact lift_then fun entered => rfl
    · exact runInstruction?_eq cpu

end Famicom.Cpu
