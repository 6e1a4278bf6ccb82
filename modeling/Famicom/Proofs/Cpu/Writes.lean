import Famicom.Proofs.Cpu.Rules

/-!
# The writes of a step

What a step writes follows from what it executes: a store writes its register and a modification
the byte just read, each once; calls, interrupts and the instructions that save a register push;
nothing else writes.  The stack pointer moves by the bytes pushed or pulled.
-/

namespace Famicom.Cpu

/-! ### What operations leave alone -/

@[simp] theorem Registers.load_s (r : Registers) (target : Register) (value : UInt8) :
    (r.load target value).s = r.s := by
  cases target <;> rfl

@[simp] theorem Registers.load_pc (r : Registers) (target : Register) (value : UInt8) :
    (r.load target value).pc = r.pc := by
  cases target <;> rfl

@[simp] theorem ReadOp.apply_s (op : ReadOp) (value : UInt8) (r : Registers) :
    (op.apply value r).s = r.s := by
  cases op with
  | load target => exact r.load_s target value
  | _ => rfl

@[simp] theorem ReadOp.apply_pc (op : ReadOp) (value : UInt8) (r : Registers) :
    (op.apply value r).pc = r.pc := by
  cases op with
  | load target => exact r.load_pc target value
  | _ => rfl

@[simp] theorem ModifyOp.apply_s (op : ModifyOp) (value : UInt8) (r : Registers) :
    (op.apply value r).2.s = r.s := by
  cases op <;> rfl

@[simp] theorem ModifyOp.apply_pc (op : ModifyOp) (value : UInt8) (r : Registers) :
    (op.apply value r).2.pc = r.pc := by
  cases op <;> rfl

@[simp] theorem ModifyOp.apply_x (op : ModifyOp) (value : UInt8) (r : Registers) :
    (op.apply value r).2.x = r.x := by
  cases op <;> rfl

@[simp] theorem RegisterOp.apply_pc (op : RegisterOp) (r : Registers) :
    (op.apply r).pc = r.pc := by
  cases op with
  | transfer source target => exact r.load_pc target _
  | increment register => exact r.load_pc register _
  | decrement register => exact r.load_pc register _
  | _ => rfl

/-! ### Writes of a transcript -/

def targetsOf (log : List Access) : List (UInt16 × UInt8) :=
  log.filterMap Access.write?

/-- Some bytes with the slots that they are pushed to, from a stack pointer down. -/
def stacked : UInt8 → List UInt8 → List (UInt16 × UInt8)
  | _, [] => []
  | s, value :: rest => (Registers.stackSlot s, value) :: stacked (s - 1) rest

theorem targetsOf_append (first second : List Access) :
    targetsOf (first ++ second) = targetsOf first ++ targetsOf second :=
  List.filterMap_append

theorem targetsOf_pushes (s : UInt8) (values : List UInt8) :
    targetsOf (pushes s values) = stacked s values := by
  induction values generalizing s with
  | nil => rfl
  | cons value rest ih => exact congrArg ((Registers.stackSlot s, value) :: ·) (ih (s - 1))

theorem Mode.Finds.targetsOf_eq {mode : Mode} {r : Registers} {reads : List Access}
    {base address : UInt16} (h : mode.Finds r reads base address) : targetsOf reads = [] := by
  cases h <;> rfl

/-! ### Instructions -/

/-- What an instruction writes, by its accesses behind the opcode, and the stack pointer after
it. -/
def Instruction.Writes (r : Registers) (log : List Access) (targets : List (UInt16 × UInt8))
    (s : UInt8) : Instruction → Prop
  | .store register mode => s = r.s ∧ ∃ reads base address, mode.Finds r reads base address ∧
      log = reads ++ [.write address (r.get register)] ∧ targets = [(address, r.get register)]
  | .modify op mode => s = r.s ∧ ∃ reads base address value, mode.Finds r reads base address ∧
      log = reads ++ [.read address value, .write address (op.result value (r.flag .carry))] ∧
      targets = [(address, op.result value (r.flag .carry))]
  | .pushAccumulator => s = r.s - 1 ∧ targets = [(Registers.stackSlot r.s, r.a)]
  | .pushStatus => s = r.s - 1 ∧ targets = [(Registers.stackSlot r.s, r.pushedStatus true)]
  | .call => s = r.s - 2 ∧ targets =
      [(Registers.stackSlot r.s, highByte (r.pc + 2)),
        (Registers.stackSlot (r.s - 1), lowByte (r.pc + 2))]
  | .softwareInterrupt => s = r.s - 3 ∧ targets =
      [(Registers.stackSlot r.s, highByte (r.pc + 2)),
        (Registers.stackSlot (r.s - 1), lowByte (r.pc + 2)),
        (Registers.stackSlot (r.s - 2), r.pushedStatus true)]
  | .pullAccumulator => s = r.s + 1 ∧ targets = []
  | .pullStatus => s = r.s + 1 ∧ targets = []
  | .subroutineReturn => s = r.s + 2 ∧ targets = []
  | .interruptReturn => s = r.s + 3 ∧ targets = []
  | .internal .xToStack => s = r.x ∧ targets = []
  | _ => s = r.s ∧ targets = []

theorem stacked_three (s a b c : UInt8) : stacked s [a, b, c] =
    [(Registers.stackSlot s, a), (Registers.stackSlot (s - 1), b),
      (Registers.stackSlot (s - 2), c)] := by
  have hDown : s - 1 - 1 = s - 2 := by grind
  rw [← hDown]
  rfl

theorem Instruction.Runs.writes {instruction : Instruction} {r next : Registers}
    {log : List Access} {extra : Nat} (h : instruction.Runs r log extra next) :
    instruction.Writes r log (targetsOf log) next.s := by
  cases h with
  | read op value found =>
    refine ⟨op.apply_s value _, ?_⟩
    rw [targetsOf_append, found.targetsOf_eq]
    rfl
  | store register found =>
    refine ⟨rfl, _, _, _, found, rfl, ?_⟩
    rw [targetsOf_append, found.targetsOf_eq]
    rfl
  | modify op value found =>
    refine ⟨op.apply_s value _, _, _, _, value, found, rfl, ?_⟩
    rw [targetsOf_append, found.targetsOf_eq]
    rfl
  | modifyAccumulator op => exact ⟨op.apply_s r.a _, rfl⟩
  | internal op =>
    cases op with
    | transfer source target => exact ⟨Registers.load_s _ target _, rfl⟩
    | increment register => exact ⟨Registers.load_s _ register _, rfl⟩
    | decrement register => exact ⟨Registers.load_s _ register _, rfl⟩
    | _ => exact ⟨rfl, rfl⟩
  | pushAccumulator => exact ⟨rfl, rfl⟩
  | pushStatus => exact ⟨rfl, rfl⟩
  | pullAccumulator value => exact ⟨rfl, rfl⟩
  | pullStatus value => exact ⟨rfl, rfl⟩
  | branchTaken offset taken => exact ⟨rfl, rfl⟩
  | branchPassed offset passed => exact ⟨rfl, rfl⟩
  | jump low high => exact ⟨rfl, rfl⟩
  | jumpIndirect low high targetLow targetHigh => exact ⟨rfl, rfl⟩
  | call low high => exact ⟨rfl, rfl⟩
  | subroutineReturn low high => exact ⟨rfl, rfl⟩
  | interruptReturn status low high => exact ⟨rfl, rfl⟩
  | softwareInterrupt low high =>
    refine ⟨rfl, ?_⟩
    rw [targetsOf_append, targetsOf_pushes, stacked_three]
    rfl

/-! ### Steps -/

structure Written (cpu : Cpu) (log : List Access) (targets : List (UInt16 × UInt8))
    (result : Except Fault (Nat × Cpu)) : Prop where
  interrupt : cpu.pending? ≠ none → ∃ cycles next, result = .ok (cycles, next) ∧
    next.registers.s = cpu.registers.s - 3 ∧ targets =
      [(Registers.stackSlot cpu.registers.s, highByte cpu.registers.pc),
        (Registers.stackSlot (cpu.registers.s - 1), lowByte cpu.registers.pc),
        (Registers.stackSlot (cpu.registers.s - 2), cpu.registers.pushedStatus false)]
  instruction : cpu.pending? = none → ∃ code rest, log = .read cpu.registers.pc code :: rest ∧
    match Opcode.ofByte code with
    | .timed instruction _ => ∃ cycles next, result = .ok (cycles, next) ∧
        instruction.Writes cpu.registers rest targets next.registers.s
    | _ => targets = [] ∧ ∃ fault, result = .error fault
  /-- All writes are pushes, or there is at most one. -/
  single : (∃ values cycles next, result = .ok (cycles, next) ∧
      targets = stacked cpu.registers.s values ∧
      next.registers.s = cpu.registers.s - UInt8.ofNat values.length) ∨ targets.length ≤ 1

theorem Instruction.Writes.single {instruction : Instruction} {r : Registers} {log : List Access}
    {targets : List (UInt16 × UInt8)} {s : UInt8} (h : instruction.Writes r log targets s) :
    (∃ values, targets = stacked r.s values ∧ s = r.s - UInt8.ofNat values.length) ∨
      targets.length ≤ 1 := by
  cases instruction with
  | call => exact .inl ⟨[highByte (r.pc + 2), lowByte (r.pc + 2)], h.2, h.1⟩
  | softwareInterrupt =>
    refine .inl ⟨[highByte (r.pc + 2), lowByte (r.pc + 2), r.pushedStatus true], ?_, h.1⟩
    rw [stacked_three]
    exact h.2
  | store register mode =>
    obtain ⟨-, reads, base, address, -, -, rfl⟩ := h
    exact .inr (Nat.le_refl 1)
  | modify op mode =>
    obtain ⟨-, reads, base, address, value, -, -, rfl⟩ := h
    exact .inr (Nat.le_refl 1)
  | pushAccumulator => exact .inl ⟨[r.a], h.2, h.1⟩
  | pushStatus => exact .inl ⟨[r.pushedStatus true], h.2, h.1⟩
  | internal op =>
    cases op with
    | xToStack => exact .inr (h.2 ▸ Nat.zero_le 1)
    | _ => exact .inr (h.2 ▸ Nat.zero_le 1)
  | _ => exact .inr (h.2 ▸ Nat.zero_le 1)

theorem Steps.written {cpu : Cpu} {log : List Access} {result : Except Fault (Nat × Cpu)}
    (h : cpu.Steps log result) : cpu.Written log (targetsOf log) result := by
  cases h with
  | interrupt low high pending =>
    have hTargets (vector : UInt16) : targetsOf (pushes cpu.registers.s
        [highByte cpu.registers.pc, lowByte cpu.registers.pc, cpu.registers.pushedStatus false] ++
          [.read vector low, .read (vector + 1) high]) = stacked cpu.registers.s
        [highByte cpu.registers.pc, lowByte cpu.registers.pc,
          cpu.registers.pushedStatus false] := by
      rw [targetsOf_append, targetsOf_pushes]
      exact List.append_nil _
    rw [hTargets]
    refine ⟨fun _ => ⟨_, _, rfl, rfl, stacked_three _ _ _ _⟩, fun hFree => ?_,
      .inl ⟨_, _, _, rfl, rfl, rfl⟩⟩
    rw [pending] at hFree
    cases hFree
  | @instruction code instruction base extra log next free decoded runs =>
    have hWrites := runs.writes
    refine ⟨fun hPending => absurd free hPending, fun _ => ⟨code, log, rfl, ?_⟩, ?_⟩
    · rw [decoded]
      exact ⟨_, _, rfl, hWrites⟩
    · rcases hWrites.single with ⟨values, hValues, hS⟩ | hOne
      · exact .inl ⟨values, _, _, rfl, hValues, hS⟩
      · exact .inr hOne
  | @jam code free jams =>
    refine ⟨fun hPending => absurd free hPending, fun _ => ⟨code, [], rfl, ?_⟩,
      .inr (Nat.zero_le 1)⟩
    rw [jams]
    exact ⟨rfl, _, rfl⟩
  | @unsupported code free unknown =>
    refine ⟨fun hPending => absurd free hPending, fun _ => ⟨code, [], rfl, ?_⟩,
      .inr (Nat.zero_le 1)⟩
    rw [unknown]
    exact ⟨rfl, _, rfl⟩

/-- The writes of a step, whatever the bus: three bytes saved by an interrupt entry, what the
instruction says, or none at all when the opcode faults; and the stack pointer moved by what was
pushed or pulled. -/
theorem step_writes_exactly {β : Type} [Bus β] (cpu : Cpu) (bus : β) :
    cpu.Written (cpu.step.accesses bus) ((cpu.step.writes bus).map Write.target)
      (cpu.step.run bus).1 := by
  have hSteps := (step_shows cpu).run bus
  rw [← BusM.accesses_write?]
  exact hSteps.written

end Famicom.Cpu
