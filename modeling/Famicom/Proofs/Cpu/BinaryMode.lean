import Famicom.Proofs.Cpu.SavedStatus

/-!
# Binary mode

The processor with the decimal flag off.  The flag is kept, saved and restored, and no instruction
looks at it: apart from the two that save the status byte, an instruction is the same computation
in both modes and leaves the same registers behind, but for the flag.
-/

namespace Famicom.Cpu

/-! ### Registers in binary mode -/

def Registers.binary (r : Registers) : Registers :=
  r.setFlag .decimal false

section Registers

variable (r : Registers)

@[simp] theorem binary_a : r.binary.a = r.a := rfl

@[simp] theorem binary_s : r.binary.s = r.s := rfl

@[simp] theorem get_binary (register : Register) : r.binary.get register = r.get register := by
  cases register <;> rfl

@[simp] theorem put_binary (target : Register) (value : UInt8) :
    r.binary.put target value = (r.put target value).binary := by
  cases target <;> rfl

theorem binary_setFlag_decimal (on : Bool) : (r.setFlag .decimal on).binary = r.binary :=
  congrArg (fun p => { r with p := p }) (withBits_clear_self r.p Flag.decimal.mask on)

@[simp] theorem binary_binary : r.binary.binary = r.binary :=
  binary_setFlag_decimal r false

@[simp] theorem setFlag_binary {f : Flag} (h : f ≠ .decimal) (on : Bool) :
    r.binary.setFlag f on = (r.setFlag f on).binary := by
  have hApart : f.mask &&& ~~~Flag.decimal.mask = f.mask := by
    cases f <;> first | exact absurd rfl h | decide
  exact congrArg (fun p => { r with p := p }) (withBits_clear_other r.p on hApart).symm

@[simp] theorem flag_binary {f : Flag} (h : f ≠ .decimal) : r.binary.flag f = r.flag f :=
  flag_setFlag_of_ne r false h

@[simp] theorem noteResult_binary (value : UInt8) :
    r.binary.noteResult value = (r.noteResult value).binary := by
  simp [Registers.noteResult]

@[simp] theorem load_binary (target : Register) (value : UInt8) :
    r.binary.load target value = (r.load target value).binary := by
  simp [Registers.load]

@[simp] theorem add_binary (value : UInt8) : r.binary.add value = (r.add value).binary := by
  simp [Registers.add]

@[simp] theorem compare_binary (left right : UInt8) :
    r.binary.compare left right = (r.compare left right).binary := by
  simp [Registers.compare]

theorem ReadOp.apply_binary (op : ReadOp) (value : UInt8) :
    op.apply value r.binary = (op.apply value r).binary := by
  cases op <;> simp [ReadOp.apply]

theorem ModifyOp.apply_binary (op : ModifyOp) (value : UInt8) :
    op.apply value r.binary = ((op.apply value r).1, (op.apply value r).2.binary) := by
  cases op <;> simp [ModifyOp.apply, ModifyOp.carryOut]

theorem RegisterOp.binary_apply (op : RegisterOp) :
    (op.apply r.binary).binary = (op.apply r).binary := by
  cases op with
  | setFlag flag on =>
    by_cases hFlag : flag = .decimal
    · subst hFlag
      show (r.binary.setFlag .decimal on).binary = (r.setFlag .decimal on).binary
      rw [binary_setFlag_decimal, binary_setFlag_decimal, binary_binary]
    · show (r.binary.setFlag flag on).binary = (r.setFlag flag on).binary
      rw [setFlag_binary r hFlag, binary_binary]
  | xToStack => exact binary_binary { r with s := r.x }
  | idle => exact binary_binary r
  | _ => simp [RegisterOp.apply]

theorem withBits_pushedStatus (byInstruction : Bool) :
    withBits (r.pushedStatus byInstruction) Flag.decimal.mask false =
      r.binary.pushedStatus byInstruction := by
  have hAll : ∀ p : UInt8, withBits (p ||| unusedMask ||| breakMask) Flag.decimal.mask false =
          withBits p Flag.decimal.mask false ||| unusedMask ||| breakMask ∧
        withBits ((p ||| unusedMask) &&& ~~~breakMask) Flag.decimal.mask false =
          (withBits p Flag.decimal.mask false ||| unusedMask) &&& ~~~breakMask :=
    forall_byte (by decide +kernel)
  cases byInstruction with
  | true => exact (hAll r.p).1
  | false => exact (hAll r.p).2

end Registers

/-! ### Instructions in binary mode -/

def Operand.binary (operand : Operand) : Operand :=
  { operand with registers := operand.registers.binary }

theorem locate_binary (mode : Mode) (r : Registers) :
    mode.locate r.binary = Operand.binary <$> mode.locate r := by
  cases mode <;> rfl

def binaryOutcome (outcome : Nat × Registers) : Nat × Registers :=
  (outcome.1, outcome.2.binary)

theorem binaryOutcome_map {m other : BusM (Nat × Registers)} (h : other = binaryOutcome <$> m) :
    binaryOutcome <$> other = binaryOutcome <$> m := by
  have hTwice (outcome : Nat × Registers) :
      binaryOutcome (binaryOutcome outcome) = binaryOutcome outcome :=
    Prod.ext rfl (binary_binary outcome.2)
  rw [h, Functor.map_map]
  simp only [hTwice]

/-- Which access of an instruction writes the status byte, its opcode being the first: `PHP` writes
it at once, `BRK` behind the return address. -/
def Instruction.statusPlace? : Instruction → Option Nat
  | .pushStatus => some 1
  | .softwareInterrupt => some 3
  | _ => none

def Instruction.testsDecimal : Instruction → Bool
  | .branch .decimal _ => true
  | _ => false

theorem execute_binary {instruction : Instruction} (hSaves : instruction.statusPlace? = none)
    (hTests : instruction.testsDecimal = false) (r : Registers) :
    binaryOutcome <$> instruction.execute r.binary = binaryOutcome <$> instruction.execute r := by
  cases instruction with
  | read op mode =>
    apply binaryOutcome_map
    simp only [Instruction.execute, locate_binary, bind_map_left, map_bind, map_pure]
    simp only [Operand.binary, ReadOp.apply_binary]
    rfl
  | store register mode =>
    apply binaryOutcome_map
    simp only [Instruction.execute, locate_binary, bind_map_left, map_bind, map_pure]
    simp only [Operand.binary, get_binary]
    rfl
  | modify op mode =>
    apply binaryOutcome_map
    simp only [Instruction.execute, locate_binary, bind_map_left, map_bind, map_pure]
    simp only [Operand.binary, ModifyOp.apply_binary]
    rfl
  | modifyAccumulator op =>
    apply binaryOutcome_map
    simp only [Instruction.execute, ModifyOp.apply_binary]
    rfl
  | internal op =>
    exact congrArg (fun next => BusM.done (0, next)) (RegisterOp.binary_apply r op)
  | pullAccumulator =>
    apply binaryOutcome_map
    refine congrArg (BusM.read _) (funext fun value => ?_)
    exact congrArg (fun next => BusM.done (0, next)) (load_binary { r with s := r.s + 1 } .a value)
  | branch flag on =>
    have hFlag : flag ≠ .decimal := by
      rintro rfl
      cases hTests
    apply binaryOutcome_map
    refine congrArg (BusM.read r.pc) (funext fun offset => ?_)
    show (if r.binary.flag flag == on then _ else _) =
      BusM.bind (if r.flag flag == on then _ else _) _
    rw [flag_binary r hFlag]
    split <;> rfl
  | pushStatus => cases hSaves
  | softwareInterrupt => cases hSaves
  -- A pulled status byte replaces the flag, so these two end in the same mode.
  | pullStatus => rfl
  | interruptReturn => rfl
  | _ => exact binaryOutcome_map rfl

/-! ### Processors in binary mode -/

/-- The processor with the decimal flag off.  Where this is the same of two processors, they differ
in the flag at most. -/
def binary (cpu : Cpu) : Cpu :=
  { cpu with registers := cpu.registers.binary }

def setDecimal (cpu : Cpu) (on : Bool) : Cpu :=
  { cpu with registers := cpu.registers.setFlag .decimal on }

def binaryResult (result : Except Fault (Nat × Cpu)) : Except Fault (Nat × Cpu) :=
  result.map fun next => (next.1, next.2.binary)

theorem binary_setDecimal (cpu : Cpu) (on : Bool) : (cpu.setDecimal on).binary = cpu.binary :=
  congrArg (fun r => { cpu with registers := r }) (binary_setFlag_decimal cpu.registers on)

theorem pending?_binary (cpu : Cpu) : cpu.binary.pending? = cpu.pending? := by
  have hFlag : cpu.binary.registers.flag .interruptDisable =
      cpu.registers.flag .interruptDisable := flag_binary _ (by decide)
  rw [pending?, pending?, hFlag]
  rfl

theorem entering_binary (r : Registers) (target : UInt16) :
    r.binary.entering target = (r.entering target).binary := by
  rw [Registers.entering, setFlag_binary r (by decide)]
  rfl

theorem entered_binary (cpu : Cpu) (target : UInt16) :
    cpu.binary.entered target = (cpu.entered target).binary := by
  have hEntering := entering_binary cpu.registers target
  rw [entered, binary, hEntering]
  rfl

def Opcode.testsDecimal : Opcode → Bool
  | .timed instruction _ => instruction.testsDecimal
  | .jam | .unsupported => false

theorem testsDecimal_matrix (high low : Fin 16) :
    ((Opcode.matrix.get high).get low).testsDecimal = false := by
  revert high low
  decide +kernel

theorem testsDecimal_of_ofByte {code : UInt8} {instruction : Instruction} {base : Nat}
    (h : Opcode.ofByte code = .timed instruction base) : instruction.testsDecimal = false := by
  have hOpcode : (Opcode.ofByte code).testsDecimal = false := testsDecimal_matrix _ _
  rwa [h] at hOpcode

def SavesNothing (code : UInt8) : Prop :=
  ∀ instruction base, Opcode.ofByte code = .timed instruction base →
    instruction.statusPlace? = none

theorem carryOut_binary (cpu : Cpu) {code : UInt8} (h : SavesNothing code) :
    binaryResult <$> cpu.binary.carryOut code = binaryResult <$> cpu.carryOut code := by
  cases hCode : Opcode.ofByte code with
  | timed instruction base =>
    have hExecute := execute_binary (h instruction base hCode) (testsDecimal_of_ofByte hCode)
      (cpu.registers.past 1)
    have hOutcome (start : Cpu) : binaryResult <$> start.carryOut code =
        (fun outcome => .ok (base + outcome.1, start.spend (base + outcome.1) outcome.2)) <$>
          binaryOutcome <$> instruction.execute (start.registers.past 1) := by
      rw [start.carryOut_timed hCode, Functor.map_map, Functor.map_map]
      rfl
    rw [hOutcome, hOutcome, ← hExecute]
    rfl
  | jam =>
    rw [carryOut, carryOut, hCode]
    rfl
  | unsupported =>
    rw [carryOut, carryOut, hCode]
    rfl

end Famicom.Cpu
