import Famicom.Proofs.Bits
import Famicom.Proofs.Cpu.Rules

/-!
# The status byte

Setting a flag leaves the others alone, a pushed status byte is pulled as it was, and only three
instructions can let maskable interrupts in again.
-/

namespace Famicom.Cpu

/-! ### Flags -/

theorem anyBit_mask_self (f : Flag) : anyBit f.mask f.mask = true := by
  cases f <;> decide

theorem anyBit_withBits_other {mask other : UInt8} (value : UInt8) (on : Bool)
    (h : mask &&& other = 0) (hKeeps : ~~~mask &&& other = other) :
    anyBit (withBits value mask on) other = anyBit value other := by
  rw [anyBit, anyBit, withBits_and_other value on h hKeeps]

@[simp] theorem flag_setFlag_self (r : Registers) (f : Flag) (on : Bool) :
    (r.setFlag f on).flag f = on := by
  cases on with
  | true => exact anyBit_or_right (anyBit_mask_self f)
  | false => exact anyBit_withBits_self _ _ _ (by cases f <;> decide)

theorem flag_setFlag_of_ne (r : Registers) {f g : Flag} (on : Bool) (h : f ≠ g) :
    (r.setFlag g on).flag f = r.flag f := by
  have hApart : g.mask &&& f.mask = 0 ∧ ~~~g.mask &&& f.mask = f.mask := by
    cases f <;> cases g <;> first | exact absurd rfl h | decide
  exact anyBit_withBits_other r.p on hApart.1 hApart.2

/-! ### Pushed copies -/

/-- The status byte as the processor holds it: the bit without a meaning is on, the break bit
off. -/
def Registers.Regular (r : Registers) : Prop :=
  r.p &&& (unusedMask ||| breakMask) = unusedMask

theorem loadStatus_pushedStatus {r : Registers} (h : r.Regular) (byInstruction : Bool)
    (r' : Registers) : (r'.loadStatus (r.pushedStatus byInstruction)).p = r.p := by
  have hAll : ∀ p : UInt8, p &&& (unusedMask ||| breakMask) = unusedMask →
      (p ||| unusedMask ||| breakMask ||| unusedMask) &&& ~~~breakMask = p ∧
        ((p ||| unusedMask) &&& ~~~breakMask ||| unusedMask) &&& ~~~breakMask = p :=
    forall_byte (by decide +kernel)
  cases byInstruction with
  | true => exact (hAll r.p h).1
  | false => exact (hAll r.p h).2

/-! ### What data does not touch -/

/-- A view of the registers that shows neither data nor the flags of a result. -/
structure Registers.Untouched {δ : Type} (view : Registers → δ) : Prop where
  put : ∀ r target value, view (r.put target value) = view r
  setFlag : ∀ r f on, f ≠ .interruptDisable → f ≠ .decimal → view (r.setFlag f on) = view r

namespace Registers.Untouched

variable {δ : Type} {view : Registers → δ} (h : Untouched view) (r : Registers)

include h

theorem noteResult (value : UInt8) : view (r.noteResult value) = view r := by
  rw [Registers.noteResult, h.setFlag _ _ _ (by decide) (by decide),
    h.setFlag _ _ _ (by decide) (by decide)]

theorem load (target : Register) (value : UInt8) : view (r.load target value) = view r := by
  rw [Registers.load, h.noteResult, h.put]

theorem readOp (op : ReadOp) (value : UInt8) : view (op.apply value r) = view r := by
  cases op with
  | load target => exact h.load r target value
  | discard => rfl
  | _ => simp [ReadOp.apply, Registers.add, Registers.compare, h.load, h.noteResult, h.setFlag]

theorem modifyOp (op : ModifyOp) (value : UInt8) : view (op.apply value r).2 = view r := by
  cases op <;> simp [ModifyOp.apply, ModifyOp.carryOut, h.noteResult, h.setFlag]

end Registers.Untouched

/-! ### The interrupt disable flag -/

def Registers.masked (r : Registers) : Bool :=
  r.flag .interruptDisable

@[simp] theorem masked_setFlag {f : Flag} (hFlag : f ≠ .interruptDisable) (r : Registers)
    (on : Bool) : (r.setFlag f on).masked = r.masked :=
  flag_setFlag_of_ne r on hFlag.symm

theorem masked_untouched : Registers.Untouched Registers.masked where
  put r target value := by cases target <;> rfl
  setFlag r f on hInterrupt hDecimal := masked_setFlag hInterrupt r on

@[simp] theorem masked_load (r : Registers) (target : Register) (value : UInt8) :
    (r.load target value).masked = r.masked :=
  masked_untouched.load r target value

theorem masked_readOp (op : ReadOp) (value : UInt8) (r : Registers) :
    (op.apply value r).masked = r.masked :=
  masked_untouched.readOp r op value

theorem masked_modifyOp (op : ModifyOp) (value : UInt8) (r : Registers) :
    (op.apply value r).2.masked = r.masked :=
  masked_untouched.modifyOp r op value

/-- The instructions that can let maskable interrupts in: clearing the flag, or pulling a status
byte. -/
def Instruction.unmasks : Instruction → Bool
  | .internal (.setFlag .interruptDisable false) => true
  | .pullStatus | .interruptReturn => true
  | _ => false

theorem RegisterOp.masked_apply {op : RegisterOp} {r : Registers} (h : r.masked = true)
    (hKeeps : (Instruction.internal op).unmasks = false) : (op.apply r).masked = true := by
  cases op with
  | setFlag flag on =>
    by_cases hFlag : flag = .interruptDisable
    · subst hFlag
      cases on with
      | true => exact flag_setFlag_self r .interruptDisable true
      | false => cases hKeeps
    · rw [RegisterOp.apply, masked_setFlag hFlag, h]
  | transfer source target => rw [RegisterOp.apply, masked_load, h]
  | stackToX => rw [RegisterOp.apply, masked_load, h]
  | increment register => rw [RegisterOp.apply, masked_load, h]
  | decrement register => rw [RegisterOp.apply, masked_load, h]
  | xToStack => exact h
  | idle => exact h

/-- Every other instruction keeps them out. -/
theorem Instruction.Runs.masked {instruction : Instruction} {r next : Registers}
    {log : List Access} {extra : Nat} (runs : instruction.Runs r log extra next)
    (h : r.masked = true) (hKeeps : instruction.unmasks = false) : next.masked = true := by
  cases runs with
  | read op value found => exact (masked_readOp op value _).trans h
  | modify op value found => exact (masked_modifyOp op value _).trans h
  | modifyAccumulator op => exact (masked_modifyOp op r.a _).trans h
  | internal op => exact RegisterOp.masked_apply h hKeeps
  | pullAccumulator value => exact (masked_load _ .a value).trans h
  | pullStatus value => cases hKeeps
  | interruptReturn status low high => cases hKeeps
  | softwareInterrupt low high => exact flag_setFlag_self r .interruptDisable true
  | _ => exact h

end Famicom.Cpu
