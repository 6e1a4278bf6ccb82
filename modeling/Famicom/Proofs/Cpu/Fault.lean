import Famicom.Proofs.Bits
import Famicom.Proofs.Cpu.Rules

/-!
# Faults of the processor

What a step does behind the fetch of its opcode.  It faults when no instruction has the opcode,
and the fetch is then all it has done.
-/

namespace Famicom.Cpu

/-! ### Opcodes -/

def jamCodes : List UInt8 :=
  [0x02, 0x12, 0x22, 0x32, 0x42, 0x52, 0x62, 0x72, 0x92, 0xB2, 0xD2, 0xF2]

def Undecoded (code : UInt8) : Prop :=
  ∀ instruction cycles, Opcode.ofByte code ≠ .timed instruction cycles

def faultAt (code : UInt8) (pc : UInt16) : Fault :=
  if code ∈ jamCodes then .jam code pc else .unsupported code pc

theorem ofByte_eq_jam_iff (code : UInt8) : Opcode.ofByte code = .jam ↔ code ∈ jamCodes :=
  forall_byte (p := fun code => Opcode.ofByte code = .jam ↔ code ∈ jamCodes)
    (by decide +kernel) code

/-! ### Steps of the processor -/

def carryOut (cpu : Cpu) (code : UInt8) : BusM (Except Fault (Nat × Cpu)) :=
  let pc := cpu.registers.pc
  match Opcode.ofByte code with
  | .timed instruction base => do
    let (extra, r) ← instruction.execute { cpu.registers with pc := pc + 1 }
    return .ok (base + extra, cpu.spend (base + extra) r)
  | .jam => return .error (.jam code pc)
  | .unsupported => return .error (.unsupported code pc)

theorem runInstruction_eq (cpu : Cpu) :
    cpu.runInstruction = .read cpu.registers.pc cpu.carryOut :=
  rfl

theorem step_fetches {cpu : Cpu} (h : cpu.pending? = none) :
    cpu.step = .read cpu.registers.pc cpu.carryOut :=
  (step_eq_runInstruction h).trans cpu.runInstruction_eq

theorem carryOut_timed (cpu : Cpu) {code : UInt8} {instruction : Instruction} {base : Nat}
    (h : Opcode.ofByte code = .timed instruction base) :
    cpu.carryOut code =
      (fun outcome => .ok (base + outcome.1, cpu.spend (base + outcome.1) outcome.2)) <$>
        instruction.execute (cpu.registers.past 1) := by
  rw [carryOut, h]
  rfl

theorem carryOut_undecoded (cpu : Cpu) {code : UInt8} (h : Undecoded code) :
    cpu.carryOut code = .done (.error (faultAt code cpu.registers.pc)) := by
  have hJam := ofByte_eq_jam_iff code
  simp only [carryOut, faultAt]
  cases hCode : Opcode.ofByte code with
  | timed instruction cycles => exact absurd hCode (h instruction cycles)
  | jam =>
    rw [if_pos (hJam.1 hCode)]
    rfl
  | unsupported =>
    have hNot : code ∉ jamCodes := fun hMem => by simp [hJam.2 hMem] at hCode
    rw [if_neg hNot]
    rfl

variable {β : Type} [Bus β]

theorem carryOut_timed_ne_error (cpu : Cpu) (bus : β) {code : UInt8} {instruction : Instruction}
    {base : Nat} (h : Opcode.ofByte code = .timed instruction base) (fault : Fault) :
    ((cpu.carryOut code).run bus).1 ≠ .error fault := by
  intro hFault
  simp only [carryOut, h] at hFault
  have hEnd := (congrArg Prod.fst (BusM.run_bind (instruction.execute _) _ bus)).symm.trans hFault
  cases hEnd

theorem carryOut_runs (cpu : Cpu) (bus : β) {code : UInt8} {instruction : Instruction}
    {base : Nat} (h : Opcode.ofByte code = .timed instruction base) :
    ∃ extra next, instruction.Runs cpu.registers ((cpu.carryOut code).accesses bus) extra next ∧
      ((cpu.carryOut code).run bus).1 = .ok (base + extra, cpu.spend (base + extra) next) := by
  rw [cpu.carryOut_timed h, BusM.accesses_map, BusM.run_map]
  exact ⟨_, _, (execute_shows instruction cpu.registers).run bus, rfl⟩

/-- The processor has no interrupt to enter and finds an opcode that no instruction has. -/
structure Refuses (cpu : Cpu) (bus : β) : Prop where
  nmi : cpu.nmiLatched = false
  irq : (cpu.irqLine && !cpu.registers.flag .interruptDisable) = false
  undecoded : Undecoded (Bus.read bus cpu.registers.pc).1

theorem step_of_free {cpu : Cpu} (hNmi : cpu.nmiLatched = false)
    (hIrq : (cpu.irqLine && !cpu.registers.flag .interruptDisable) = false) :
    cpu.step = .read cpu.registers.pc cpu.carryOut := by
  rw [step, hNmi, hIrq]
  exact cpu.runInstruction_eq

theorem Refuses.run {cpu : Cpu} {bus : β} (h : cpu.Refuses bus) :
    cpu.step.run bus =
      (.error (faultAt (Bus.read bus cpu.registers.pc).1 cpu.registers.pc),
        (Bus.read bus cpu.registers.pc).2) := by
  rw [step_of_free h.nmi h.irq]
  simp only [BusM.run]
  rw [cpu.carryOut_undecoded h.undecoded]
  rfl

theorem Refuses.accesses {cpu : Cpu} {bus : β} (h : cpu.Refuses bus) :
    cpu.step.accesses bus = [.read cpu.registers.pc (Bus.read bus cpu.registers.pc).1] := by
  rw [step_of_free h.nmi h.irq]
  simp only [BusM.accesses]
  rw [cpu.carryOut_undecoded h.undecoded]
  rfl

theorem refuses_of_error {cpu : Cpu} {bus : β} {fault : Fault}
    (h : (cpu.step.run bus).1 = .error fault) : cpu.Refuses bus := by
  obtain ⟨hNmi, hIrq⟩ := pending?_eq_none_iff.1 (pending?_of_error h)
  refine ⟨hNmi, hIrq, ?_⟩
  intro instruction cycles hCode
  rw [step_of_free hNmi hIrq] at h
  exact cpu.carryOut_timed_ne_error _ hCode fault h

end Famicom.Cpu
