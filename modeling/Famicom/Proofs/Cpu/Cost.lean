import Famicom.Proofs.Cpu.Rules

/-!
# The cost of a step

An interrupt entry takes seven cycles.  An instruction takes the base cost of its opcode, and
beyond it only what indexing across pages costs an operation that reads, and what a taken branch
costs.  Which pages are meant shows in the accesses of the step.
-/

namespace Famicom.Cpu

/-- The cycles of an instruction beyond its base cost, by its accesses behind the opcode: one when
the address read lies on another page than the address before indexing; for a taken branch one,
and another when it leaves the page of the following instruction. -/
def Instruction.Surcharge (r : Registers) (log : List Access) (extra : Nat) : Instruction → Prop
  | .read _ mode => ∃ reads base address value, mode.Finds r reads base address ∧
      log = reads ++ [.read address value] ∧
      extra = if pageOf base = pageOf address then 0 else 1
  | .branch flag on => ∃ offset, log = [.read (r.pc + 1) offset] ∧
      extra = if r.flag flag = on then
        if pageOf (r.pc + 2) = pageOf (r.branchTarget offset) then 1 else 2
      else 0
  | _ => extra = 0

structure Costs (cpu : Cpu) (log : List Access) (cycles : Nat) (next : Cpu) : Prop where
  counted : next.cycles = cpu.cycles + cycles
  least : 2 ≤ cycles
  most : cycles ≤ 7
  interrupt : cpu.pending? ≠ none → cycles = 7
  instruction : cpu.pending? = none → ∃ code instruction base extra rest,
    log = .read cpu.registers.pc code :: rest ∧
    Opcode.ofByte code = .timed instruction base ∧
    instruction.Surcharge cpu.registers rest extra ∧ cycles = base + extra

/-! ### Bounds -/

def Instruction.maxSurcharge : Instruction → Nat
  | .read _ _ => 1
  | .branch _ _ => 2
  | _ => 0

theorem Instruction.Surcharge.le {instruction : Instruction} {r : Registers} {log : List Access}
    {extra : Nat} (h : instruction.Surcharge r log extra) : extra ≤ instruction.maxSurcharge := by
  cases instruction with
  | read op mode =>
    obtain ⟨reads, base, address, value, -, -, rfl⟩ := h
    show (if pageOf base = pageOf address then 0 else 1) ≤ 1
    split <;> omega
  | branch flag on =>
    obtain ⟨offset, -, rfl⟩ := h
    show (if r.flag flag = on then
      if pageOf (r.pc + 2) = pageOf (r.branchTarget offset) then 1 else 2 else 0) ≤ 2
    split
    · split <;> omega
    · omega
  | _ => exact Nat.le_of_eq h

theorem Instruction.Runs.surcharge {instruction : Instruction} {r next : Registers}
    {log : List Access} {extra : Nat} (h : instruction.Runs r log extra next) :
    instruction.Surcharge r log extra := by
  cases h with
  | read op value found => exact ⟨_, _, _, value, found, rfl, rfl⟩
  | branchTaken offset taken =>
    refine ⟨offset, rfl, ?_⟩
    rw [if_pos taken, branchCycles]
    simp only [bne_iff_ne, ne_eq, ite_not]
  | branchPassed offset passed => exact ⟨offset, rfl, (if_neg passed).symm⟩
  | _ => rfl

/-- An opcode that is executed costs at least two cycles and never more than seven. -/
def Opcode.fairlyTimed : Opcode → Bool
  | .timed instruction base => 2 ≤ base && base + instruction.maxSurcharge ≤ 7
  | .jam => true
  | .unsupported => true

theorem fairlyTimed_matrix (high low : Fin 16) :
    ((Opcode.matrix.get high).get low).fairlyTimed = true := by
  revert high low
  decide +kernel

theorem cycles_of_ofByte {code : UInt8} {instruction : Instruction} {base : Nat}
    (h : Opcode.ofByte code = .timed instruction base) :
    2 ≤ base ∧ base + instruction.maxSurcharge ≤ 7 := by
  have hFair : (Opcode.ofByte code).fairlyTimed = true := fairlyTimed_matrix _ _
  rw [h] at hFair
  simpa [Opcode.fairlyTimed] using hFair

theorem Steps.costs {cpu next : Cpu} {log : List Access} {cycles : Nat}
    (h : cpu.Steps log (.ok (cycles, next))) : cpu.Costs log cycles next := by
  cases h with
  | interrupt low high pending =>
    refine ⟨rfl, by decide, by decide, fun _ => rfl, fun hFree => ?_⟩
    rw [pending] at hFree
    cases hFree
  | instruction free decoded runs =>
    have hExtra := runs.surcharge
    obtain ⟨hLeast, hMost⟩ := cycles_of_ofByte decoded
    have hLe := hExtra.le
    exact ⟨rfl, by omega, by omega, fun hPending => absurd free hPending,
      fun _ => ⟨_, _, _, _, _, rfl, decoded, hExtra, rfl⟩⟩

theorem costs_of_step {β : Type} [Bus β] {cpu next : Cpu} {bus : β} {cycles : Nat}
    (h : (cpu.step.run bus).1 = .ok (cycles, next)) :
    cpu.Costs (cpu.step.accesses bus) cycles next := by
  have hSteps := (step_shows cpu).run bus
  rw [h] at hSteps
  exact hSteps.costs

end Famicom.Cpu
