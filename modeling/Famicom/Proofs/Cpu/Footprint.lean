import Famicom.Proofs.Cpu.Writes

/-!
# The footprint of a step

Whatever the bus answers, one step of the processor writes at most one byte or writes to the
stack alone, writes nothing when it faults, and leaves no non-maskable interrupt to enter.  Which
interrupt it entered, if any, shows in its accesses.
-/

namespace Famicom.Cpu

/-- At most one write, or writes to the stack alone. -/
def Sparing (targets : List (UInt16 × UInt8)) : Prop :=
  targets.length ≤ 1 ∨ ∀ t ∈ targets, OnStack t.1

/-- The vector of an interrupt entry, read off the accesses of a step: three bytes are saved, then
a word is loaded. -/
def vectorOf? : List Access → Option UInt16
  | [.write _ _, .write _ _, .write _ _, .read low _, .read high _] =>
    if high = low + 1 then some low else none
  | _ => none

theorem vectorOf?_read (address : UInt16) (value : UInt8) (rest : List Access) :
    vectorOf? (.read address value :: rest) = none := by
  simp [vectorOf?]

theorem onStack_of_mem_stacked {s : UInt8} {values : List UInt8} {t : UInt16 × UInt8}
    (h : t ∈ stacked s values) : OnStack t.1 := by
  induction values generalizing s with
  | nil => cases h
  | cons value rest ih =>
    rcases List.mem_cons.1 h with rfl | hRest
    · exact onStack_stackSlot s
    · exact ih hRest

section Rules

variable {cpu : Cpu} {log : List Access} {result : Except Fault (Nat × Cpu)}

theorem Steps.sparing (h : cpu.Steps log result) : Sparing (targetsOf log) := by
  rcases h.written.single with ⟨values, _, _, -, hValues, -⟩ | hOne
  · rw [hValues]
    exact .inr fun t ht => onStack_of_mem_stacked ht
  · exact .inl hOne

theorem Steps.targetsOf_of_error {fault : Fault} (h : cpu.Steps log (.error fault)) :
    targetsOf log = [] := by
  cases h <;> rfl

theorem Steps.nmiLatched (h : cpu.Steps log result) :
    (match result with | .ok (_, next) => next | .error _ => cpu).nmiLatched = false := by
  cases h with
  | interrupt low high pending => rfl
  | instruction free decoded runs =>
    show cpu.nmiLatched = false
    exact (pending?_eq_none_iff.1 free).1
  | jam free jams => exact (pending?_eq_none_iff.1 free).1
  | unsupported free unknown => exact (pending?_eq_none_iff.1 free).1

theorem Steps.vectorOf?_eq (h : cpu.Steps log result) : vectorOf? log = cpu.pending? := by
  cases h with
  | interrupt low high pending =>
    rw [pending]
    exact if_pos rfl
  | instruction free decoded runs => rw [free, vectorOf?_read]
  | jam free jams => rw [free, vectorOf?_read]
  | unsupported free unknown => rw [free, vectorOf?_read]

end Rules

section Runs

variable {β : Type} [Bus β]

theorem sparing_step (cpu : Cpu) (bus : β) :
    Sparing ((cpu.step.writes bus).map Write.target) := by
  rw [← BusM.accesses_write?]
  exact ((step_shows cpu).run bus).sparing

theorem writes_of_error {cpu : Cpu} {bus : β} {fault : Fault}
    (h : (cpu.step.run bus).1 = .error fault) : cpu.step.writes bus = [] := by
  have hSteps := (step_shows cpu).run bus
  rw [h] at hSteps
  have hTargets := hSteps.targetsOf_of_error
  rw [targetsOf, BusM.accesses_write?] at hTargets
  exact List.map_eq_nil_iff.1 hTargets

theorem nmiLatched_of_step {cpu next : Cpu} {bus : β} {cycles : Nat}
    (h : (cpu.step.run bus).1 = .ok (cycles, next)) : next.nmiLatched = false := by
  have hLatch := ((step_shows cpu).run bus).nmiLatched
  rw [h] at hLatch
  exact hLatch

theorem vectorOf?_eq_pending? (cpu : Cpu) (bus : β) :
    vectorOf? (cpu.step.accesses bus) = cpu.pending? :=
  ((step_shows cpu).run bus).vectorOf?_eq

/-- A step enters through the vector of the non-maskable interrupt exactly when that interrupt is
latched. -/
theorem vectorOf?_step (cpu : Cpu) (bus : β) :
    vectorOf? (cpu.step.accesses bus) = some nmiVector ↔ cpu.nmiLatched = true := by
  rw [vectorOf?_eq_pending?, pending?_eq_nmiVector]

end Runs

end Famicom.Cpu
