import Famicom.Proofs.Cpu.Footprint
import Famicom.Proofs.Cpu.Status

/-!
# Driven runs

A processor is driven by steps and by its two interrupt inputs, in any order.  Over every such run
each non-maskable interrupt that is latched is entered exactly once, and while maskable interrupts
are kept out none is entered until an instruction lets them in again.
-/

namespace Famicom.Cpu

inductive Operation where
  | step
  | nmi
  | irq (level : Bool)

variable {β : Type} [Bus β]

/-- What an operation does to a processor and its bus.  A step that faults leaves the processor as
it was. -/
def perform (state : Cpu × β) : Operation → Cpu × β
  | .step =>
    match state.1.step.run state.2 with
    | (.ok (_, next), bus) => (next, bus)
    | (.error _, bus) => (state.1, bus)
  | .nmi => (state.1.latchNmi, state.2)
  | .irq level => (state.1.setIrq level, state.2)

def performAll (state : Cpu × β) (operations : List Operation) : Cpu × β :=
  operations.foldl perform state

structure Event (β : Type) where
  before : Cpu × β
  operation : Operation

def events : Cpu × β → List Operation → List (Event β)
  | _, [] => []
  | state, operation :: rest => ⟨state, operation⟩ :: events (perform state operation) rest

/-! ### What a step leaves -/

theorem perform_step (state : Cpu × β) :
    ∃ log result, state.1.Steps log result ∧ log = state.1.step.accesses state.2 ∧
      (perform state .step).1 =
        match result with
        | .ok (_, next) => next
        | .error _ => state.1 := by
  refine ⟨_, _, (step_shows state.1).run state.2, rfl, ?_⟩
  rw [perform]
  generalize state.1.step.run state.2 = outcome
  obtain ⟨_ | _, bus⟩ := outcome <;> rfl

theorem perform_step_latch (state : Cpu × β) :
    (perform state .step).1.nmiLatched = false := by
  obtain ⟨log, result, hSteps, -, hNext⟩ := perform_step state
  rw [hNext]
  exact hSteps.nmiLatched

/-! ### Entries -/

theorem pending?_eq_irqVector (cpu : Cpu) :
    cpu.pending? = some irqVector ↔
      cpu.nmiLatched = false ∧ cpu.irqLine = true ∧ cpu.registers.masked = false := by
  unfold pending? Registers.masked
  cases cpu.nmiLatched <;> cases cpu.irqLine <;>
    cases cpu.registers.flag .interruptDisable <;> decide

def Event.enters (vector : UInt16) (event : Event β) : Bool :=
  match event.operation with
  | .step => vectorOf? (event.before.1.step.accesses event.before.2) == some vector
  | _ => false

def Event.latches (event : Event β) : Bool :=
  match event.operation with
  | .nmi => !event.before.1.nmiLatched
  | _ => false

theorem latch_perform (state : Cpu × β) (operation : Operation) :
    (Event.enters nmiVector ⟨state, operation⟩).toNat +
        (perform state operation).1.nmiLatched.toNat =
      (Event.latches ⟨state, operation⟩).toNat + state.1.nmiLatched.toNat := by
  cases operation with
  | step =>
    have hEnters : Event.enters nmiVector ⟨state, .step⟩ = state.1.nmiLatched := by
      rw [Bool.eq_iff_iff, ← vectorOf?_step state.1 state.2]
      exact beq_iff_eq
    rw [hEnters, perform_step_latch]
    exact Nat.add_comm _ _
  | nmi =>
    show 0 + 1 = (!state.1.nmiLatched).toNat + state.1.nmiLatched.toNat
    cases state.1.nmiLatched <;> rfl
  | irq level => rfl

/-- Over a run, interrupts latched and interrupts entered balance. -/
theorem latch_balance (state : Cpu × β) (operations : List Operation) :
    (events state operations).countP (Event.enters nmiVector) +
        (performAll state operations).1.nmiLatched.toNat =
      (events state operations).countP Event.latches + state.1.nmiLatched.toNat := by
  induction operations generalizing state with
  | nil => simp [events, performAll]
  | cons operation rest ih =>
    have hFirst := latch_perform state operation
    have hRest := ih (perform state operation)
    have hCount (p : Event β → Bool) : (events state (operation :: rest)).countP p =
        (events (perform state operation) rest).countP p +
          (p ⟨state, operation⟩).toNat := by
      rw [events, List.countP_cons]
      cases p ⟨state, operation⟩ <;> rfl
    rw [hCount, hCount]
    show _ + (performAll (perform state operation) rest).1.nmiLatched.toNat = _
    omega

/-! ### Masked interrupts -/

structure Event.Unmasks (event : Event β) : Prop where
  operation : event.operation = .step
  masked : event.before.1.registers.masked = true
  unmasked : (perform event.before .step).1.registers.masked = false
  instruction : ∃ code rest instruction base,
    event.before.1.step.accesses event.before.2 =
      .read event.before.1.registers.pc code :: rest ∧
    Opcode.ofByte code = .timed instruction base ∧ instruction.unmasks = true

theorem masked_perform {state : Cpu × β} (h : state.1.registers.masked = true)
    (operation : Operation) : (perform state operation).1.registers.masked = true ∨
      Event.Unmasks ⟨state, operation⟩ := by
  cases hAfter : (perform state operation).1.registers.masked with
  | true => exact .inl rfl
  | false =>
    right
    cases operation with
    | nmi => exact absurd h (Bool.eq_false_iff.1 hAfter)
    | irq level => exact absurd h (Bool.eq_false_iff.1 hAfter)
    | step =>
      refine ⟨rfl, h, hAfter, ?_⟩
      obtain ⟨log, result, hSteps, hLog, hNext⟩ := perform_step state
      rw [hNext] at hAfter
      show ∃ code rest instruction base, state.1.step.accesses state.2 = _ ∧ _
      rw [← hLog]
      cases hSteps with
      | interrupt low high pending =>
        have hSet : (state.1.registers.setFlag .interruptDisable true).masked = true :=
          flag_setFlag_self _ _ _
        exact absurd hSet (Bool.eq_false_iff.1 hAfter)
      | @instruction code instruction base extra rest next free decoded runs =>
        refine ⟨code, rest, instruction, base, rfl, decoded, ?_⟩
        cases hKeeps : instruction.unmasks with
        | true => rfl
        | false => exact absurd (runs.masked h hKeeps) (Bool.eq_false_iff.1 hAfter)
      | jam free jams => exact absurd h (Bool.eq_false_iff.1 hAfter)
      | unsupported free unknown => exact absurd h (Bool.eq_false_iff.1 hAfter)

/-- From a state that keeps maskable interrupts out, none is pending until an instruction lets
them in. -/
theorem unmasks_before_irq {state : Cpu × β} (h : state.1.registers.masked = true)
    {operations : List Operation}
    (hPending : (performAll state operations).1.pending? = some irqVector) :
    ∃ event ∈ events state operations, event.Unmasks := by
  -- Either the first operation leaves them out, and the rest has the event, or it is the event.
  induction operations generalizing state with
  | nil =>
    have hOpen := ((pending?_eq_irqVector state.1).1 hPending).2.2
    exact absurd h (Bool.eq_false_iff.1 hOpen)
  | cons operation rest ih =>
    rcases masked_perform h operation with hMasked | hUnmasks
    · obtain ⟨event, hEvent, hUnmasks⟩ := ih hMasked hPending
      exact ⟨event, List.mem_cons_of_mem _ hEvent, hUnmasks⟩
    · exact ⟨_, List.mem_cons_self, hUnmasks⟩

end Famicom.Cpu
