import Famicom.Proofs.Console.Fault
import Famicom.Proofs.Cpu.Cost
import Mathlib.Algebra.GroupWithZero.Nat

/-!
# The length of an epoch

Every step of the console takes at least two cycles and at most those of a sprite transfer.  So the
steps of an epoch are at most half its budget, rounded up, and the last of them overshoots the
budget by less than a transfer.
-/

namespace Famicom.Console

open Pacing

/-! ### Steps -/

theorem turn_of_ok {probes : Probes} {console : Console} {quantum : Quantum}
    (h : (console.step probes).1 = .ok quantum) :
    ∃ t, console.turn = .ok t ∧ t.cycles = quantum.cycles := by
  cases hTurn : console.turn with
  | ok t =>
    rw [step_of_turn hTurn] at h
    obtain rfl := Except.ok.inj h
    exact ⟨t, rfl, rfl⟩
  | error fault =>
    rw [(step_of_fault hTurn probes).2.2] at h
    cases h

/-- What a step of the console costs: what its processor's step costs, or a transfer. -/
structure QuantumCost (console : Console) (cycles : Nat) : Prop where
  processor : console.bus.dmaPage = none → 2 ≤ cycles ∧ cycles ≤ 7 ∧
    ∃ next, (console.cpu.step.run console.bus).1 = .ok (cycles, next)
  transfer : console.bus.dmaPage ≠ none → cycles = 513 + console.totalCycles % 2

theorem quantumCost_of_ok {probes : Probes} {console : Console} {quantum : Quantum}
    (h : (console.step probes).1 = .ok quantum) : console.QuantumCost quantum.cycles := by
  obtain ⟨t, hTurn, hCycles⟩ := turn_of_ok h
  rw [← hCycles]
  rcases turn_cases hTurn with ⟨page, hPage, rfl⟩ | ⟨hPage, -, hRun⟩
  · exact ⟨fun hNone => absurd (hPage.symm.trans hNone) (by simp), fun _ => rfl⟩
  · have hStep : (console.cpu.step.run console.bus).1 = .ok (t.cycles, t.cpu) := by rw [hRun]
    have hCost := Cpu.costs_of_step hStep
    exact ⟨fun _ => ⟨hCost.least, hCost.most, t.cpu, hStep⟩, fun hSome => absurd hPage hSome⟩

theorem result_bounds {probes : Probes} {console : Console} {cycles : Nat}
    (h : console.result probes = .ok cycles) : 2 ≤ cycles ∧ cycles ≤ 514 := by
  unfold result at h
  cases hStep : (console.step probes).1 with
  | error fault =>
    rw [hStep] at h
    cases h
  | ok quantum =>
    rw [hStep] at h
    obtain rfl : quantum.cycles = cycles := Except.ok.inj h
    have hCost := quantumCost_of_ok hStep
    by_cases hPage : console.bus.dmaPage = none
    · obtain ⟨hLeast, hMost, -⟩ := hCost.processor hPage
      omega
    · have hTransfer := hCost.transfer hPage
      omega

theorem returned_of_result {probes : Probes} {console : Console} {cycles : Nat}
    (h : console.result probes = .ok cycles) : console.returned probes = cycles := by
  unfold result at h
  unfold returned
  cases hStep : (console.step probes).1 with
  | error fault =>
    rw [hStep] at h
    cases h
  | ok quantum =>
    rw [hStep] at h
    exact Except.ok.inj h

/-! ### Runs from their first step -/

theorem after_step (probes : Probes) (console : Console) (n : Nat) :
    after probes (console.step probes).2 n = after probes console (n + 1) := by
  induction n with
  | zero => rfl
  | succ n ih => exact congrArg (fun c => (step probes c).2) ih

theorem history_cons (probes : Probes) (console : Console) (n : Nat) :
    history probes console (n + 1) =
      console :: history probes (console.step probes).2 n := by
  simp only [history, List.range_succ_eq_map, List.map_cons, List.map_map]
  refine congrArg (after probes console 0 :: ·) (List.map_congr_left fun i _ => ?_)
  exact (after_step probes console i).symm

/-! ### Epochs -/

/-- How an epoch goes on behind some cycles: the number of steps still made, the last of which may
fail, and the outcome. -/
inductive Epoch (probes : Probes) (budget : Nat) :
    Nat → Console → Nat → Outcome Cpu.Fault Nat → Prop
  | reached {cycles : Nat} {console : Console} (done : budget ≤ cycles) :
    Epoch probes budget cycles console 0 (.finished cycles)
  | failed {cycles : Nat} {console : Console} {fault : Cpu.Fault} (short : cycles < budget)
      (fails : console.result probes = .error fault) :
    Epoch probes budget cycles console 1 (.faulted fault)
  | stepped {cycles spent n : Nat} {console : Console} {outcome : Outcome Cpu.Fault Nat}
      (short : cycles < budget) (succeeds : console.result probes = .ok spent)
      (rest : Epoch probes budget (cycles + spent) (console.step probes).2 n outcome) :
    Epoch probes budget cycles console (n + 1) outcome

section

variable {probes : Probes} {budget cycles n : Nat} {console : Console}
  {outcome : Outcome Cpu.Fault Nat}

/-- Two cycles are left behind with every step, so half of those missing are enough steps. -/
theorem exists_epoch (probes : Probes) {budget cycles horizon : Nat}
    (h : budget ≤ cycles + 2 * horizon) (console : Console) :
    ∃ n ≤ horizon, ∃ outcome, Epoch probes budget cycles console n outcome := by
  induction horizon generalizing cycles console with
  | zero => exact ⟨0, Nat.le_refl 0, _, .reached h⟩
  | succ horizon ih =>
    by_cases hDone : budget ≤ cycles
    · exact ⟨0, Nat.zero_le _, _, .reached hDone⟩
    have hShort := Nat.not_le.1 hDone
    cases hResult : console.result probes with
    | error fault => exact ⟨1, by omega, _, .failed hShort hResult⟩
    | ok spent =>
      have hLeast := (result_bounds hResult).1
      obtain ⟨n, hn, outcome, hRest⟩ := ih (show budget ≤ cycles + spent + 2 * horizon by omega)
        (console.step probes).2
      exact ⟨n + 1, by omega, outcome, .stepped hShort hResult hRest⟩

/-- What the outcome of an epoch says of its steps: they all succeed but for the last of one that
fails, and what they return makes up the cycles. -/
def EpochSteps (probes : Probes) (budget cycles : Nat) (console : Console) (n : Nat) :
    Outcome Cpu.Fault Nat → Prop
  | .finished total => budget ≤ total ∧ total ≤ max cycles (budget + 513) ∧
      total = cycles + ((history probes console n).map (returned probes)).sum ∧
      ∀ i < n, ∃ spent, (after probes console i).result probes = .ok spent
  | .faulted fault => ∃ last, n = last + 1 ∧
      (after probes console last).result probes = .error fault ∧
      ∀ i < last, ∃ spent, (after probes console i).result probes = .ok spent
  | .exhausted => False

theorem succeeds_cons {spent last : Nat} (hFirst : console.result probes = .ok spent)
    (hRest : ∀ i < last, ∃ spent,
      (after probes (console.step probes).2 i).result probes = .ok spent) :
    ∀ i < last + 1, ∃ spent, (after probes console i).result probes = .ok spent := by
  intro i hi
  cases i with
  | zero => exact ⟨spent, hFirst⟩
  | succ i => exact after_step probes console i ▸ hRest i (Nat.lt_of_succ_lt_succ hi)

theorem Epoch.steps (h : Epoch probes budget cycles console n outcome) :
    EpochSteps probes budget cycles console n outcome := by
  induction h with
  | reached done =>
    exact ⟨done, Nat.le_max_left _ _, rfl, fun i hi => absurd hi (Nat.not_lt_zero i)⟩
  | failed short fails => exact ⟨0, rfl, fails, fun i hi => absurd hi (Nat.not_lt_zero i)⟩
  | @stepped cycles spent n console outcome short succeeds rest ih =>
    have hMost := (result_bounds succeeds).2
    cases outcome with
    | finished total =>
      obtain ⟨hReach, hTotal, hSum, hAll⟩ := ih
      refine ⟨hReach, by omega, ?_, succeeds_cons succeeds hAll⟩
      rw [history_cons, List.map_cons, List.sum_cons, returned_of_result succeeds, hSum,
        Nat.add_assoc]
    | faulted fault =>
      obtain ⟨last, rfl, hFault, hAll⟩ := ih
      refine ⟨last + 1, rfl, ?_, succeeds_cons succeeds hAll⟩
      rw [← after_step]
      exact hFault
    | exhausted => exact ih

section

variable {m : Type → Type} [Monad m] [LawfulMonad m] (observe : Event → m Unit)
  (log : Log.Record → m Unit)

theorem runSteps_short (h : cycles < budget) (horizon : Nat) (console : Console) :
    runSteps (machine probes observe log) budget (horizon + 1) cycles console = (do
      (console.shown probes).forM observe
      match console.result probes with
      | .ok spent =>
        runSteps (machine probes observe log) budget horizon (cycles + spent)
          (console.step probes).2
      | .error fault => return (.faulted fault, (console.step probes).2)) := by
  conv => lhs; unfold runSteps
  rw [if_neg (Nat.not_le.2 h), machine_step, bind_assoc]
  refine congrArg _ (funext fun _ => ?_)
  rw [pure_bind]
  cases console.result probes with
  | ok spent => rfl
  | error fault => rfl

/-- The events of an epoch are shown step by step, and the horizon has no part in it. -/
theorem Epoch.runSteps_eq (h : Epoch probes budget cycles console n outcome) {horizon : Nat}
    (hHorizon : n ≤ horizon) :
    runSteps (machine probes observe log) budget horizon cycles console = (do
      ((history probes console n).flatMap (shown probes)).forM observe
      return (outcome, after probes console n)) := by
  induction h generalizing horizon with
  | @reached cycles console done =>
    have hNone : (history probes console 0).flatMap (shown probes) = [] := rfl
    rw [hNone]
    cases horizon with
    | zero => simp [runSteps, done, after]
    | succ horizon => simp [runSteps, done, after]
  | @failed cycles console fault short fails =>
    obtain ⟨horizon, rfl⟩ := Nat.exists_eq_add_of_le' hHorizon
    have hOne : (history probes console 1).flatMap (shown probes) = console.shown probes :=
      List.append_nil _
    rw [runSteps_short observe log short, fails, hOne]
    rfl
  | @stepped cycles spent n console outcome short succeeds rest ih =>
    obtain ⟨more, rfl⟩ := Nat.exists_eq_add_of_le hHorizon
    rw [Nat.add_right_comm, runSteps_short observe log short, succeeds, history_cons,
      List.flatMap_cons, ← after_step]
    simp [ih (Nat.le_add_right n more)]

theorem Epoch.runEpoch_finished {total : Nat}
    (h : Epoch probes budget 0 console n (.finished total)) (host : Host m) {horizon : Nat}
    (hHorizon : n ≤ horizon) :
    runEpoch (machine probes observe log) host budget horizon console = (do
      let start ← host.now
      ((history probes console n).flatMap (shown probes)).forM observe
      let stop ← host.now
      return (.finished (.measure total (stop - start) budget), after probes console n)) := by
  unfold runEpoch
  refine congrArg _ (funext fun start => ?_)
  rw [h.runSteps_eq observe log hHorizon, bind_assoc]
  refine congrArg _ (funext fun _ => ?_)
  rw [pure_bind]

theorem Epoch.runEpoch_faulted {fault : Cpu.Fault}
    (h : Epoch probes budget 0 console n (.faulted fault)) (host : Host m) {horizon : Nat}
    (hHorizon : n ≤ horizon) :
    runEpoch (machine probes observe log) host budget horizon console = (do
      let _ ← host.now
      ((history probes console n).flatMap (shown probes)).forM observe
      return (.faulted fault, after probes console n)) := by
  unfold runEpoch
  refine congrArg _ (funext fun start => ?_)
  rw [h.runSteps_eq observe log hHorizon, bind_assoc]
  refine congrArg _ (funext fun _ => ?_)
  rw [pure_bind]

end

end

/-- What steps cost, and what follows for epochs.  A completed step of the processor takes seven
cycles when it enters an interrupt, else the base cost of the opcode and what its operand or branch
costs, two to seven in all; a step of the console takes what its processor's step takes, or the
cycles of a transfer.  An epoch makes at most half as many steps as its budget has cycles, rounded
up, a failing one included; when none fails its cycles reach the budget and exceed it by at most
513.  What an epoch shows and returns does not depend on a horizon that leaves room for its
steps. -/
theorem costs_bound_epochs :
    (∀ (β : Type) [Cpu.Bus β] (cpu : Cpu) (bus : β) (cycles : Nat) (next : Cpu),
      (cpu.step.run bus).1 = .ok (cycles, next) →
        cpu.Costs (cpu.step.accesses bus) cycles next) ∧
    (∀ (probes : Probes) (console : Console) (quantum : Quantum),
      (console.step probes).1 = .ok quantum → console.QuantumCost quantum.cycles) ∧
    (∀ (probes : Probes) (console : Console) (budget : Nat), budget + 513 < 2 ^ 64 →
      ∃ n ≤ (budget + 1) / 2,
        (∃ cycles, budget ≤ cycles ∧ cycles ≤ budget + 513 ∧ cycles < 2 ^ 64 ∧
          cycles = ((history probes console n).map (returned probes)).sum ∧
          (∀ i < n, ∃ spent, (after probes console i).result probes = .ok spent) ∧
          ∀ (m : Type → Type) [Monad m] [LawfulMonad m] (observe : Event → m Unit)
            (log : Log.Record → m Unit) (host : Host m) (horizon : Nat), n ≤ horizon →
            runEpoch (machine probes observe log) host budget horizon console = (do
              let start ← host.now
              ((history probes console n).flatMap (shown probes)).forM observe
              let stop ← host.now
              return (.finished (.measure cycles (stop - start) budget),
                after probes console n))) ∨
        ∃ fault last, n = last + 1 ∧
          (after probes console last).result probes = .error fault ∧
          (∀ i < last, ∃ spent, (after probes console i).result probes = .ok spent) ∧
          ∀ (m : Type → Type) [Monad m] [LawfulMonad m] (observe : Event → m Unit)
            (log : Log.Record → m Unit) (host : Host m) (horizon : Nat), n ≤ horizon →
            runEpoch (machine probes observe log) host budget horizon console = (do
              let _ ← host.now
              ((history probes console n).flatMap (shown probes)).forM observe
              return (.faulted fault, after probes console n))) := by
  refine ⟨fun β _ cpu bus cycles next h => Cpu.costs_of_step h,
    fun probes console quantum h => quantumCost_of_ok h, fun probes console budget hBudget => ?_⟩
  obtain ⟨n, hn, outcome, hEpoch⟩ :=
    exists_epoch probes (show budget ≤ 0 + 2 * ((budget + 1) / 2) by omega) console
  refine ⟨n, hn, ?_⟩
  have hSteps := hEpoch.steps
  cases outcome with
  | finished cycles =>
    obtain ⟨hReach, hMost, hSum, hAll⟩ := hSteps
    rw [Nat.zero_max] at hMost
    rw [Nat.zero_add] at hSum
    refine .inl ⟨cycles, hReach, hMost, by omega, hSum, hAll, ?_⟩
    intro m _ _ observe log host horizon hHorizon
    exact hEpoch.runEpoch_finished observe log host hHorizon
  | faulted fault =>
    obtain ⟨last, hLast, hFault, hAll⟩ := hSteps
    refine .inr ⟨fault, last, hLast, hFault, hAll, ?_⟩
    intro m _ _ observe log host horizon hHorizon
    exact hEpoch.runEpoch_faulted observe log host hHorizon
  | exhausted => exact hSteps.elim

/-- A console on an odd cycle with a transfer requested.  Its program, all of the cartridge, reads
with an index that carries the address over the end of memory. -/
def lateTransfer : Console :=
  let cartridge : Cartridge :=
    ⟨#[0xBD, 0xFF, 0xFF], #[], .nrom, .vertical, false, none, by decide⟩
  ⟨⟨⟨0, 1, 0, 0xFD, 0x8000, 0x24⟩, 7, false, false⟩,
    { SystemBus.powerOn cartridge with dmaPage := some 2 }, 1⟩

/-- The most that an epoch can exceed its budget by. -/
theorem costs_bound_epochs_late_transfer :
    (∃ next, (lateTransfer.cpu.step.run lateTransfer.bus).1 = .ok (5, next) ∧
      next.cycles = lateTransfer.cpu.cycles + 5) ∧
    ∃ sample last, runEpoch (m := Id) (machine Probes.none (fun _ => pure ()) (fun _ => pure ()))
      ⟨pure 0, fun _ => pure (), pure false, fun _ => pure ()⟩ 1 1 lateTransfer =
        (.finished sample, last) ∧ sample.cycles = 1 + 513 := by
  obtain ⟨hProcessor, hConsole, hEpoch⟩ := costs_bound_epochs
  have hRead : (lateTransfer.cpu.step.run lateTransfer.bus).1 =
      .ok (5, ⟨⟨0, 1, 0, 0xFD, 0x8003, 0x26⟩, 12, false, false⟩) := rfl
  refine ⟨⟨_, hRead, (hProcessor _ _ _ _ _ hRead).counted⟩, ?_⟩
  have hTurn : lateTransfer.turn = .ok (lateTransfer.transferTurn 2) := rfl
  have hStep := step_of_turn hTurn Probes.none
  have hCost := (hConsole Probes.none lateTransfer _ (congrArg Prod.fst hStep)).transfer (by decide)
  have hReturned : lateTransfer.returned Probes.none = 514 := (returned_of_turn hTurn _).trans hCost
  have hResult : lateTransfer.result Probes.none = .ok 514 := by
    rw [result, hStep]
    exact congrArg Except.ok hCost
  obtain ⟨n, hn, ⟨cycles, hReach, -, -, hSum, -, hRun⟩ | ⟨fault, last, rfl, hFault, -⟩⟩ :=
    hEpoch Probes.none lateTransfer 1 (by decide)
  · -- The transfer alone reaches the budget, so it is the only step.
    obtain rfl : n = 1 := by
      cases n with
      | zero => simp [history, hSum] at hReach
      | succ n => omega
    obtain rfl : cycles = 514 := by simpa [history, after, hReturned] using hSum
    exact ⟨_, _, hRun Id _ _ _ 1 (Nat.le_refl 1), rfl⟩
  · obtain rfl : last = 0 := by omega
    rw [after, hResult] at hFault
    cases hFault

end Famicom.Console
