import Famicom.Console.Machine
import Famicom.Proofs.Console.Run
import Famicom.Proofs.Cpu.Fault
import Famicom.Proofs.Ppu.PatternReads

/-!
# Faults

A step faults after it has fetched an opcode, and the fetch is all it has done: the processor, the
counters and the cartridge are as before, and nothing was shown.  Where the fetch has no effect of
its own, the console faults in the same way at every later step.
-/

namespace Famicom

/-! ### Fetches without an effect -/

namespace SystemBus

/-- The address is in memory: neither a register of the picture processor nor one of sound and
controllers answers there. -/
def InMemory (address : UInt16) : Prop :=
  address < 0x2000 ∨ 0x4020 ≤ address

theorem read_cartridge (bus : SystemBus) {address : UInt16} (h : 0x4020 ≤ address) :
    bus.read address =
      (bus.board.read address, { bus with openBus := bus.board.read address }) := by
  have hAbove (bound : UInt16) (hBound : bound ≤ 0x4020) : ¬address < bound :=
    UInt16.not_lt.2 (UInt16.le_trans hBound h)
  have hPads : ¬(address = 0x4016 ∨ address = 0x4017) := by
    rintro (rfl | rfl)
    · exact absurd h (by decide)
    · exact absurd h (by decide)
  obtain ⟨ram, ppu, board, dmaPage, openBus⟩ := bus
  simp only [read, hAbove 0x2000 (by decide), hAbove 0x4000 (by decide),
    hAbove 0x4020 (by decide), hPads, ↓reduceIte]

/-- Memory answers with a byte that does not depend on what was seen before, and the byte stays on
the bus. -/
theorem read_inMemory (bus : SystemBus) {address : UInt16} (h : InMemory address)
    (seen : UInt8) :
    { bus with openBus := seen }.read address =
      ((bus.read address).1, { bus with openBus := (bus.read address).1 }) := by
  rcases h with hLow | hHigh
  · obtain ⟨ram, ppu, board, dmaPage, openBus⟩ := bus
    simp only [read, hLow, ↓reduceIte]
  · rw [bus.read_cartridge hHigh]
    exact read_cartridge { bus with openBus := seen } hHigh

theorem read_board (bus : SystemBus) (address : UInt16) :
    (bus.read address).2.board = bus.board := by
  obtain ⟨ram, ppu, board, dmaPage, openBus⟩ := bus
  simp only [read]
  split
  · rfl
  · split
    · exact ppu.readRegister_board board address
    · split
      · rfl
      · split <;> rfl

end SystemBus

namespace Console

/-! ### Steps of the console -/

def result (probes : Probes) (console : Console) : Except Cpu.Fault Nat :=
  (console.step probes).1.map Quantum.cycles

/-- The surroundings are shown the events of a step in order, and then get its result. -/
theorem machine_step {m : Type → Type} [Monad m] [LawfulMonad m] (probes : Probes)
    (observe : Event → m Unit) (log : Log.Record → m Unit) (console : Console) :
    (machine probes observe log).step console = (do
      (console.shown probes).forM observe
      return (console.result probes, (console.step probes).2)) := by
  simp only [machine, shown, result]
  generalize console.step probes = stepped
  obtain ⟨⟨fault⟩ | ⟨cycles, ⟨events⟩⟩, next⟩ := stepped
  · simp [Except.map]
  · simp [Except.map]

theorem turn_of_error {probes : Probes} {console : Console} {fault : Cpu.Fault}
    (h : (console.step probes).1 = .error fault) : console.turn = .error fault := by
  cases hTurn : console.turn with
  | ok t =>
    rw [step_of_turn hTurn] at h
    cases h
  | error other =>
    rw [(step_of_fault hTurn probes).2.2] at h
    cases h
    rfl

theorem step_of_refuses {console : Console} (hPage : console.bus.dmaPage = none)
    (h : console.cpu.Refuses console.bus) (probes : Probes) :
    let pc := console.cpu.registers.pc
    console.step probes = (.error (Cpu.faultAt (console.bus.read pc).1 pc),
      { console with bus := (console.bus.read pc).2 }) := by
  intro pc
  have hRun : console.cpu.step.run console.bus =
      (.error (Cpu.faultAt (console.bus.read pc).1 pc), (console.bus.read pc).2) := h.run
  have hTurn : console.turn = .error (Cpu.faultAt (console.bus.read pc).1 pc) := by
    simp only [turn, hPage, hRun]
  rw [(step_of_fault hTurn probes).2.2, hRun]

/-- A fetch from memory finds the same opcode again and then changes nothing at all. -/
theorem step_refused_again {console : Console} (hPage : console.bus.dmaPage = none)
    (hRefuses : console.cpu.Refuses console.bus)
    (hMemory : SystemBus.InMemory console.cpu.registers.pc) (probes : Probes) :
    let opcode := (console.bus.read console.cpu.registers.pc).1
    let next : Console := { console with bus := { console.bus with openBus := opcode } }
    next.step probes = (.error (Cpu.faultAt opcode console.cpu.registers.pc), next) := by
  intro opcode next
  have hRead : next.bus.read console.cpu.registers.pc = (opcode, next.bus) :=
    console.bus.read_inMemory hMemory opcode
  have hAgain : next.cpu.Refuses next.bus := by
    refine ⟨hRefuses.nmi, hRefuses.irq, ?_⟩
    show Cpu.Undecoded (next.bus.read console.cpu.registers.pc).1
    rw [hRead]
    exact hRefuses.undecoded
  have hStep := @step_of_refuses next hPage hAgain probes
  dsimp only at hStep
  rw [hStep]
  show (Except.error (Cpu.faultAt (next.bus.read console.cpu.registers.pc).1 _),
    ({ next with bus := (next.bus.read console.cpu.registers.pc).2 } : Console)) = _
  rw [hRead]

theorem after_of_fixed {probes : Probes} {console : Console}
    (h : (console.step probes).2 = console) (n : Nat) : after probes console n = console := by
  induction n with
  | zero => rfl
  | succ n ih => rw [after, ih, h]

/-- A step that faults had no transfer to make, leaves processor, counter, beam and cartridge as
they were, and has made one access, the read of the opcode; the surroundings are shown nothing.
The opcode is one that no instruction has, and decides on the fault.  Where memory answered the
read, the byte left on the bus is all that the step changed, and every later step faults in the
same way and changes nothing. -/
theorem fault_is_permanent (probes : Probes) (console : Console) (fault : Cpu.Fault)
    (h : (console.step probes).1 = .error fault) :
    let next := (console.step probes).2
    let pc := console.cpu.registers.pc
    let opcode := (console.bus.read pc).1
    console.bus.dmaPage = none ∧ next.cpu = console.cpu ∧
      next.totalCycles = console.totalCycles ∧ next.bus.board = console.bus.board ∧
      next.bus.ppu.raster = console.bus.ppu.raster ∧ console.ticks probes = [] ∧
      console.cpu.step.accesses console.bus = [.read pc opcode] ∧
      next.bus = (console.bus.read pc).2 ∧
      (∀ (m : Type → Type) [Monad m] [LawfulMonad m] (observe : Event → m Unit)
        (log : Log.Record → m Unit),
        (machine probes observe log).step console = pure (.error fault, next)) ∧
      Cpu.Undecoded opcode ∧
      fault = (if opcode ∈ Cpu.jamCodes then .jam opcode pc else .unsupported opcode pc) ∧
      (pc < 0x2000 ∨ 0x4020 ≤ pc →
        next = { console with bus := { console.bus with openBus := opcode } } ∧
          ∀ n, after probes next n = next ∧
            (after probes next n).step probes = (.error fault, next)) := by
  intro next pc opcode
  have hTurn := turn_of_error h
  have hFaulted := faulted_of_turn hTurn probes
  have hRefuses := Cpu.refuses_of_error (step_of_fault hTurn probes).2.1
  have hStep := step_of_refuses hFaulted.request hRefuses probes
  dsimp only at hStep
  have hFault : fault = Cpu.faultAt opcode pc := by
    rw [hStep] at h
    exact (Except.error.inj h).symm
  have hBus : next.bus = (console.bus.read pc).2 := congrArg (fun s => s.2.bus) hStep
  refine ⟨hFaulted.request, hFaulted.cpu, hFaulted.totalCycles, ?_, hFaulted.bus.raster,
    hFaulted.ticks, hRefuses.accesses, hBus, ?_, hRefuses.undecoded, hFault, ?_⟩
  · rw [hBus]
    exact console.bus.read_board pc
  · intro m _ _ observe log
    rw [machine_step, hFaulted.shown, result, h]
    simp [Except.map, next]
  · intro hMemory
    have hSeen : (console.bus.read pc).2 = { console.bus with openBus := opcode } :=
      congrArg Prod.snd (console.bus.read_inMemory hMemory console.bus.openBus)
    have hNext : next = { console with bus := { console.bus with openBus := opcode } } := by
      rw [← hSeen]
      exact congrArg Prod.snd hStep
    have hAgain : next.step probes = (.error fault, next) := by
      rw [hNext, hFault]
      exact step_refused_again hFaulted.request hRefuses hMemory probes
    have hStays (n : Nat) : after probes next n = next := after_of_fixed (by rw [hAgain]) n
    refine ⟨hNext, ?_⟩
    intro n
    rw [hStays n]
    exact ⟨rfl, hAgain⟩

/-- A cartridge whose one byte is its reset vector and the opcode found there. -/
def jammedCartridge : Cartridge :=
  ⟨#[0x92], #[], .nrom, .vertical, false, none, by decide⟩

theorem fault_is_permanent_jam :
    let start := (powerOn jammedCartridge).reset
    let next := (start.step Probes.none).2
    (start.step Probes.none).1 = .error (.jam 0x92 0x9292) ∧
      start.cpu.step.accesses start.bus = [.read 0x9292 0x92] ∧ next.cpu = start.cpu ∧
      ∀ n, after Probes.none next n = next ∧
        (after Probes.none next n).step Probes.none = (.error (.jam 0x92 0x9292), next) := by
  intro start next
  have hFault : (start.step Probes.none).1 = .error (.jam 0x92 0x9292) := rfl
  have hPc : start.cpu.registers.pc = 0x9292 := by decide +kernel
  have hOpcode : (start.bus.read 0x9292).1 = 0x92 := by decide +kernel
  obtain ⟨-, hCpu, -, -, -, -, hAccesses, -, -, -, -, hLater⟩ :=
    fault_is_permanent Probes.none start (.jam 0x92 0x9292) hFault
  rw [hPc, hOpcode] at hAccesses
  rw [hPc] at hLater
  exact ⟨hFault, hAccesses, hCpu, (hLater (.inr (by decide))).2⟩

end Console

end Famicom
