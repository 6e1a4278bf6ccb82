import Famicom.Console.Step
import Famicom.Proofs.Console.Bus
import Famicom.Proofs.Cpu.Cost

/-!
# Runs of the console

A run is the sequence of consoles that repeated steps lead through, whether a step succeeds or
faults.  A step is cut in two: the processor's turn, which is a sprite transfer or one step of the
processor, and the dots that follow it.  For a step of a run this module names what can be
counted: the ticks, the writes of the processor, the frames and transfers shown.
-/

namespace Famicom.Console

/-! ### Dots -/

def Event.isFrame : Event → Bool
  | .frame _ => true
  | _ => false

def Event.transfer? : Event → Option UInt8
  | .dma page _ => some page
  | _ => none

/-- All that a dot does to picture processor, interrupt latch and events, save for composing lines
and moving the scroll position. -/
structure Video.Dotted (before after : Video) : Prop where
  setup : Ppu.SameSetup before.ppu after.ppu
  raster : after.ppu.raster = before.ppu.raster.advance before.ppu.mask.rendering
  nmiPending : after.ppu.nmiPending = false
  nmiLatched : after.nmiLatched =
    (before.nmiLatched || (before.ppu.nmiPending || before.ppu.raisesAtTick))
  vblank : after.ppu.status.vblank = Ppu.vblankAt after.ppu.raster before.ppu.status.vblank
  frames : after.events.toList.countP Event.isFrame =
    before.events.toList.countP Event.isFrame + (after.ppu.raster.isAt Ppu.vblankLine 1).toNat
  transfers : after.events.toList.filterMap Event.transfer? =
    before.events.toList.filterMap Event.transfer?

theorem countP_note (events : Array Event) (on : Bool) (event : Unit → Event) :
    (note events on event).toList.countP Event.isFrame =
      events.toList.countP Event.isFrame + (on && (event ()).isFrame).toNat := by
  cases on with
  | true =>
    cases hFrame : (event ()).isFrame <;> simp [note, hFrame]
  | false => rfl

theorem filterMap_note (events : Array Event) (on : Bool) (event : Unit → Event)
    (h : (event ()).transfer? = none) :
    (note events on event).toList.filterMap Event.transfer? =
      events.toList.filterMap Event.transfer? := by
  cases on with
  | true => simp [note, h]
  | false => rfl

theorem dot_dotted (probes : Probes) (video : Video) : video.Dotted (video.dot probes) := by
  obtain ⟨ppu, board, nmiLatched, events⟩ := video
  have hTick := ppu.tick_ticked board
  simp only [Video.dot, Ppu.takeNmi_eq]
  refine ⟨?_, hTick.raster, rfl, ?_, hTick.vblank, ?_, ?_⟩
  · exact hTick.setup.trans (by constructor <;> rfl)
  · rw [hTick.nmiPending]
  · rw [countP_note, countP_note, countP_note, hTick.complete]
    simp [Event.isFrame]
  · rw [filterMap_note _ _ _ rfl, filterMap_note _ _ _ rfl, filterMap_note _ _ _ rfl]

theorem dots_succ (probes : Probes) (n : Nat) (video : Video) :
    Video.dots probes (n + 1) video = (Video.dots probes n video).dot probes := by
  induction n generalizing video with
  | zero => rfl
  | succ n ih => exact ih (video.dot probes)

/-! ### Turns -/

/-- What the processor's turn leaves: the processor, the bus, the cycles taken and the events
shown so far. -/
structure Turn where
  cpu : Cpu
  bus : SystemBus
  cycles : Nat
  events : Array Event

def transferTurn (console : Console) (page : UInt8) : Turn :=
  ⟨console.cpu, console.bus.takeDma.2.runDma page, dmaCost console.totalCycles,
    #[.dma page (dmaCost console.totalCycles)]⟩

def turn (console : Console) : Except Cpu.Fault Turn :=
  match console.bus.dmaPage with
  | some page => .ok (console.transferTurn page)
  | none =>
    match console.cpu.step.run console.bus with
    | (.ok (cycles, cpu), bus) => .ok ⟨cpu, bus, cycles, #[]⟩
    | (.error fault, _) => .error fault

namespace Turn

def dots (t : Turn) : Nat :=
  dotsPerCycle * t.cycles

def video (t : Turn) (probes : Probes) : Video :=
  ⟨t.bus.ppu, t.bus.board, t.cpu.nmiLatched, note t.events probes.cpu fun _ => .cpu t.cpu⟩

def videoAfter (t : Turn) (probes : Probes) (n : Nat) : Video :=
  Video.dots probes n (t.video probes)

def videoEnd (t : Turn) (probes : Probes) : Video :=
  t.videoAfter probes t.dots

def settled (t : Turn) (probes : Probes) (total : Nat) : Console :=
  let video := t.videoEnd probes
  ⟨{ t.cpu with nmiLatched := video.nmiLatched, irqLine := video.board.irq },
    { t.bus with ppu := video.ppu, board := video.board }, total + t.cycles⟩

theorem videoAfter_dotted (t : Turn) (probes : Probes) (n : Nat) :
    (t.videoAfter probes n).Dotted (t.videoAfter probes (n + 1)) := by
  unfold videoAfter
  rw [dots_succ]
  exact dot_dotted probes _

end Turn

theorem settle_eq (probes : Probes) (t : Turn) (total : Nat) :
    settle probes t.cpu t.bus total t.cycles t.events =
      (⟨t.cycles, (t.videoEnd probes).events⟩, t.settled probes total) :=
  rfl

theorem takeDma_of_none {bus : SystemBus} (h : bus.dmaPage = none) :
    bus.takeDma = (none, bus) := by
  obtain ⟨ram, ppu, board, dmaPage, openBus⟩ := bus
  obtain rfl : dmaPage = none := h
  rfl

theorem step_of_turn {console : Console} {t : Turn} (h : console.turn = .ok t) (probes : Probes) :
    console.step probes =
      (.ok ⟨t.cycles, (t.videoEnd probes).events⟩, t.settled probes console.totalCycles) := by
  obtain ⟨cpu, bus, total⟩ := console
  cases hPage : bus.dmaPage with
  | some page =>
    have hTake : bus.takeDma = (some page, bus.takeDma.2) := by rw [← hPage]; rfl
    have hTurn : transferTurn ⟨cpu, bus, total⟩ page = t := by
      simpa only [turn, hPage, Except.ok.injEq] using h
    have hSettle := settle_eq probes t total
    rw [← hTurn] at hSettle ⊢
    simp only [transferTurn] at hSettle
    simp only [step]
    rw [hTake]
    dsimp only
    rw [hSettle]
    rfl
  | none =>
    simp only [turn, hPage] at h
    simp only [step, takeDma_of_none hPage]
    cases hRun : cpu.step.run bus with
    | mk result bus' =>
      rw [hRun] at h
      cases result with
      | error fault => cases h
      | ok taken =>
        obtain ⟨cycles, cpu'⟩ := taken
        obtain rfl := Except.ok.inj h
        rfl

/-- A step whose turn faults keeps processor and counters and leaves the bus as the fetch of the
opcode left it. -/
theorem step_of_fault {console : Console} {fault : Cpu.Fault} (h : console.turn = .error fault)
    (probes : Probes) :
    console.bus.dmaPage = none ∧ (console.cpu.step.run console.bus).1 = .error fault ∧
      console.step probes =
        (.error fault, { console with bus := (console.cpu.step.run console.bus).2 }) := by
  obtain ⟨cpu, bus, total⟩ := console
  cases hPage : bus.dmaPage with
  | some page => simp [turn, hPage] at h
  | none =>
    simp only [turn, hPage] at h
    simp only [step, takeDma_of_none hPage]
    cases hRun : cpu.step.run bus with
    | mk result bus' =>
      rw [hRun] at h
      cases result with
      | ok taken => cases h
      | error fault' =>
        obtain rfl := Except.error.inj h
        exact ⟨trivial, rfl, rfl⟩

/-- All that a turn can be: the transfer that was requested, or a step of the processor when none
was. -/
theorem turn_cases {console : Console} {t : Turn} (h : console.turn = .ok t) :
    (∃ page, console.bus.dmaPage = some page ∧ t = console.transferTurn page) ∨
    (console.bus.dmaPage = none ∧ t.events = #[] ∧
      console.cpu.step.run console.bus = (.ok (t.cycles, t.cpu), t.bus)) := by
  cases hPage : console.bus.dmaPage with
  | some page =>
    have hTurn : console.transferTurn page = t := by simpa [turn, hPage] using h
    exact .inl ⟨page, rfl, hTurn.symm⟩
  | none =>
    simp only [turn, hPage] at h
    cases hRun : console.cpu.step.run console.bus with
    | mk result bus' =>
      rw [hRun] at h
      cases result with
      | error fault => cases h
      | ok taken =>
        obtain ⟨cycles, cpu'⟩ := taken
        obtain rfl := Except.ok.inj h
        exact .inr ⟨rfl, rfl, rfl⟩

/-! ### What a step shows and does -/

/-- The cycles that a step returns; none when it faults. -/
def returned (probes : Probes) (console : Console) : Nat :=
  match (console.step probes).1 with
  | .ok quantum => quantum.cycles
  | .error _ => 0

/-- The events that a step shows; none when it faults. -/
def shown (probes : Probes) (console : Console) : List Event :=
  match (console.step probes).1 with
  | .ok quantum => quantum.events.toList
  | .error _ => []

def isTransfer (console : Console) : Bool :=
  console.bus.dmaPage.isSome

/-- The picture processor as each tick of a step finds it, in order. -/
def ticks (probes : Probes) (console : Console) : List Ppu :=
  match console.turn with
  | .ok t => (List.range t.dots).map fun i => (t.videoAfter probes i).ppu
  | .error _ => []

/-- The writes of the processor in a step, in order; a transfer is none of its doing. -/
def writes (console : Console) : List (Cpu.Write SystemBus) :=
  if console.isTransfer then [] else console.cpu.step.writes console.bus

theorem isTransfer_of_some {console : Console} {page : UInt8}
    (h : console.bus.dmaPage = some page) : console.isTransfer = true := by
  rw [isTransfer, h]
  rfl

theorem isTransfer_of_none {console : Console} (h : console.bus.dmaPage = none) :
    console.isTransfer = false := by
  rw [isTransfer, h]
  rfl

theorem writes_of_some {console : Console} {page : UInt8} (h : console.bus.dmaPage = some page) :
    console.writes = [] := by
  rw [writes, isTransfer_of_some h, if_pos rfl]

theorem writes_of_none {console : Console} (h : console.bus.dmaPage = none) :
    console.writes = console.cpu.step.writes console.bus := by
  rw [writes, isTransfer_of_none h, if_neg Bool.false_ne_true]

theorem returned_of_turn {console : Console} {t : Turn} (h : console.turn = .ok t)
    (probes : Probes) : console.returned probes = t.cycles := by
  rw [returned, step_of_turn h]

theorem shown_of_turn {console : Console} {t : Turn} (h : console.turn = .ok t)
    (probes : Probes) : console.shown probes = (t.videoEnd probes).events.toList := by
  rw [shown, step_of_turn h]

theorem ticks_of_turn {console : Console} {t : Turn} (h : console.turn = .ok t)
    (probes : Probes) :
    console.ticks probes = (List.range t.dots).map fun i => (t.videoAfter probes i).ppu := by
  simp only [ticks, h]

/-- A step that faults returns, shows, ticks and writes nothing and leaves all as reads do. -/
structure Faulted (probes : Probes) (console : Console) : Prop where
  returned : console.returned probes = 0
  shown : console.shown probes = []
  ticks : console.ticks probes = []
  writes : console.writes = []
  request : console.bus.dmaPage = none
  cpu : (console.step probes).2.cpu = console.cpu
  totalCycles : (console.step probes).2.totalCycles = console.totalCycles
  bus : SystemBus.Calm console.bus (console.step probes).2.bus

theorem faulted_of_turn {console : Console} {fault : Cpu.Fault} (h : console.turn = .error fault)
    (probes : Probes) : console.Faulted probes := by
  obtain ⟨hPage, hRun, hStep⟩ := step_of_fault h probes
  have hNone : console.cpu.step.writes console.bus = [] :=
    Cpu.writes_of_error hRun
  have hBus := SystemBus.calm_run console.cpu.step console.bus hNone
  refine ⟨?_, ?_, ?_, ?_, hPage, ?_, ?_, ?_⟩
  · rw [Console.returned, hStep]
  · rw [Console.shown, hStep]
  · simp only [Console.ticks, h]
  · rw [writes_of_none hPage, hNone]
  · rw [hStep]
  · rw [hStep]
  · rw [hStep]
    exact hBus

theorem calm_transferTurn (console : Console) (page : UInt8) :
    SystemBus.Calm console.bus.takeDma.2 (console.transferTurn page).bus := by
  dsimp only [transferTurn]
  exact console.bus.takeDma.2.calm_runDma page

theorem sparing_writes {console : Console} (hPage : console.bus.dmaPage = none) :
    Cpu.Sparing (console.writes.map Cpu.Write.target) := by
  rw [writes_of_none hPage]
  exact console.cpu.sparing_step console.bus

theorem turn_raster {console : Console} {t : Turn} (h : console.turn = .ok t) :
    t.bus.ppu.raster = console.bus.ppu.raster := by
  rcases turn_cases h with ⟨page, -, rfl⟩ | ⟨-, -, hRun⟩
  · exact (console.calm_transferTurn page).raster
  · have hRaster := SystemBus.run_raster console.cpu.step console.bus
    rw [hRun] at hRaster
    exact hRaster

theorem turn_cycles {console : Console} {t : Turn} (h : console.turn = .ok t) :
    0 < t.cycles ∧ t.cycles ≤ 514 := by
  rcases turn_cases h with ⟨page, -, rfl⟩ | ⟨hPage, -, hRun⟩
  · simp only [transferTurn, dmaCost, dmaCycles]
    omega
  · have hCosts := Cpu.costs_of_step (congrArg Prod.fst hRun)
    have hLeast := hCosts.least
    have hMost := hCosts.most
    omega

/-! ### Runs -/

/-- The console after some steps of a run. -/
def after (probes : Probes) (start : Console) : Nat → Console
  | 0 => start
  | n + 1 => ((after probes start n).step probes).2

/-- The consoles on which the first steps of a run are made, in order. -/
def history (probes : Probes) (start : Console) (n : Nat) : List Console :=
  (List.range n).map (after probes start)

theorem history_succ (probes : Probes) (start : Console) (n : Nat) :
    history probes start (n + 1) = history probes start n ++ [after probes start n] := by
  simp [history, List.range_succ]

structure Fresh (console : Console) : Prop where
  totalCycles : console.totalCycles = 0
  cycles : console.cpu.cycles = Cpu.interruptCycles
  nmiLatched : console.cpu.nmiLatched = false
  request : console.bus.dmaPage = none
  place : console.bus.ppu.raster.place = 0
  odd : console.bus.ppu.raster.odd = false
  nmiPending : console.bus.ppu.nmiPending = false
  vblank : console.bus.ppu.status.vblank = false

theorem fresh_reset (console : Console) : console.reset.Fresh := by
  let bus := { console.bus with ppu := console.bus.ppu.reset, dmaPage := none }
  have hReset : console.reset = ⟨(Cpu.reset.run bus).1, (Cpu.reset.run bus).2, 0⟩ := rfl
  have hNone : Cpu.reset.writes bus = [] := rfl
  have hCalm := SystemBus.calm_run Cpu.reset bus hNone
  rw [hReset]
  refine ⟨rfl, rfl, rfl, hCalm.dmaPage, ?_, ?_, hCalm.nmiPending, ?_⟩
  · exact congrArg Ppu.Raster.place hCalm.raster
  · exact congrArg Ppu.Raster.odd hCalm.raster
  · have hDown : bus.ppu.status.vblank = false := (by decide : (Ppu.Status.mk 0).vblank = false)
    refine Bool.eq_false_iff.2 ?_
    intro hFlag
    exact Bool.false_ne_true (hDown.symm.trans (hCalm.vblank hFlag))

end Famicom.Console
