import Famicom.Console.Bus
import Famicom.Console.Event

/-!
# The console

Processor, picture processor and mapper in lockstep: every cycle of the processor is followed by
three dots, and every dot is observed by the mapper.  A step is one quantum of the processor: a
requested sprite transfer if there is one, else an instruction or an interrupt entry.  A step
that faults runs no dots and shows nothing.
-/

namespace Famicom

def processorHz : Nat := 1789773

def dotsPerCycle : Nat := 3

/-- The cycles of a sprite transfer that starts on an even cycle. -/
def dmaCycles : Nat := 513

structure Console where
  cpu : Cpu
  bus : SystemBus
  /-- Cycles since reset, those of sprite transfers included. -/
  totalCycles : Nat

namespace Console

/-- A console with a cartridge when power comes on; it has to be reset before it is stepped. -/
def powerOn (cartridge : Cartridge) : Console :=
  ⟨.powerOn, .powerOn cartridge, 0⟩

/-- Resets the console; a requested transfer is dropped and memories stay. -/
def reset (console : Console) : Console :=
  let bus := { console.bus with ppu := console.bus.ppu.reset, dmaPage := none }
  let (cpu, bus) := Cpu.reset.run bus
  ⟨cpu, bus, 0⟩

def resetRecord (console : Console) : Log.Record :=
  ⟨.debug, logTarget,
    s!"reset: vector ${Text.hexWord Cpu.resetVector} -> " ++
      s!"${Text.hexWord console.cpu.registers.pc}, {console.bus.board.mapper.kind.title}"⟩

/-! ### Dots -/

/-- What dots act on: the picture processor, the board, the interrupt latch of the processor and
the events so far. -/
structure Video where
  ppu : Ppu
  board : Board
  nmiLatched : Bool
  events : Array Event

@[inline] def note (events : Array Event) (on : Bool) (event : Unit → Event) : Array Event :=
  if on then events.push (event ()) else events

def Video.dot (probes : Probes) (video : Video) : Video :=
  match video with
  | ⟨ppu, board, nmiLatched, events⟩ =>
    let (complete, ppu, board) := ppu.tick board
    let events := note events probes.ppu fun _ => .ppu ppu.snapshot
    let board := board.observe ppu.position
    let events := note events probes.mapper fun _ => .mapper board.banking
    let events := note events complete fun _ => .frame ppu.frame
    let (nmi, ppu) := ppu.takeNmi
    ⟨ppu, board, nmiLatched || nmi, events⟩

def Video.dots (probes : Probes) : Nat → Video → Video
  | 0, video => video
  | n + 1, video => Video.dots probes n (video.dot probes)

/-! ### Steps -/

structure Quantum where
  cycles : Nat
  events : Array Event

/-- The cycles of a sprite transfer: one more when it starts on an odd cycle. -/
def dmaCost (totalCycles : Nat) : Nat :=
  dmaCycles + totalCycles % 2

/-- Completes a step of the processor: lets the dots run and samples the interrupt line. -/
def settle (probes : Probes) (cpu : Cpu) (bus : SystemBus) (total cycles : Nat)
    (events : Array Event) : Quantum × Console :=
  let events := note events probes.cpu fun _ => .cpu cpu
  match bus with
  | ⟨ram, ppu, board, dmaPage, openBus⟩ =>
    match Video.dots probes (dotsPerCycle * cycles) ⟨ppu, board, cpu.nmiLatched, events⟩ with
    | ⟨ppu, board, nmiLatched, events⟩ =>
      let cpu := { cpu with nmiLatched := nmiLatched, irqLine := board.irq }
      (⟨cycles, events⟩, ⟨cpu, ⟨ram, ppu, board, dmaPage, openBus⟩, total + cycles⟩)

def step (probes : Probes) (console : Console) : Except Cpu.Fault Quantum × Console :=
  match console with
  | ⟨cpu, bus, total⟩ =>
    match bus.takeDma with
    | (some page, bus) =>
      let cycles := dmaCost total
      let (quantum, console) :=
        settle probes cpu (bus.runDma page) total cycles #[.dma page cycles]
      (.ok quantum, console)
    | (none, bus) =>
      match cpu.step.run bus with
      | (.ok (cycles, cpu), bus) =>
        let (quantum, console) := settle probes cpu bus total cycles #[]
        (.ok quantum, console)
      | (.error fault, bus) => (.error fault, ⟨cpu, bus, total⟩)

end Console

end Famicom
