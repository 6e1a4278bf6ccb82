import Famicom.Proofs.Console.Snapshots
import Famicom.Proofs.Console.WorkMemory
import Famicom.Proofs.Ppu.FrameCount

/-!
# Resets

A reset clears the processor, the flags and latches of the picture processor and a requested
transfer.  It keeps the memories, and it also keeps some registers: the addresses and the byte
last seen of the picture processor, and all registers of the mapper.  A console that was used and
is reset then runs like a new one that was given the same memories and these registers, and like a
new one with the same memories where the registers hold what they hold when power comes on.
Without that a program can tell: one that reads video memory before it sets an address finds the
address that was in use before the reset.
-/

namespace Famicom

/-! ### More frames behind the beam -/

namespace SystemBus

def recount (k : Nat) (bus : SystemBus) : SystemBus :=
  { bus with ppu := bus.ppu.recount k }

variable (k : Nat) (bus : SystemBus)

theorem read_recount (address : UInt16) :
    (bus.recount k).read address =
      ((bus.read address).1, (bus.read address).2.recount k) := by
  obtain ⟨ram, ppu, board, dmaPage, openBus⟩ := bus
  simp only [recount, read, Ppu.readRegister_recount]
  split
  · rfl
  · split
    · rfl
    · split
      · rfl
      · split <;> rfl

theorem write_recount (address : UInt16) (value : UInt8) :
    (bus.recount k).write address value = (bus.write address value).recount k := by
  obtain ⟨ram, ppu, board, dmaPage, openBus⟩ := bus
  simp only [recount, write, Ppu.writeRegister_recount]
  split
  · rfl
  · split
    · rfl
    · split
      · rfl
      · split <;> rfl

theorem run_recount {α : Type} (m : Cpu.BusM α) :
    m.run (bus.recount k) = ((m.run bus).1, (m.run bus).2.recount k) := by
  induction m generalizing bus with
  | done value => rfl
  | read address next ih =>
    have hRead : Cpu.Bus.read (bus.recount k) address = _ := bus.read_recount k address
    simp only [Cpu.BusM.run, hRead]
    exact ih _ _
  | write address value next ih =>
    have hWrite : Cpu.Bus.write (bus.recount k) address value = _ :=
      bus.write_recount k address value
    simp only [Cpu.BusM.run, hWrite]
    exact ih _

theorem dmaByte_recount (address : UInt16) :
    (bus.recount k).dmaByte address = (bus.dmaByte address).recount k := by
  unfold dmaByte
  rw [read_recount]
  rfl

theorem runDma_recount (page : UInt8) :
    (bus.recount k).runDma page = (bus.runDma page).recount k := by
  unfold runDma
  generalize List.range 256 = offsets
  induction offsets generalizing bus with
  | nil => rfl
  | cons i rest ih => rw [List.foldl_cons, List.foldl_cons, dmaByte_recount, ih]

end SystemBus

namespace Console

/-- The count shows in the snapshots of the picture processor alone. -/
def Event.recount (k : Nat) : Event → Event
  | .ppu state => .ppu { state with frames := k + state.frames }
  | other => other

def Video.recount (k : Nat) (video : Video) : Video :=
  { video with ppu := video.ppu.recount k, events := video.events.map (Event.recount k) }

def Turn.recount (k : Nat) (t : Turn) : Turn :=
  { t with bus := t.bus.recount k }

def Quantum.recount (k : Nat) (quantum : Quantum) : Quantum :=
  { quantum with events := quantum.events.map (Event.recount k) }

def recount (k : Nat) (console : Console) : Console :=
  { console with bus := console.bus.recount k }

theorem note_recount (k : Nat) (events : Array Event) (on : Bool) (event : Unit → Event) :
    note (events.map (Event.recount k)) on (fun _ => (event ()).recount k) =
      (note events on event).map (Event.recount k) := by
  cases on with
  | true => exact Array.map_push.symm
  | false => rfl

theorem dot_recount (k : Nat) (probes : Probes) (video : Video) :
    (video.recount k).dot probes = (video.dot probes).recount k := by
  obtain ⟨ppu, board, nmiLatched, events⟩ := video
  simp only [Video.recount, Video.dot, Ppu.tick_recount, Ppu.takeNmi_eq]
  rw [← note_recount, ← note_recount, ← note_recount]
  rfl

theorem dots_recount (k : Nat) (probes : Probes) (n : Nat) (video : Video) :
    Video.dots probes n (video.recount k) = (Video.dots probes n video).recount k := by
  induction n generalizing video with
  | zero => rfl
  | succ n ih => rw [Video.dots, dot_recount, ih, Video.dots]

theorem turn_recount (k : Nat) (console : Console) :
    (console.recount k).turn = console.turn.map (Turn.recount k) := by
  have hPage : (console.recount k).bus.dmaPage = console.bus.dmaPage := rfl
  unfold turn
  rw [hPage]
  split
  · rename_i page _
    have hCopy : (console.recount k).bus.takeDma.2.runDma page =
        (console.bus.takeDma.2.runDma page).recount k :=
      SystemBus.runDma_recount k console.bus.takeDma.2 page
    unfold transferTurn
    rw [hCopy]
    -- What was copied stays closed: to open it would be to run the transfer.
    generalize console.bus.takeDma.2.runDma page = copied
    rfl
  · have hRun : (console.recount k).cpu.step.run (console.recount k).bus = _ :=
      console.bus.run_recount k console.cpu.step
    rw [hRun]
    cases console.cpu.step.run console.bus with
    | mk result bus => cases result <;> rfl

theorem turn_events_recount (k : Nat) {console : Console} {t : Turn} (h : console.turn = .ok t) :
    t.events.map (Event.recount k) = t.events := by
  rcases turn_events h with hNone | ⟨page, cycles, hTransfer⟩
  · rw [hNone, Array.map_empty]
  · rw [hTransfer, List.map_toArray]
    rfl

theorem videoEnd_recount (k : Nat) (probes : Probes) {t : Turn}
    (h : t.events.map (Event.recount k) = t.events) :
    (t.recount k).videoEnd probes = (t.videoEnd probes).recount k := by
  have hVideo : (t.recount k).video probes = (t.video probes).recount k := by
    have hNote := note_recount k t.events probes.cpu fun _ => .cpu t.cpu
    rw [h] at hNote
    exact congrArg (Video.mk (t.bus.ppu.recount k) t.bus.board t.cpu.nmiLatched) hNote
  unfold Turn.videoEnd Turn.videoAfter
  rw [hVideo, dots_recount]
  rfl

theorem step_recount (k : Nat) (probes : Probes) (console : Console) :
    (console.recount k).step probes =
      ((console.step probes).1.map (Quantum.recount k), (console.step probes).2.recount k) := by
  have hTurn := console.turn_recount k
  cases hHere : console.turn with
  | ok t =>
    rw [hHere] at hTurn
    have hVideo := videoEnd_recount k probes (turn_events_recount k hHere)
    rw [step_of_turn hTurn, step_of_turn hHere, Turn.settled, Turn.settled, hVideo]
    rfl
  | error fault =>
    rw [hHere] at hTurn
    rw [(step_of_fault hTurn probes).2.2, (step_of_fault hHere probes).2.2]
    have hRun : (console.recount k).cpu.step.run (console.recount k).bus = _ :=
      console.bus.run_recount k console.cpu.step
    rw [hRun]
    rfl

theorem after_recount (k : Nat) (probes : Probes) (console : Console) (n : Nat) :
    after probes (console.recount k) n = (after probes console n).recount k := by
  induction n with
  | zero => rfl
  | succ n ih => rw [after, ih, step_recount, after]

/-! ### What runs show -/

def Event.frame? : Event → Option Frame
  | .frame picture => some picture
  | _ => none

/-- Step by step, two consoles give the same results, the same states of the processor and the
same frames. -/
structure SameRun (probes : Probes) (a b : Console) : Prop where
  result : ∀ n, (after probes a n).result probes = (after probes b n).result probes
  cpu : ∀ n, (after probes a n).cpu = (after probes b n).cpu
  frames : ∀ n, ((after probes a n).shown probes).filterMap Event.frame? =
    ((after probes b n).shown probes).filterMap Event.frame?

theorem result_recount (k : Nat) (probes : Probes) (console : Console) :
    (console.recount k).result probes = console.result probes := by
  unfold result
  rw [step_recount]
  cases (console.step probes).1 <;> rfl

theorem shown_recount (k : Nat) (probes : Probes) (console : Console) :
    (console.recount k).shown probes = (console.shown probes).map (Event.recount k) := by
  unfold shown
  rw [step_recount]
  cases (console.step probes).1 with
  | ok quantum => exact Array.toList_map
  | error fault => rfl

theorem sameRun_recount (k : Nat) (probes : Probes) (console : Console) :
    SameRun probes (console.recount k) console where
  result n := by rw [after_recount, result_recount]
  cpu n := by
    rw [after_recount]
    rfl
  frames n := by
    have hFrame : Event.frame? ∘ Event.recount k = Event.frame? := by
      funext event
      cases event <;> rfl
    rw [after_recount, shown_recount, List.filterMap_map, hFrame]

end Console

/-! ### What belongs to the cartridge -/

namespace Board

/-- What nothing changes on a board. -/
def body (board : Board) : Array UInt8 × Bool × Mirroring :=
  (board.prg, board.chrWritable, board.wiring)

theorem body_write (board : Board) (address : UInt16) (value : UInt8) :
    (board.write address value).body = board.body := by
  unfold write
  split
  · rfl
  · split <;> rfl

theorem body_chrWrite (board : Board) (address : UInt16) (value : UInt8) :
    (board.chrWrite address value).body = board.body := by
  unfold chrWrite
  split <;> rfl

end Board

theorem SystemBus.body_read (bus : SystemBus) (address : UInt16) :
    (bus.read address).2.board.body = bus.board.body := by
  rw [bus.read_board]

theorem SystemBus.body_write (bus : SystemBus) (address : UInt16) (value : UInt8) :
    (bus.write address value).board.body = bus.board.body := by
  obtain ⟨ram, ppu, board, dmaPage, openBus⟩ := bus
  simp only [write]
  split
  · rfl
  · split
    · rcases ppu.writeRegister_bus board address value with hSame | ⟨place, hWrite⟩
      · exact congrArg Board.body hSame
      · exact (congrArg Board.body hWrite).trans (board.body_chrWrite place value)
    · split
      · rfl
      · split
        · rfl
        · exact board.body_write address value

theorem SystemBus.body_run {α : Type} (m : Cpu.BusM α) (bus : SystemBus) :
    (m.run bus).2.board.body = bus.board.body :=
  (Cpu.BusM.run_view (fun b : SystemBus => b.board.body) body_read body_write m bus).1

theorem SystemBus.body_runDma (bus : SystemBus) (page : UInt8) :
    (bus.runDma page).board.body = bus.board.body :=
  runDma_preserves (P := fun b => b.board.body = bus.board.body)
    (fun b address h => (b.body_read address).trans h) rfl page

namespace Console

theorem body_dots (probes : Probes) (n : Nat) (video : Video) :
    (Video.dots probes n video).board.body = video.board.body := by
  induction n generalizing video with
  | zero => rfl
  | succ n ih =>
    have hTick := congrArg Board.body (video.ppu.tick_board video.board)
    exact (ih _).trans hTick

theorem body_turn {console : Console} {t : Turn} (h : console.turn = .ok t) :
    t.bus.board.body = console.bus.board.body := by
  rcases turn_cases h with ⟨page, -, rfl⟩ | ⟨-, -, hRun⟩
  · exact console.bus.takeDma.2.body_runDma page
  · have hBody := SystemBus.body_run console.cpu.step console.bus
    rw [hRun] at hBody
    exact hBody

theorem body_perform (probes : Probes) (console : Console) (call : Call) :
    (console.perform probes call).bus.board.body = console.bus.board.body := by
  cases call with
  | reset => exact SystemBus.body_run Cpu.reset _
  | step =>
    show (console.step probes).2.bus.board.body = _
    cases hTurn : console.turn with
    | ok t =>
      rw [step_of_turn hTurn]
      exact (body_dots probes t.dots (t.video probes)).trans (body_turn hTurn)
    | error fault =>
      rw [(step_of_fault hTurn probes).2.2]
      exact SystemBus.body_run console.cpu.step console.bus

theorem body_calls (probes : Probes) (console : Console) (calls : List Call) :
    (calls.foldl (perform probes) console).bus.board.body = console.bus.board.body := by
  induction calls generalizing console with
  | nil => rfl
  | cons call rest ih => exact (ih _).trans (console.body_perform probes call)

/-! ### Resets -/

/-- The registers that a reset keeps. -/
structure Residue where
  current : Ppu.VramAddress
  pending : Ppu.VramAddress
  fineX : Fin 8
  oamAddress : UInt8
  openBus : UInt8
  mapper : Mapper
  deriving DecidableEq

def residue (console : Console) : Residue where
  current := console.bus.ppu.scroll.current
  pending := console.bus.ppu.scroll.pending
  fineX := console.bus.ppu.scroll.fineX
  oamAddress := console.bus.ppu.oamAddress
  openBus := console.bus.ppu.openBus
  mapper := console.bus.board.mapper

/-- The console with the registers of another that a reset keeps, and nothing else of it. -/
def withResidue (console : Console) (r : Residue) : Console :=
  let ppu := { console.bus.ppu with
    scroll := { console.bus.ppu.scroll with
      current := r.current
      pending := r.pending
      fineX := r.fineX }
    oamAddress := r.oamAddress
    openBus := r.openBus }
  let board := { console.bus.board with mapper := r.mapper }
  { console with bus := { console.bus with ppu := ppu, board := board } }

/-- The console with the memories of another, the pixels of its picture included, and nothing else
of it. -/
def withMemories (console other : Console) : Console :=
  let ppu := { console.bus.ppu with
    oam := other.bus.ppu.oam
    nametables := other.bus.ppu.nametables
    palette := other.bus.ppu.palette
    picture := other.bus.ppu.picture }
  let board := { console.bus.board with
    chr := other.bus.board.chr
    workRam := other.bus.board.workRam
    chr_pos := other.bus.board.chr_pos }
  { console with bus := { console.bus with ram := other.bus.ram, ppu := ppu, board := board } }

theorem withResidue_residue (console : Console) : console.withResidue console.residue = console :=
  rfl

theorem withMemories_residue (console other : Console) :
    (console.withMemories other).residue = console.residue :=
  rfl

/-- The vector is read from the cartridge, so that the byte last seen on the bus before a reset is
lost. -/
theorem reset_run_openBus (bus : SystemBus) (seen : UInt8) :
    Cpu.reset.run { bus with openBus := seen } = Cpu.reset.run bus := by
  have hVector : SystemBus.InMemory Cpu.resetVector := .inr (by decide)
  have hSame : Cpu.Bus.read { bus with openBus := seen } Cpu.resetVector =
      Cpu.Bus.read bus Cpu.resetVector :=
    (bus.read_inMemory hVector seen).trans (bus.read_inMemory hVector bus.openBus).symm
  show (Cpu.BusM.read Cpu.resetVector _).run _ = (Cpu.BusM.read Cpu.resetVector _).run _
  simp only [Cpu.BusM.run, hSame]

def cleared (console : Console) : SystemBus :=
  { console.bus with ppu := console.bus.ppu.reset, dmaPage := none }

theorem reset_eq (console : Console) :
    console.reset = ⟨(Cpu.reset.run console.cleared).1, (Cpu.reset.run console.cleared).2, 0⟩ :=
  rfl

theorem cleared_eq {cartridge : Cartridge} {used : Console}
    (h : used.bus.board.body = (Board.powerOn cartridge).body) :
    let new := ((powerOn cartridge).withMemories used).withResidue used.residue
    used.cleared = { new.cleared.recount used.bus.ppu.raster.frames with
      openBus := used.bus.openBus } := by
  obtain ⟨cpu, ⟨ram, ppu, board, dmaPage, openBus⟩, total⟩ := used
  obtain ⟨prg, chr, chrWritable, workRam, wiring, mapper, prg_pos, chr_pos⟩ := board
  simp only [Board.body, Prod.mk.injEq] at h
  obtain ⟨rfl, rfl, rfl⟩ := h
  -- The rest is the same field by field: a reset overwrites it, or it was handed over.
  rfl

/-- A reset console is a reset new one with the memories and the kept registers, but for the
frames counted so far. -/
theorem reset_eq_recount {cartridge : Cartridge} {used : Console}
    (h : used.bus.board.body = (Board.powerOn cartridge).body) :
    let new := ((powerOn cartridge).withMemories used).withResidue used.residue
    used.reset = new.reset.recount used.bus.ppu.raster.frames := by
  intro new
  rw [reset_eq used, cleared_eq h, reset_run_openBus, SystemBus.run_recount]
  rfl

/-- However a console was reset and stepped since power came on, once it is reset it runs like a
new console for its cartridge that was given its memories and the registers that a reset keeps:
nothing else from before the reset is left.  Where those registers hold what they hold when power
comes on, it runs like a new console that was given the memories alone. -/
theorem reset_keeps_only_residue (cartridge : Cartridge) (probes : Probes) (calls : List Call) :
    let used := calls.foldl (perform probes) (powerOn cartridge)
    let new := (powerOn cartridge).withMemories used
    SameRun probes used.reset (new.withResidue used.residue).reset ∧
      (used.residue = (powerOn cartridge).residue → SameRun probes used.reset new.reset) := by
  intro used new
  have hRun : SameRun probes used.reset (new.withResidue used.residue).reset := by
    rw [reset_eq_recount (body_calls probes (powerOn cartridge) calls)]
    exact sameRun_recount _ probes _
  refine ⟨hRun, ?_⟩
  intro hResidue
  rw [hResidue, ← withMemories_residue (powerOn cartridge) used, withResidue_residue] at hRun
  exact hRun

def countingCartridge : Cartridge :=
  ⟨#[0xE6, 0x00, 0x4C, 0x00, 0x80, 0, 0, 0, 0, 0, 0, 0, 0x00, 0x80, 0, 0], #[], .axrom, .vertical,
    false, none, by decide⟩

/-- The count goes on over a reset, as it would on a new console with that memory. -/
theorem reset_keeps_only_residue_counting :
    let used := [Call.reset, .step, .step, .step].foldl (perform Probes.none)
      (powerOn countingCartridge)
    used.residue = (powerOn countingCartridge).residue ∧ used.bus.ram.get ⟨0, by decide⟩ = 2 ∧
      SameRun Probes.none used.reset ((powerOn countingCartridge).withMemories used).reset := by
  intro used
  have hResidue : used.residue = (powerOn countingCartridge).residue := by decide +kernel
  have hCount : used.bus.ram.get ⟨0, by decide⟩ = 2 := by decide +kernel
  exact ⟨hResidue, hCount,
    (reset_keeps_only_residue countingCartridge Probes.none _).2 hResidue⟩

/-- A program that reads pattern memory twice, and only then sets the address to $0101. -/
def peekingCartridge : Cartridge :=
  ⟨#[0xAD, 0x07, 0x20, 0xAD, 0x07, 0x20, 0xA2, 0x01, 0x8E, 0x06, 0x20, 0x8E, 0x06, 0x20, 0x4C, 0x0E,
      0x80, 0, 0, 0, 0, 0, 0, 0, 0, 0, 0, 0, 0x00, 0x80, 0, 0],
    #[0x11, 0x22], .nrom, .vertical, false, none, by decide⟩

/-- The program finds the address of its last run: on a new console with the same memories it
reads another byte. -/
theorem reset_keeps_video_address :
    let used := [Call.reset, .step, .step, .step, .step, .step].foldl (perform Probes.none)
      (powerOn peekingCartridge)
    let new := (powerOn peekingCartridge).withMemories used
    (after Probes.none used.reset 2).cpu.registers.a = 0x22 ∧
      (after Probes.none new.reset 2).cpu.registers.a = 0x11 ∧
      ¬SameRun Probes.none used.reset new.reset := by
  intro used new
  have hUsed : (after Probes.none used.reset 2).cpu.registers.a = 0x22 := by decide +kernel
  have hNew : (after Probes.none new.reset 2).cpu.registers.a = 0x11 := by decide +kernel
  refine ⟨hUsed, hNew, ?_⟩
  intro hSame
  rw [hSame.cpu 2, hNew] at hUsed
  exact absurd hUsed (by decide)

end Console

end Famicom
