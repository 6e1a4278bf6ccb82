import Famicom.Console.Step
import Famicom.Proofs.Checked.Processor
import Famicom.Proofs.Checked.Scanline

/-!
# Checked consoles

The console with every place, sum, product, difference, divisor and shift of its parts checked.
Whatever the cartridge holds and however often the console is reset and stepped, nothing is
refused: the checked console goes through the states of the plain one.  Only the counts of cycles
and frames are not bounded.
-/

namespace Famicom

open Checked

/-! ### The memory map -/

namespace SystemBus

def ramIndex? (address : UInt16) : Option Nat := do
  return address.toNat &&& (← sub ramSize 1)

def read? (bus : SystemBus) (address : UInt16) : Option (UInt8 × SystemBus) := do
  if address < 0x2000 then
    let value ← bus.ram[← ramIndex? address]?
    return (value, { bus with openBus := value })
  else if address < 0x4000 then
    let answer ← bus.ppu.readRegister? bus.board address
    return (answer.1, { bus with ppu := answer.2.1, board := answer.2.2, openBus := answer.1 })
  else if address = 0x4016 ∨ address = 0x4017 then
    let value := bus.openBus &&& 0xE0
    return (value, { bus with openBus := value })
  else if address < 0x4020 then return (bus.openBus, bus)
  else
    let value ← bus.board.read? address
    return (value, { bus with openBus := value })

def write? (bus : SystemBus) (address : UInt16) (value : UInt8) : Option SystemBus := do
  if address < 0x2000 then
    return { bus with ram := ← put bus.ram (← ramIndex? address) value, openBus := value }
  else if address < 0x4000 then
    let written ← bus.ppu.writeRegister? bus.board address value
    return { bus with ppu := written.1, board := written.2, openBus := value }
  else if address = 0x4014 then return { bus with dmaPage := some value, openBus := value }
  else if address < 0x4020 then return { bus with openBus := value }
  else
    return { bus with board := ← bus.board.write? address value, openBus := value }

def dmaByte? (bus : SystemBus) (address : UInt16) : Option SystemBus := do
  let (value, bus) ← bus.read? address
  return { bus with ppu := ← bus.ppu.writeOam? value }

def runDma? (bus : SystemBus) (page : UInt8) : Option SystemBus := do
  let start ← shl .word page.toNat 8
  (List.range 256).foldlM (fun bus i => bus.dmaByte? (start ||| i).toUInt16) bus

theorem ramIndex?_eq (address : UInt16) : ramIndex? address = some (ramIndex address).val := by
  rw [ramIndex?, bind_eq (sub_eq (by decide))]
  exact congrArg some (Nat.and_two_pow_sub_one_eq_mod address.toNat 11)

section

variable {bus : SystemBus} (h : bus.board.Sound)

include h

theorem read?_eq (address : UInt16) :
    bus.read? address = some (bus.read address) ∧ (bus.read address).2.board.Sound := by
  obtain ⟨ram, ppu, board, dmaPage, openBus⟩ := bus
  unfold read? read
  dsimp only
  split
  · rw [bind_eq (ramIndex?_eq address), bind_eq (get_eq ram (Fin.isLt _))]
    exact ⟨rfl, h⟩
  split
  · obtain ⟨hRead, hBoard⟩ := Ppu.readRegister?_eq h ppu address
    rw [bind_eq hRead]
    refine ⟨rfl, ?_⟩
    dsimp only
    rw [hBoard]
    exact h
  split
  · exact ⟨rfl, h⟩
  split
  · exact ⟨rfl, h⟩
  · rw [bind_eq (h.read?_eq address)]
    exact ⟨rfl, h⟩

theorem write?_eq (address : UInt16) (value : UInt8) :
    bus.write? address value = some (bus.write address value) ∧
      (bus.write address value).board.Sound := by
  obtain ⟨ram, ppu, board, dmaPage, openBus⟩ := bus
  unfold write? write
  dsimp only
  split
  · rw [bind_eq (ramIndex?_eq address), bind_eq (put_eq ram value (Fin.isLt _))]
    exact ⟨rfl, h⟩
  split
  · obtain ⟨hWrite, hSound⟩ := Ppu.writeRegister?_eq h ppu address value
    rw [bind_eq hWrite]
    exact ⟨rfl, hSound⟩
  split
  · exact ⟨rfl, h⟩
  split
  · exact ⟨rfl, h⟩
  · obtain ⟨hWrite, hSound⟩ := h.write?_eq address value
    rw [bind_eq hWrite]
    exact ⟨rfl, hSound⟩

theorem dmaByte?_eq (address : UInt16) :
    bus.dmaByte? address = some (bus.dmaByte address) ∧ (bus.dmaByte address).board.Sound := by
  obtain ⟨hRead, hSound⟩ := read?_eq h address
  unfold dmaByte? dmaByte
  rw [bind_eq hRead]
  refine ⟨bind_eq (Ppu.writeOam?_eq _ _) _, hSound⟩

theorem runDma?_eq (page : UInt8) :
    bus.runDma? page = some (bus.runDma page) ∧ (bus.runDma page).board.Sound := by
  have hPage := page.toNat_lt
  have hAddress : ∀ i < 256, (page.toNat * 2 ^ 8 % 0x10000 ||| i).toUInt16 =
      wordOf i.toUInt8 page := by
    intro i hi
    have hOr : page.toNat * 2 ^ 8 ||| i = 2 ^ 8 * page.toNat + i := by
      rw [Nat.mul_comm, Nat.two_pow_add_eq_or_of_lt hi]
    apply UInt16.toNat_inj.1
    rw [Nat.mod_eq_of_lt (by omega), hOr, wordOf_toNat, Nat.toUInt16_eq, UInt16.toNat_ofNat',
      Nat.toUInt8_eq, UInt8.toNat_ofNat']
    omega
  rw [runDma?, bind_eq (shl_word (by decide))]
  refine foldlM_keeps (fun bus : SystemBus => bus.board.Sound) h ?_
  intro bus hBus i hi
  rw [hAddress i (List.mem_range.1 hi)]
  exact dmaByte?_eq hBus _

end

end SystemBus

/-- Plays a computation that may be refused against the checked memory map. -/
def Cpu.BusM.run? {α : Type} : Cpu.BusM (Option α) → SystemBus → Option (α × SystemBus)
  | .done value, bus => value.map (·, bus)
  | .read address next, bus => do
    let answer ← bus.read? address
    run? (next answer.1) answer.2
  | .write address value next, bus => do
    run? next (← bus.write? address value)

/-- A computation without checks of its own is not refused by the memory map. -/
theorem Cpu.BusM.run?_lift {α : Type} (m : Cpu.BusM α) {bus : SystemBus} (h : bus.board.Sound) :
    Cpu.BusM.run? (OptionT.lift m) bus = some (m.run bus) ∧ (m.run bus).2.board.Sound := by
  induction m generalizing bus with
  | done value => exact ⟨rfl, h⟩
  | read address next ih =>
    obtain ⟨hRead, hSound⟩ := SystemBus.read?_eq h address
    obtain ⟨hRest, hEnd⟩ := ih _ hSound
    exact ⟨(bind_eq hRead _).trans hRest, hEnd⟩
  | write address value next ih =>
    obtain ⟨hWrite, hSound⟩ := SystemBus.write?_eq h address value
    obtain ⟨hRest, hEnd⟩ := ih hSound
    exact ⟨(bind_eq hWrite _).trans hRest, hEnd⟩

/-! ### Dots -/

namespace Console

def noteBanking? (events : Array Event) (on : Bool) (board : Board) : Option (Array Event) := do
  if on then return events.push (.mapper (← board.banking?)) else return events

def Video.dot? (probes : Probes) (video : Video) : Option Video := do
  let ticked ← video.ppu.tick? video.board
  let events := note video.events probes.ppu fun _ => .ppu ticked.2.snapshot
  let board ← video.board.observed? ticked.2.position
  let events ← noteBanking? events probes.mapper board
  let events := note events ticked.1 fun _ => .frame ticked.2.frame
  let collected := ticked.2.takeNmi
  return ⟨collected.2, board, video.nmiLatched || collected.1, events⟩

def Video.dots? (probes : Probes) : Nat → Video → Option Video
  | 0, video => some video
  | n + 1, video => do Video.dots? probes n (← video.dot? probes)

theorem noteBanking?_eq {board : Board} (h : board.Sound) (events : Array Event) (on : Bool) :
    noteBanking? events on board = some (note events on fun _ => .mapper board.banking) := by
  unfold noteBanking? note
  split
  · exact bind_eq h.banking?_eq _
  · rfl

theorem Video.dot?_eq (probes : Probes) {video : Video} (h : video.board.Sound) :
    video.dot? probes = some (video.dot probes) ∧ (video.dot probes).board.Sound := by
  obtain ⟨ppu, board, nmiLatched, events⟩ := video
  obtain ⟨hTick, hBoard⟩ := Ppu.tick?_eq h ppu
  obtain ⟨hObserve, hSound⟩ := h.observed?_eq (ppu.tick board).2.1.position
  unfold Video.dot? Video.dot
  dsimp only
  rw [bind_eq hTick]
  dsimp only
  rw [bind_eq hObserve, bind_eq (noteBanking?_eq hSound _ _), hBoard]
  exact ⟨rfl, hSound⟩

theorem Video.dots?_eq (probes : Probes) (n : Nat) {video : Video} (h : video.board.Sound) :
    Video.dots? probes n video = some (Video.dots probes n video) ∧
      (Video.dots probes n video).board.Sound := by
  induction n generalizing video with
  | zero => exact ⟨rfl, h⟩
  | succ n ih =>
    obtain ⟨hDot, hSound⟩ := Video.dot?_eq probes h
    rw [Video.dots?, bind_eq hDot]
    exact ih hSound

/-! ### Steps -/

def dmaCost? (totalCycles : Nat) : Option Nat := do
  add .double dmaCycles (if (← rem totalCycles 2) = 1 then 1 else 0)

def settle? (probes : Probes) (cpu : Cpu) (bus : SystemBus) (total cycles : Nat)
    (events : Array Event) : Option (Quantum × Console) := do
  let events := note events probes.cpu fun _ => .cpu cpu
  let count ← mul .double cycles dotsPerCycle
  let video ← Video.dots? probes count ⟨bus.ppu, bus.board, cpu.nmiLatched, events⟩
  let cpu := { cpu with nmiLatched := video.nmiLatched, irqLine := video.board.irq }
  let bus := { bus with ppu := video.ppu, board := video.board }
  return (⟨cycles, video.events⟩, ⟨cpu, bus, total + cycles⟩)

def step? (probes : Probes) (console : Console) :
    Option (Except Cpu.Fault Quantum × Console) := do
  match console.bus.takeDma with
  | (some page, bus) =>
    let bus ← bus.runDma? page
    let cycles ← dmaCost? console.totalCycles
    let settled ← settle? probes console.cpu bus console.totalCycles cycles #[.dma page cycles]
    return (.ok settled.1, settled.2)
  | (none, bus) =>
    match ← Cpu.BusM.run? console.cpu.step? bus with
    | (.ok (cycles, cpu), bus) =>
      let settled ← settle? probes cpu bus console.totalCycles cycles #[]
      return (.ok settled.1, settled.2)
    | (.error fault, bus) => return (.error fault, ⟨console.cpu, bus, console.totalCycles⟩)

def reset? (console : Console) : Option Console := do
  let bus := { console.bus with ppu := console.bus.ppu.reset, dmaPage := none }
  let loaded ← Cpu.BusM.run? (OptionT.lift Cpu.reset) bus
  return ⟨loaded.1, loaded.2, 0⟩

theorem dmaCost?_eq (totalCycles : Nat) : dmaCost? totalCycles = some (dmaCost totalCycles) := by
  have hParity : (if totalCycles % 2 = 1 then 1 else 0) = totalCycles % 2 := by
    split <;> omega
  have hCycles : dmaCycles = 513 := rfl
  rw [dmaCost?, bind_eq (rem_eq (by decide)), hParity, add_double (by omega), dmaCost]

theorem dmaCost_le (totalCycles : Nat) : dmaCost totalCycles ≤ 514 := by
  unfold dmaCost dmaCycles
  omega

theorem settle?_eq (probes : Probes) (cpu : Cpu) {bus : SystemBus} (h : bus.board.Sound)
    (total : Nat) {cycles : Nat} (hCycles : cycles ≤ 514) (events : Array Event) :
    settle? probes cpu bus total cycles events = some (settle probes cpu bus total cycles events) ∧
      (settle probes cpu bus total cycles events).2.bus.board.Sound := by
  obtain ⟨ram, ppu, board, dmaPage, openBus⟩ := bus
  have hVideo : (⟨ppu, board, cpu.nmiLatched, note events probes.cpu fun _ => .cpu cpu⟩ :
      Video).board.Sound := h
  obtain ⟨hDots, hSound⟩ := Video.dots?_eq probes (dotsPerCycle * cycles) hVideo
  have hCount : mul .double cycles dotsPerCycle = some (cycles * dotsPerCycle) :=
    mul_double (by unfold dotsPerCycle; omega)
  rw [settle?, bind_eq hCount, Nat.mul_comm, bind_eq hDots]
  exact ⟨rfl, hSound⟩

theorem step?_eq (probes : Probes) {console : Console} (h : console.bus.board.Sound) :
    console.step? probes = some (console.step probes) ∧
      (console.step probes).2.bus.board.Sound := by
  obtain ⟨cpu, bus, total⟩ := console
  have hTaken : bus.takeDma.2.board.Sound := h
  unfold step? step
  dsimp only
  generalize bus.takeDma = taken at hTaken ⊢
  obtain ⟨page, bus⟩ := taken
  cases page with
  | some page =>
    obtain ⟨hCopy, hCopied⟩ := SystemBus.runDma?_eq hTaken page
    obtain ⟨hSettle, hSound⟩ := settle?_eq probes cpu hCopied total (dmaCost_le total)
      #[.dma page (dmaCost total)]
    dsimp only at hCopy hCopied hSettle hSound ⊢
    rw [bind_eq hCopy, bind_eq (dmaCost?_eq total), bind_eq hSettle]
    -- What is settled stays closed: to open it would be to run the transfer.
    generalize settle probes cpu (bus.runDma page) total (dmaCost total) _ = settled at hSound ⊢
    exact ⟨rfl, hSound⟩
  | none =>
    obtain ⟨hRun, hRan⟩ := Cpu.BusM.run?_lift cpu.step hTaken
    dsimp only at hRun hRan ⊢
    rw [Cpu.step?_eq, bind_eq hRun]
    generalize hStep : cpu.step.run bus = ran at hRan ⊢
    obtain ⟨⟨fault⟩ | ⟨cycles, next⟩, bus⟩ := ran
    · exact ⟨rfl, hRan⟩
    · have hMost := (Cpu.costs_of_step (congrArg Prod.fst hStep)).most
      obtain ⟨hSettle, hSound⟩ := settle?_eq probes next hRan total
        (Nat.le_trans hMost (by decide)) #[]
      dsimp only at hSettle hSound ⊢
      rw [bind_eq hSettle]
      generalize settle probes next bus total cycles #[] = settled at hSound ⊢
      exact ⟨rfl, hSound⟩

theorem reset?_eq {console : Console} (h : console.bus.board.Sound) :
    console.reset? = some console.reset ∧ console.reset.bus.board.Sound := by
  have hBus : { console.bus with ppu := console.bus.ppu.reset, dmaPage := none }.board.Sound := h
  obtain ⟨hRun, hSound⟩ := Cpu.BusM.run?_lift Cpu.reset hBus
  rw [reset?, bind_eq hRun]
  exact ⟨rfl, hSound⟩

/-! ### Runs -/

inductive Call where
  | reset
  | step
  deriving DecidableEq

/-- The console after a call, whether a step succeeds or faults. -/
def perform (probes : Probes) (console : Console) : Call → Console
  | .reset => console.reset
  | .step => (console.step probes).2

def perform? (probes : Probes) (console : Console) : Call → Option Console
  | .reset => console.reset?
  | .step => do return (← console.step? probes).2

theorem perform?_eq (probes : Probes) {console : Console} (h : console.bus.board.Sound)
    (call : Call) : console.perform? probes call = some (console.perform probes call) ∧
      (console.perform probes call).bus.board.Sound := by
  cases call with
  | reset => exact reset?_eq h
  | step =>
    obtain ⟨hStep, hSound⟩ := step?_eq probes h
    exact ⟨bind_eq hStep _, hSound⟩

/-- Whatever a cartridge holds that fits in memory, and however the console is reset and stepped:
no place is outside its block, no divisor is zero, no difference is negative, no sum or product
leaves its width and no shift reaches it. -/
theorem calls_never_refused (c : Cartridge) (hPrg : c.prg.size < 2 ^ 64)
    (hChr : c.chr.size < 2 ^ 64) (probes : Probes) (calls : List Call) :
    calls.foldlM (perform? probes) (powerOn c) = some (calls.foldl (perform probes) (powerOn c)) :=
  (foldlM_keeps (fun console : Console => console.bus.board.Sound)
    (Board.sound_powerOn hPrg hChr) fun _ hSound call _ => perform?_eq probes hSound call).1

/-- A cartridge whose memories fill no bank of its mapper. -/
def oddCartridge : Cartridge :=
  ⟨#[0xEA, 0x4C, 0x00], #[1, 2, 3, 4, 5], .mmc3, .vertical, false, none, by decide⟩

theorem calls_never_refused_odd_sizes :
    [Call.reset, .step, .step].foldlM (perform? ⟨true, true, true⟩) (powerOn oddCartridge) =
      some ([Call.reset, .step, .step].foldl (perform ⟨true, true, true⟩)
        (powerOn oddCartridge)) :=
  calls_never_refused oddCartridge (by decide) (by decide) _ _

end Console

end Famicom
