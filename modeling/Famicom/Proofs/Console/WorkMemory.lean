import Famicom.Proofs.Checked.Arithmetic
import Famicom.Proofs.Console.Fault

/-!
# Work memory

Internal memory, seen four times over, and the work memory of the cartridge hold what was last
written to them, whatever else happens on the bus: sprite transfers, ticks, dots that the mapper
observes, registers read and written, resets.  Only a write in their own range changes them.
-/

namespace Famicom

namespace SystemBus

/-! ### What is done to the bus -/

inductive Operation where
  | read (address : UInt16)
  | write (address : UInt16) (value : UInt8)
  | takeDma
  | runDma (page : UInt8)
  | tick
  | takeNmi
  | observe (position : Ppu.Position)
  | resetPpu
  deriving DecidableEq

def perform (bus : SystemBus) : Operation → SystemBus
  | .read address => (bus.read address).2
  | .write address value => bus.write address value
  | .takeDma => bus.takeDma.2
  | .runDma page => bus.runDma page
  | .tick =>
    let (_, ppu, board) := bus.ppu.tick bus.board
    { bus with ppu := ppu, board := board }
  | .takeNmi => { bus with ppu := bus.ppu.takeNmi.2 }
  | .observe position => { bus with board := bus.board.observe position }
  | .resetPpu => { bus with ppu := bus.ppu.reset }

def performAll (bus : SystemBus) (operations : List Operation) : SystemBus :=
  operations.foldl perform bus

def Operation.written? (addresses : UInt16 → Bool) : Operation → Option UInt8
  | .write address value => if addresses address then some value else none
  | _ => none

/-- The byte last written to one of some addresses, zero if none was. -/
def lastWritten (addresses : UInt16 → Bool) (operations : List Operation) : UInt8 :=
  (operations.filterMap (·.written? addresses)).getLast?.getD 0

/-! ### Accesses and memories -/

structure SameMemories (before after : SystemBus) : Prop where
  ram : after.ram = before.ram
  workRam : after.board.workRam = before.board.workRam

theorem SameMemories.trans {a b c : SystemBus} (h : SameMemories a b) (h' : SameMemories b c) :
    SameMemories a c :=
  ⟨h'.ram.trans h.ram, h'.workRam.trans h.workRam⟩

theorem sameMemories_read (bus : SystemBus) (address : UInt16) :
    SameMemories bus (bus.read address).2 := by
  refine ⟨?_, congrArg Board.workRam (bus.read_board address)⟩
  obtain ⟨ram, ppu, board, dmaPage, openBus⟩ := bus
  simp only [read]
  split
  · rfl
  · split
    · rfl
    · split
      · rfl
      · split <;> rfl

theorem sameMemories_runDma (bus : SystemBus) (page : UInt8) :
    SameMemories bus (bus.runDma page) := by
  refine runDma_preserves ?_ ⟨rfl, rfl⟩ page
  intro b address hSame
  have hByte : SameMemories b (b.dmaByte address) := (b.sameMemories_read address).trans ⟨rfl, rfl⟩
  exact hSame.trans hByte

theorem sameMemories_tick (bus : SystemBus) : SameMemories bus (bus.perform .tick) :=
  ⟨rfl, congrArg Board.workRam (bus.ppu.tick_board bus.board)⟩

theorem sameMemories_perform (bus : SystemBus) {operation : Operation}
    (h : ∀ address value, operation ≠ .write address value) :
    SameMemories bus (bus.perform operation) := by
  cases operation with
  | read address => exact bus.sameMemories_read address
  | write address value => exact absurd rfl (h address value)
  | takeDma => exact ⟨rfl, rfl⟩
  | runDma page => exact bus.sameMemories_runDma page
  | tick => exact bus.sameMemories_tick
  | takeNmi => exact ⟨rfl, rfl⟩
  | observe position => exact ⟨rfl, rfl⟩
  | resetPpu => exact ⟨rfl, rfl⟩

theorem sameMemories_performAll (bus : SystemBus) {operations : List Operation}
    (h : ∀ operation ∈ operations, ∀ address value, operation ≠ .write address value) :
    SameMemories bus (bus.performAll operations) := by
  induction operations generalizing bus with
  | nil => exact ⟨rfl, rfl⟩
  | cons operation rest ih =>
    have hFirst := bus.sameMemories_perform (h operation List.mem_cons_self)
    have hRest := ih (bus.perform operation) fun later hLater =>
      h later (List.mem_cons_of_mem _ hLater)
    exact hFirst.trans hRest

theorem write_ram (bus : SystemBus) (address : UInt16) (value : UInt8) :
    (bus.write address value).ram =
      if address < 0x2000 then bus.ram.set (ramIndex address) value (ramIndex address).isLt
      else bus.ram := by
  obtain ⟨ram, ppu, board, dmaPage, openBus⟩ := bus
  simp only [write]
  split
  · rfl
  · split
    · rfl
    · split
      · rfl
      · split <;> rfl

theorem writeRegister_workRam (ppu : Ppu) (board : Board) (address : UInt16) (value : UInt8) :
    (ppu.writeRegister board address value).2.workRam = board.workRam := by
  rcases ppu.writeRegister_bus board address value with hSame | ⟨place, hWrite⟩
  · rw [hSame]
  · rw [hWrite]
    show (board.chrWrite place value).workRam = board.workRam
    unfold Board.chrWrite
    split <;> rfl

def workIndex (address : UInt16) : Fin workRamSize :=
  ⟨address.toNat % workRamSize, Nat.mod_lt _ (by decide)⟩

theorem board_write_workRam (board : Board) (address : UInt16) (value : UInt8) :
    (board.write address value).workRam =
      if 0x6000 ≤ address ∧ address < 0x8000 then
        board.workRam.set (workIndex address) value (workIndex address).isLt
      else board.workRam := by
  by_cases hLow : address < 0x6000
  · rw [if_neg fun h => UInt16.not_le.2 hLow h.1]
    simp only [Board.write, hLow, ↓reduceIte]
  · by_cases hHigh : address < 0x8000
    · rw [if_pos ⟨UInt16.not_lt.1 hLow, hHigh⟩]
      simp only [Board.write, hLow, hHigh, ↓reduceIte]
      rfl
    · rw [if_neg fun h => hHigh h.2]
      simp only [Board.write, hLow, hHigh, ↓reduceIte]

theorem write_workRam (bus : SystemBus) (address : UInt16) (value : UInt8) :
    (bus.write address value).board.workRam =
      if 0x6000 ≤ address ∧ address < 0x8000 then
        bus.board.workRam.set (workIndex address) value (workIndex address).isLt
      else bus.board.workRam := by
  have hBelow (bound : UInt16) (hBound : bound ≤ 0x6000) (h : address < bound) :
      ¬(0x6000 ≤ address ∧ address < 0x8000) := by
    rintro ⟨hFrom, -⟩
    exact UInt16.not_le.2 (UInt16.lt_of_lt_of_le h hBound) hFrom
  obtain ⟨ram, ppu, board, dmaPage, openBus⟩ := bus
  simp only [write]
  split
  · rename_i hRam
    rw [if_neg (hBelow 0x2000 (by decide) hRam)]
  · split
    · rename_i hPpu
      rw [if_neg (hBelow 0x4000 (by decide) hPpu)]
      exact writeRegister_workRam ppu board address value
    · split
      · rename_i hDma
        rw [if_neg (by rw [hDma]; decide)]
      · split
        · rename_i hPort
          rw [if_neg (hBelow 0x4020 (by decide) hPort)]
        · exact board_write_workRam board address value

/-! ### Cells -/

def sameCell (address other : UInt16) : Bool :=
  decide (other < 0x2000 ∧ other.toNat % 0x800 = address.toNat % 0x800)

theorem ram_write (bus : SystemBus) (address other : UInt16) (value : UInt8) :
    (bus.write other value).ram.get (ramIndex address) =
      if sameCell address other then value else bus.ram.get (ramIndex address) := by
  have hIndex : (ramIndex other).val = (ramIndex address).val ↔
      other.toNat % 0x800 = address.toNat % 0x800 := Iff.rfl
  rw [write_ram]
  by_cases hRam : other < 0x2000
  · rw [if_pos hRam, Checked.get_set]
    simp only [sameCell, hIndex, hRam, true_and, decide_eq_true_eq]
  · rw [if_neg hRam]
    simp only [sameCell, hRam, false_and, decide_false, Bool.false_eq_true, ↓reduceIte]

theorem workRam_write (bus : SystemBus) {address : UInt16}
    (h : 0x6000 ≤ address ∧ address < 0x8000) (other : UInt16) (value : UInt8) :
    (bus.write other value).board.workRam.get (workIndex address) =
      if other = address then value else bus.board.workRam.get (workIndex address) := by
  rw [write_workRam]
  by_cases hWork : 0x6000 ≤ other ∧ other < 0x8000
  · have hIndex : (workIndex other).val = (workIndex address).val ↔ other = address := by
      -- Both addresses are in the one window of $2000 bytes, so none is taken for another.
      show other.toNat % 0x2000 = address.toNat % 0x2000 ↔ other = address
      simp only [UInt16.lt_iff_toNat_lt, UInt16.le_iff_toNat_le, UInt16.reduceToNat] at h hWork
      rw [← UInt16.toNat_inj]
      omega
    rw [if_pos hWork, Checked.get_set]
    simp only [hIndex]
  · have hOther : other ≠ address := by
      rintro rfl
      exact hWork h
    rw [if_neg hWork, if_neg hOther]

/-- A cell of the work memories, changed by writes to some addresses alone. -/
structure Cell (cell : SystemBus → UInt8) (addresses : UInt16 → Bool) : Prop where
  write : ∀ bus other value,
    cell (bus.write other value) = if addresses other then value else cell bus
  same : ∀ {before after}, SameMemories before after → cell after = cell before

theorem cell_ram (address : UInt16) :
    Cell (fun bus => bus.ram.get (ramIndex address)) (sameCell address) where
  write bus other value := bus.ram_write address other value
  same h := by rw [h.ram]

theorem cell_workRam {address : UInt16} (h : 0x6000 ≤ address ∧ address < 0x8000) :
    Cell (fun bus => bus.board.workRam.get (workIndex address)) (· = address) where
  write bus other value := by simpa using bus.workRam_write h other value
  same h := by rw [h.workRam]

theorem Cell.step {cell : SystemBus → UInt8} {addresses : UInt16 → Bool}
    (h : Cell cell addresses) (bus : SystemBus) (operation : Operation) :
    cell (bus.perform operation) = (operation.written? addresses).getD (cell bus) := by
  cases operation with
  | write other value =>
    refine (h.write bus other value).trans ?_
    simp only [Operation.written?]
    split <;> rfl
  | _ => exact h.same (bus.sameMemories_perform fun _ _ hWrite => nomatch hWrite)

theorem Cell.run {cell : SystemBus → UInt8} {addresses : UInt16 → Bool}
    (h : Cell cell addresses) (operations : List Operation) (bus : SystemBus) :
    cell (bus.performAll operations) =
      (operations.filterMap (·.written? addresses)).getLast?.getD (cell bus) := by
  induction operations generalizing bus with
  | nil => rfl
  | cons operation rest ih =>
    rw [performAll, List.foldl_cons, ← performAll, ih, h.step]
    cases hWritten : operation.written? addresses with
    | none => rw [List.filterMap_cons_none hWritten, Option.getD_none]
    | some value =>
      rw [List.filterMap_cons_some hWritten, List.getLast?_cons, Option.getD_some,
        Option.getD_some]

/-! ### Reads -/

theorem read_ram (bus : SystemBus) {address : UInt16} (h : address < 0x2000) :
    (bus.read address).1 = bus.ram.get (ramIndex address) := by
  obtain ⟨ram, ppu, board, dmaPage, openBus⟩ := bus
  simp only [read, h, ↓reduceIte]

theorem read_workRam (bus : SystemBus) {address : UInt16}
    (h : 0x6000 ≤ address ∧ address < 0x8000) :
    (bus.read address).1 = bus.board.workRam.get (workIndex address) := by
  have hOver : 0x4020 ≤ address := UInt16.le_trans (by decide) h.1
  have hNotBelow : ¬address < 0x6000 := UInt16.not_lt.2 h.1
  rw [bus.read_cartridge hOver]
  simp only [Board.read, hNotBelow, h.2, ↓reduceIte]
  rfl

end SystemBus

/-! ### Resets -/

theorem Console.reset_bus (console : Console) :
    console.reset.bus = console.bus.performAll
      [.resetPpu, .takeDma, .read Cpu.resetVector, .read (Cpu.resetVector + 1)] :=
  rfl

theorem Console.sameMemories_reset (console : Console) :
    console.bus.SameMemories console.reset.bus := by
  rw [console.reset_bus]
  apply console.bus.sameMemories_performAll
  simp

namespace SystemBus

/-- Whatever was done to the bus of a cartridge since power came on, a read below $2000 gives the
byte last written below $2000 to an address that is the same modulo $800, and a read from $6000 to
$7FFF the byte last written to that very address; zero where nothing was written.  A reset of the
console keeps both memories. -/
theorem reads_give_last_write (c : Cartridge) (operations : List Operation) (address : UInt16) :
    let bus := (powerOn c).performAll operations
    (address < 0x2000 → (bus.read address).1 = lastWritten
      (fun other => other < 0x2000 ∧ other.toNat % 0x800 = address.toNat % 0x800) operations) ∧
    (0x6000 ≤ address ∧ address < 0x8000 →
      (bus.read address).1 = lastWritten (fun other => other = address) operations) ∧
    ∀ console : Console, console.reset.bus.ram = console.bus.ram ∧
      console.reset.bus.board.workRam = console.bus.board.workRam := by
  intro bus
  refine ⟨?_, ?_, ?_⟩
  · intro hRam
    have hZero : (powerOn c).ram.get (ramIndex address) = 0 := Memory.getElem_zeroed _ _ _
    rw [bus.read_ram hRam, (cell_ram address).run operations (powerOn c), hZero]
    rfl
  · intro hWork
    have hZero : (powerOn c).board.workRam.get (workIndex address) = 0 :=
      Memory.getElem_zeroed _ _ _
    rw [bus.read_workRam hWork, (cell_workRam hWork).run operations (powerOn c), hZero]
    rfl
  · intro console
    have hSame := console.sameMemories_reset
    exact ⟨hSame.ram, hSame.workRam⟩

theorem reads_give_last_write_mirrored :
    let bus := (powerOn Console.jammedCartridge).performAll
      [.write 0x0801 0xAB, .runDma 0x20, .write 0x6001 0x12, .tick, .write 0xA001 0x34]
    (0x1801 : UInt16) < 0x2000 ∧ (bus.read 0x1801).1 = 0xAB ∧
      (0x6000 : UInt16) ≤ 0x6001 ∧ (bus.read 0x6001).1 = 0x12 := by
  let operations : List Operation :=
    [.write 0x0801 0xAB, .runDma 0x20, .write 0x6001 0x12, .tick, .write 0xA001 0x34]
  have hRam := (reads_give_last_write Console.jammedCartridge operations 0x1801).1 (by decide)
  have hWork := (reads_give_last_write Console.jammedCartridge operations 0x6001).2.1 (by decide)
  exact ⟨by decide, hRam.trans (by decide), by decide, hWork.trans (by decide)⟩

end SystemBus

end Famicom
