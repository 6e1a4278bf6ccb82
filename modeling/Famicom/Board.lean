import Famicom.Cartridge.Basic
import Famicom.Mapper.Basic
import Famicom.Memory
import Famicom.Ppu.PatternBus

/-!
# Boards

A board is a cartridge under power: its memories, eight kibibytes of work memory and the state
of its mapper.  Offsets that a mapper gives wrap to the memory present, so memory of any size
can be addressed.
-/

namespace Famicom

def workRamSize : Nat := 0x2000

structure Board where
  prg : Array UInt8
  chr : Array UInt8
  chrWritable : Bool
  workRam : Memory workRamSize
  /-- The mirroring wired on the board. -/
  wiring : Mirroring
  mapper : Mapper
  prg_pos : 0 < prg.size
  chr_pos : 0 < chr.size

structure Banking where
  kind : Mapper.Kind
  /-- The 8 KiB program bank in each quarter of the upper half of the address space. -/
  prgBanks : Vector Nat 4
  /-- The 1 KiB pattern bank in each eighth of the pattern tables. -/
  chrBanks : Vector Nat 8
  mirroring : Mirroring
  irq : Bool
  deriving DecidableEq

namespace Banking

def listText {n : Nat} (banks : Vector Nat n) : String :=
  Text.bracketed (banks.toList.map toString)

def stateLine (b : Banking) : String :=
  s!"{b.kind.name} PRG:{listText b.prgBanks} CHR:{listText b.chrBanks} {b.mirroring.name}" ++
    if b.irq then " IRQ" else ""

def describe (b : Banking) : String :=
  s!"MapperState \x7b kind: {b.kind.identifier}, prg_banks: {listText b.prgBanks}, " ++
    s!"chr_banks: {listText b.chrBanks}, mirroring: {b.mirroring.name}, " ++
    s!"irq: {Text.boolean b.irq} \x7d"

end Banking

namespace Board

def powerOn (c : Cartridge) : Board where
  prg := c.prg
  chr := if c.chr.isEmpty then Array.replicate chrBankSize 0 else c.chr
  chrWritable := c.chr.isEmpty
  workRam := Memory.zeroed workRamSize
  wiring := c.mirroring
  mapper := .powerOn c.kind
  prg_pos := c.prg_pos
  chr_pos := by
    split
    · simp [chrBankSize]
    · simp_all [Array.size_pos_iff]

/-! ### The processor side -/

/-- The place in program memory of an address from $8000 up. -/
def prgIndex (board : Board) (address : UInt16) : Fin board.prg.size :=
  ⟨board.mapper.prgOffset board.prg.size address % board.prg.size, Nat.mod_lt _ board.prg_pos⟩

/-- Reads cartridge space; nothing answers below $6000. -/
def read (board : Board) (address : UInt16) : UInt8 :=
  if address < 0x6000 then 0
  else if address < 0x8000 then
    board.workRam.get ⟨address.toNat % 0x2000, Nat.mod_lt _ (by decide)⟩
  else board.prg[board.prgIndex address]

/-- Writes cartridge space: work memory, and from $8000 up the registers of the mapper. -/
def write (board : Board) (address : UInt16) (value : UInt8) : Board :=
  if address < 0x6000 then board
  else if address < 0x8000 then
    { board with workRam :=
        board.workRam.set (address.toNat % 0x2000) value (Nat.mod_lt _ (by decide)) }
  else { board with mapper := board.mapper.write address value }

def irq (board : Board) : Bool :=
  board.mapper.irq

def observe (board : Board) (position : Ppu.Position) : Board :=
  { board with mapper := board.mapper.observe position }

/-! ### The picture processor side -/

def chrIndex (board : Board) (address : UInt16) : Fin board.chr.size :=
  ⟨board.mapper.chrOffset board.chr.size address % board.chr.size, Nat.mod_lt _ board.chr_pos⟩

def chrRead (board : Board) (address : UInt16) : UInt8 :=
  board.chr[board.chrIndex address]

def chrWrite (board : Board) (address : UInt16) (value : UInt8) : Board :=
  if board.chrWritable then
    let i := board.chrIndex address
    { board with
      chr := board.chr.set i value
      chr_pos := by simpa using board.chr_pos }
  else board

/-- The mirroring in effect.  A board with memory for four screens ignores its mapper. -/
def mirroring (board : Board) : Mirroring :=
  if board.wiring = .fourScreen then .fourScreen
  else board.mapper.mirroring?.getD board.wiring

instance : Ppu.PatternBus Board where
  read board address := (board.chrRead address, board)
  write := chrWrite
  mirroring := mirroring

/-! ### What is visible -/

/-- The banks in effect, sampled at the start of each window. -/
def banking (board : Board) : Banking where
  kind := board.mapper.kind
  prgBanks := Vector.ofFn fun w =>
    (board.prgIndex (0x8000 + 0x2000 * w.val.toUInt16)).val / 0x2000
  chrBanks := Vector.ofFn fun w => (board.chrIndex (0x0400 * w.val.toUInt16)).val / 0x0400
  mirroring := board.mirroring
  irq := board.irq

def describe (board : Board) : String :=
  s!"Board \x7b state: {board.banking.describe}, .. \x7d"

end Board

end Famicom
