import Famicom.Mapper.Kind
import Famicom.Mirroring
import Famicom.Text

/-!
# Cartridges

A cartridge is program memory that is never empty, pattern memory that may be missing (the board
then carries writable memory in its place), the kind of its banking hardware and how its
nametables are wired.
-/

namespace Famicom

/-- The size of the units in which images count program memory. -/
def prgBankSize : Nat := 0x4000

def chrBankSize : Nat := 0x2000

/-- The size of the block that some images carry before program memory. -/
def trainerSize : Nat := 512

structure Cartridge where
  prg : Array UInt8
  /-- Pattern memory; empty when the board has writable memory instead. -/
  chr : Array UInt8
  kind : Mapper.Kind
  mirroring : Mirroring
  /-- The work memory keeps its contents without power. -/
  battery : Bool
  trainer : Option (Array UInt8)
  prg_pos : 0 < prg.size

namespace Cartridge

/-- A plain cartridge with the given memories, unless program memory is empty. -/
def ofSections? (prg chr : Array UInt8) (kind : Mapper.Kind) (mirroring : Mirroring) :
    Option Cartridge :=
  if h : 0 < prg.size then some ⟨prg, chr, kind, mirroring, false, none, h⟩ else none

def hasChrRam (c : Cartridge) : Bool :=
  c.chr.isEmpty

def title (c : Cartridge) : String :=
  let chr := if c.hasChrRam then "CHR RAM 8K" else s!"CHR {c.chr.size / 1024}K"
  s!"{c.kind.title} PRG {c.prg.size / 1024}K, {chr}, {c.mirroring.name} mirroring"

def describe (c : Cartridge) : String :=
  s!"Cartridge \x7b prg_rom: {c.prg.size}, chr_rom: {c.chr.size}, " ++
    s!"mapper: {c.kind.identifier}, mirroring: {c.mirroring.name}, " ++
    s!"battery: {Text.boolean c.battery}, trainer: {Text.boolean c.trainer.isSome} \x7d"

end Cartridge

end Famicom
