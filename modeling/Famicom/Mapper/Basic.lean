import Famicom.Mapper.Kind
import Famicom.Mapper.Mmc1
import Famicom.Mapper.Mmc3

/-!
# Mappers

A mapper turns addresses of the processor and of the picture processor into offsets of
cartridge memory.  It holds registers only; the memory belongs to the board, which tells the
mapper how much of it there is.  Bank numbers wrap to the banks present.
-/

namespace Famicom

inductive Mapper where
  | nrom
  | mmc1 (chip : Mapper.Mmc1)
  /-- A latch selects the 16 KiB bank at the bottom; the last one is fixed at the top. -/
  | uxrom (latch : UInt8)
  /-- A latch selects the 8 KiB pattern bank. -/
  | cnrom (latch : UInt8)
  | mmc3 (chip : Mapper.Mmc3)
  /-- A latch selects the 32 KiB program bank and one of the two single screens. -/
  | axrom (latch : UInt8)
  deriving DecidableEq

namespace Mapper

def powerOn : Kind → Mapper
  | .nrom => .nrom
  | .mmc1 => .mmc1 .powerOn
  | .uxrom => .uxrom 0
  | .cnrom => .cnrom 0
  | .mmc3 => .mmc3 .powerOn
  | .axrom => .axrom 0

def kind : Mapper → Kind
  | .nrom => .nrom
  | .mmc1 _ => .mmc1
  | .uxrom _ => .uxrom
  | .cnrom _ => .cnrom
  | .mmc3 _ => .mmc3
  | .axrom _ => .axrom

/-- How many banks of a size there are, a started one counting when it is the only one. -/
def bankCount (memory bank : Nat) : Nat :=
  max (memory / bank) 1

/-- The offset of an address in the bank with a number, wrapped to the banks present. -/
def bankOffset (memory bank number address : Nat) : Nat :=
  number % bankCount memory bank * bank + address % bank

/-- The offset in `memory` bytes of program memory of an address from $8000 up. -/
def prgOffset (mapper : Mapper) (memory : Nat) (address : UInt16) : Nat :=
  let a := address.toNat
  match mapper with
  | .nrom | .cnrom _ => (a - 0x8000) % memory
  | .mmc1 chip => bankOffset memory 0x4000 (chip.prgBank (bankCount memory 0x4000) address) a
  | .uxrom latch =>
    bankOffset memory 0x4000
      (if a < 0xC000 then latch.toNat % 16 else bankCount memory 0x4000 - 1) a
  | .mmc3 chip =>
    bankOffset memory 0x2000 (chip.prgBank (bankCount memory 0x2000) ((a - 0x8000) / 0x2000)) a
  | .axrom latch => bankOffset memory 0x8000 (latch.toNat % 8) a

def chrOffset (mapper : Mapper) (memory : Nat) (address : UInt16) : Nat :=
  let a := address.toNat
  match mapper with
  | .nrom | .uxrom _ | .axrom _ => a % 0x2000
  | .mmc1 chip => bankOffset memory 0x1000 (chip.chrBank address) a
  | .cnrom latch => bankOffset memory 0x2000 (latch.toNat % 4) a
  | .mmc3 chip => bankOffset memory 0x0400 (chip.chrBank (a % 0x2000 / 0x0400)) a

def write (mapper : Mapper) (address : UInt16) (value : UInt8) : Mapper :=
  match mapper with
  | .nrom => .nrom
  | .mmc1 chip => .mmc1 (chip.write address value)
  | .uxrom _ => .uxrom value
  | .cnrom _ => .cnrom value
  | .mmc3 chip => .mmc3 (chip.write address value)
  | .axrom _ => .axrom value

/-- The mirroring that the hardware selects, if it controls mirroring. -/
def mirroring? : Mapper → Option Mirroring
  | .mmc1 chip => some chip.mirroring
  | .mmc3 chip => chip.mirroring
  | .axrom latch => some (if anyBit latch 0x10 then .singleUpper else .singleLower)
  | _ => none

def observe (mapper : Mapper) (position : Ppu.Position) : Mapper :=
  match mapper with
  | .mmc3 chip => .mmc3 (chip.observe position)
  | other => other

def irq : Mapper → Bool
  | .mmc3 chip => chip.irqPending
  | _ => false

end Mapper

end Famicom
