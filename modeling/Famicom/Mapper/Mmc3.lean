import Famicom.Bits
import Famicom.Mirroring
import Famicom.Ppu.Raster

/-!
# MMC3

Eight bank registers are written through a select register, and a counter of rendered lines can
raise the interrupt line.  The counter is clocked once on every line that is rendered, at the
dot where the sprite fetches begin.
-/

namespace Famicom.Mapper

structure Mmc3 where
  /-- The bank register to write in bits 0 to 2, program and pattern mode in bits 6 and 7. -/
  select : UInt8
  banks : Vector UInt8 8
  /-- Selected once the program has written the mirroring register. -/
  mirroring : Option Mirroring
  latch : UInt8
  counter : UInt8
  /-- The next clock reloads the counter whatever it holds. -/
  reload : Bool
  irqEnabled : Bool
  irqPending : Bool
  deriving DecidableEq

namespace Mmc3

def powerOn : Mmc3 where
  select := 0
  banks := Vector.replicate 8 0
  mirroring := none
  latch := 0
  counter := 0
  reload := false
  irqEnabled := false
  irqPending := false

/-- The place of a bank register; of its number the low three bits count. -/
def slot (number : Nat) : Fin 8 :=
  ⟨number % 8, Nat.mod_lt _ (by decide)⟩

def bank (chip : Mmc3) (number : Nat) : Nat :=
  (chip.banks.get (slot number)).toNat

/-- Takes a write to one of the eight register pairs: the page and the lowest bit of the address
decide. -/
def write (chip : Mmc3) (address : UInt16) (value : UInt8) : Mmc3 :=
  if address < 0xA000 then
    if address % 2 = 0 then { chip with select := value }
    else { chip with banks := chip.banks.set (slot chip.select.toNat) value }
  else if address < 0xC000 then
    -- The odd register protects work memory, which stays enabled here.
    if address % 2 = 0 then
      { chip with mirroring := some (if anyBit value 0x01 then .horizontal else .vertical) }
    else chip
  else if address < 0xE000 then
    if address % 2 = 0 then { chip with latch := value }
    else { chip with counter := 0, reload := true }
  else
    if address % 2 = 0 then { chip with irqEnabled := false, irqPending := false }
    else { chip with irqEnabled := true }

/-- The 8 KiB program bank in one of the four windows, before wrapping to the banks present. -/
def prgBank (chip : Mmc3) (banks : Nat) (window : Nat) : Nat :=
  let r6 := chip.bank 6 % 64
  let r7 := chip.bank 7 % 64
  let swapped := anyBit chip.select 0x40
  match window with
  | 0 => if swapped then banks - 2 else r6
  | 1 => r7
  | 2 => if swapped then r6 else banks - 2
  | _ => banks - 1

/-- The 1 KiB pattern bank in one of the eight windows, before wrapping to the banks present. -/
def chrBank (chip : Mmc3) (window : Nat) : Nat :=
  match if anyBit chip.select 0x80 then (window + 4) % 8 else window with
  | 0 => chip.bank 0 / 2 * 2
  | 1 => chip.bank 0 / 2 * 2 + 1
  | 2 => chip.bank 1 / 2 * 2
  | 3 => chip.bank 1 / 2 * 2 + 1
  | 4 => chip.bank 2
  | 5 => chip.bank 3
  | 6 => chip.bank 4
  | _ => chip.bank 5

/-- Clocks the line counter: an empty counter reloads, and reaching zero raises the interrupt if
it is enabled. -/
def clock (chip : Mmc3) : Mmc3 :=
  let counter := if chip.counter = 0 || chip.reload then chip.latch else chip.counter - 1
  { chip with
    counter := counter
    reload := false
    irqPending := chip.irqPending || (counter == 0 && chip.irqEnabled) }

def clockDot : Nat := 280

def clocksAt (position : Ppu.Position) : Bool :=
  position.dot == clockDot && position.rendering &&
    (position.scanline < Ppu.visibleLines || position.scanline == Ppu.preRenderLine)

def observe (chip : Mmc3) (position : Ppu.Position) : Mmc3 :=
  if clocksAt position then chip.clock else chip

end Mmc3

end Famicom.Mapper
