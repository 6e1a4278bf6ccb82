import Famicom.Ppu.Registers

/-!
# Background

The background of a line is a walk over 33 tiles from the scroll position.  Each tile gives a
row of eight pixels of two bits, coloured by one of four palettes; the fine column decides where
in the first tile the line begins.
-/

namespace Famicom.Ppu

variable {β : Type} [PatternBus β]

/-- Two bits of a pattern row, one from each plane.  Bit 7 is the leftmost pixel. -/
def patternPixel (low high : UInt8) (column : Nat) : UInt8 :=
  let bit := (7 - column).toUInt8
  let first : UInt8 := low >>> bit &&& 1
  let second : UInt8 := high >>> bit &&& 1
  first ||| second <<< 1

structure TileRow where
  low : UInt8
  high : UInt8
  palette : UInt8
  deriving DecidableEq

/-- The palette entry of a pixel; the low two bits are zero where it is transparent. -/
def TileRow.entry (t : TileRow) (column : Nat) : UInt8 :=
  t.palette <<< 2 ||| patternPixel t.low t.high column

/-- Where the first plane of a row of a background tile lies. -/
def tilePatternAddress (table : UInt16) (tile : UInt8) (row : Nat) : UInt16 :=
  table + tile.toUInt16 * 16 + row.toUInt16

def fetchTile (ppu : Ppu) (bus : β) (place : VramAddress) : TileRow × β :=
  let tile := ppu.nametableByte bus place.tileAddress
  let attributes := ppu.nametableByte bus place.attributeAddress
  let palette := attributes >>> place.attributeShift.toUInt8 &&& 0x03
  let address := tilePatternAddress ppu.control.backgroundTable tile place.fineY.val
  let (low, bus) := PatternBus.read bus address
  let (high, bus) := PatternBus.read bus (address + 8)
  (⟨low, high, palette⟩, bus)

/-- Fetches `n` tiles from an address to the right, and gives the address behind them. -/
def fetchTiles (ppu : Ppu) (start : VramAddress) :
    (n : Nat) → β → Vector TileRow n × VramAddress × β
  | 0, bus => (#v[], start, bus)
  | n + 1, bus =>
    let (tiles, place, bus) := ppu.fetchTiles start n bus
    let (tile, bus) := ppu.fetchTile bus place
    (tiles.push tile, place.nextTile, bus)

abbrev TileLine : Type :=
  Vector TileRow 33

def TileLine.entry (tiles : TileLine) (fineX : Fin 8) (x : Fin 256) : UInt8 :=
  (tiles.get ⟨(x.val + fineX.val) / 8, by omega⟩).entry ((x.val + fineX.val) % 8)

end Famicom.Ppu
