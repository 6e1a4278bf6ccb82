import Famicom.Ppu.Background

/-!
# Sprites

Sprite memory holds 64 sprites in order of priority.  The first eight that meet a line are
fetched; a ninth one is only noted.  In a column the first of them with an opaque pixel wins.
-/

namespace Famicom.Ppu

variable {β : Type} [PatternBus β]

/-! ### Sprite memory -/

def spriteTop (ppu : Ppu) (i : Fin 64) : Nat :=
  (ppu.oam.get ⟨4 * i.val, by omega⟩).toNat + 1

def spriteTile (ppu : Ppu) (i : Fin 64) : UInt8 :=
  ppu.oam.get ⟨4 * i.val + 1, by omega⟩

/-- The palette, priority and flips of a sprite. -/
def spriteAttributes (ppu : Ppu) (i : Fin 64) : UInt8 :=
  ppu.oam.get ⟨4 * i.val + 2, by omega⟩

def spriteLeft (ppu : Ppu) (i : Fin 64) : Nat :=
  (ppu.oam.get ⟨4 * i.val + 3, by omega⟩).toNat

def spriteOnLine (ppu : Ppu) (line : Nat) (i : Fin 64) : Bool :=
  ppu.spriteTop i ≤ line && line < ppu.spriteTop i + ppu.control.spriteHeight

/-- The sprites that meet a line, in order of priority. -/
def spritesOnLine (ppu : Ppu) (line : Nat) : List (Fin 64) :=
  (List.finRange 64).filter (ppu.spriteOnLine line)

/-! ### Fetching -/

/-- Where the first plane of a sprite's row lies.  Tall sprites choose their table by the lowest
bit of the tile number and continue in the next tile. -/
def spritePatternAddress (control : Control) (tile : UInt8) (row : Nat) : UInt16 :=
  if control.spriteHeight = 16 then
    (tile &&& 0x01).toUInt16 * 0x1000 + (tile &&& 0xFE).toUInt16 * 16 +
      (row / 8 * 16 + row % 8).toUInt16
  else
    control.spriteTable + tile.toUInt16 * 16 + row.toUInt16

/-- The row of a sprite that meets a line, counted from its top unless it is flipped. -/
def spriteRow (ppu : Ppu) (line : Nat) (i : Fin 64) : Nat :=
  let row := line - ppu.spriteTop i
  if anyBit (ppu.spriteAttributes i) 0x80 then ppu.control.spriteHeight - 1 - row else row

structure SpriteRow where
  index : Fin 64
  left : Nat
  low : UInt8
  high : UInt8
  attributes : UInt8
  deriving DecidableEq

def fetchSprite (ppu : Ppu) (bus : β) (line : Nat) (i : Fin 64) : SpriteRow × β :=
  let address := spritePatternAddress ppu.control (ppu.spriteTile i) (ppu.spriteRow line i)
  let (low, bus) := PatternBus.read bus address
  let (high, bus) := PatternBus.read bus (address + 8)
  (⟨i, ppu.spriteLeft i, low, high, ppu.spriteAttributes i⟩, bus)

def fetchSprites (ppu : Ppu) (line : Nat) : List (Fin 64) → β → List SpriteRow × β
  | [], bus => ([], bus)
  | i :: rest, bus =>
    let (row, bus) := ppu.fetchSprite bus line i
    let (rows, bus) := ppu.fetchSprites line rest bus
    (row :: rows, bus)

/-! ### Pixels -/

namespace SpriteRow

/-- The two bits of the pattern in a column of the line; zero outside the sprite. -/
def pixel (s : SpriteRow) (x : Nat) : UInt8 :=
  if s.left ≤ x ∧ x < s.left + 8 then
    let column := x - s.left
    patternPixel s.low s.high (if anyBit s.attributes 0x40 then 7 - column else column)
  else 0

def entry (s : SpriteRow) (x : Nat) : UInt8 :=
  (0x10 : UInt8) ||| (s.attributes &&& 0x03) <<< 2 ||| s.pixel x

/-- The sprite gives way to an opaque background. -/
def behind (s : SpriteRow) : Bool :=
  anyBit s.attributes 0x20

end SpriteRow

def spriteAt (sprites : List SpriteRow) (x : Nat) : Option SpriteRow :=
  sprites.find? fun s => s.pixel x != 0

end Famicom.Ppu
