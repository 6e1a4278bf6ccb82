import Famicom.Ppu.Sprite

/-!
# Scanlines

A visible line is composed at once, column by column, from the background and the sprites that
were fetched for it.  Composing also finds out whether the first sprite met an opaque background
and whether too many sprites share the line.
-/

namespace Famicom.Ppu

variable {β : Type} [PatternBus β]

structure LineData where
  /-- The background, if it is switched on. -/
  tiles : Option TileLine
  /-- The sprites in order of priority. -/
  sprites : List SpriteRow
  /-- More sprites meet the line than can be shown. -/
  overflow : Bool

def fetchBackground (ppu : Ppu) (bus : β) : Option TileLine × β :=
  if ppu.mask.background then
    let (tiles, _, bus) := ppu.fetchTiles ppu.scroll.current 33 bus
    (some tiles, bus)
  else (none, bus)

/-- Fetches all that shows on a line, the background first. -/
def fetchLine (ppu : Ppu) (bus : β) (line : Nat) : LineData × β :=
  let (tiles, bus) := ppu.fetchBackground bus
  if ppu.mask.sprites then
    let found := ppu.spritesOnLine line
    let (sprites, bus) := ppu.fetchSprites line (found.take 8) bus
    (⟨tiles, sprites, 8 < found.length⟩, bus)
  else (⟨tiles, [], false⟩, bus)

/-! ### Composition -/

/-- The background's palette entry in a column; zero where it is switched off or clipped. -/
def backgroundEntry (ppu : Ppu) (line : LineData) (x : Fin 256) : UInt8 :=
  match line.tiles with
  | some tiles =>
    if x.val < 8 && !ppu.mask.backgroundLeft then 0 else tiles.entry ppu.scroll.fineX x
  | none => 0

/-- The sprite that shows in a column, unless sprites are clipped there. -/
def visibleSprite (ppu : Ppu) (line : LineData) (x : Fin 256) : Option SpriteRow :=
  if x.val < 8 && !ppu.mask.spritesLeft then none else spriteAt line.sprites x.val

def opaqueEntry (entry : UInt8) : Bool :=
  anyBit entry 0x03

def composedEntry (ppu : Ppu) (line : LineData) (x : Fin 256) : UInt8 :=
  let background := ppu.backgroundEntry line x
  let covered := opaqueEntry background
  match ppu.visibleSprite line x with
  | some sprite => if covered && sprite.behind then background else sprite.entry x.val
  | none => if covered then background else 0

def entryColour (ppu : Ppu) (entry : UInt8) : UInt32 :=
  let colour := ppu.palette.get (paletteIndex entry.toNat)
  colourOf (if ppu.mask.greyscale then colour &&& 0x30 else colour)

def composeLine (ppu : Ppu) (line : LineData) : Vector UInt32 pictureWidth :=
  Vector.ofFn fun x : Fin 256 => ppu.entryColour (ppu.composedEntry line x)

def spriteZeroAt (ppu : Ppu) (line : LineData) (x : Fin 256) : Bool :=
  match ppu.visibleSprite line x with
  | some sprite => sprite.index.val == 0 && opaqueEntry (ppu.backgroundEntry line x)
  | none => false

/-- The first sprite shows over an opaque background in some column but the last. -/
def spriteZeroHit (ppu : Ppu) (line : LineData) : Bool :=
  line.sprites.any (·.index.val == 0) &&
    (List.finRange 256).any fun x => x.val != 255 && ppu.spriteZeroAt line x

def putLine (picture : Picture) (y : Fin pictureHeight) (line : Vector UInt32 pictureWidth) :
    Picture :=
  Fin.foldl pictureWidth
    (fun picture x =>
      picture.set (y.val * pictureWidth + x.val) (line.get x) (Frame.index_lt x.isLt y.isLt))
    picture

def renderLine (ppu : Ppu) (bus : β) (y : Fin pictureHeight) : Ppu × β :=
  let (line, bus) := ppu.fetchLine bus y.val
  let pixels := ppu.composeLine line
  let status :=
    (ppu.status.raise Status.overflowMask line.overflow).raise Status.spriteZeroMask
      (ppu.spriteZeroHit line)
  ({ ppu with status := status, picture := putLine ppu.picture y pixels }, bus)

end Famicom.Ppu
