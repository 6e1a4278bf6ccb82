import Famicom.Ppu.Scanline

/-!
# Dots

Each tick moves the beam by one dot and does what falls due there: visible lines are composed
near their end, the scroll position moves with the beam while rendering is on, vertical blank
begins on line 241 and its flags are taken back on the pre-render line.
-/

namespace Famicom.Ppu

variable {β : Type} [PatternBus β]

/-- The dot at which a visible line is composed. -/
def renderDot : Nat := 256

def beginVblank (ppu : Ppu) : Ppu :=
  { ppu with
    status := ppu.status.raise Status.vblankMask true
    nmiPending := ppu.nmiPending || ppu.control.nmiEnabled }

def endVblank (ppu : Ppu) : Ppu :=
  { ppu with
    status := ppu.status.clear
      (Status.vblankMask ||| Status.spriteZeroMask ||| Status.overflowMask) }

def visibleDot (ppu : Ppu) (bus : β) (y : Fin pictureHeight) : Ppu × β :=
  if ppu.raster.dot.val = renderDot then
    let (ppu, bus) := ppu.renderLine bus y
    (if ppu.mask.rendering then { ppu with scroll := ppu.scroll.nextRow } else ppu, bus)
  else if ppu.raster.dot.val = 257 && ppu.mask.rendering then
    ({ ppu with scroll := ppu.scroll.copyColumn }, bus)
  else (ppu, bus)

def preRenderDot (ppu : Ppu) : Ppu :=
  let dot := ppu.raster.dot.val
  if dot = 1 then ppu.endVblank
  else if !ppu.mask.rendering then ppu
  else if dot = 257 then { ppu with scroll := ppu.scroll.copyColumn }
  else if 280 ≤ dot ∧ dot ≤ 304 then { ppu with scroll := ppu.scroll.copyRow }
  else ppu

/-- Advances by one dot.  The flag tells that the dot completed a frame. -/
def tick (ppu : Ppu) (bus : β) : Bool × Ppu × β :=
  let ppu := { ppu with raster := ppu.raster.advance ppu.mask.rendering }
  let line := ppu.raster.scanline.val
  if h : line < pictureHeight then
    (false, ppu.visibleDot bus ⟨line, h⟩)
  else if ppu.raster.isAt vblankLine 1 then
    (true, ppu.beginVblank, bus)
  else if line = preRenderLine then
    (false, ppu.preRenderDot, bus)
  else
    (false, ppu, bus)

end Famicom.Ppu
