import Famicom.Text

/-!
# The raster

A frame is 262 lines of 341 dots: 240 visible lines, an idle one, twenty lines of vertical blank
and the pre-render line.  Every second frame drops the last dot of the pre-render line while
rendering is on.
-/

namespace Famicom.Ppu

def dotsPerLine : Nat := 341

def linesPerFrame : Nat := 262

def visibleLines : Nat := 240

def vblankLine : Nat := 241

def preRenderLine : Nat := 261

structure Position where
  scanline : Nat
  dot : Nat
  rendering : Bool
  deriving DecidableEq

def Position.describe (p : Position) : String :=
  s!"RasterPosition \x7b scanline: {p.scanline}, dot: {p.dot}, " ++
    s!"rendering_enabled: {Text.boolean p.rendering} \x7d"

structure Raster where
  scanline : Fin linesPerFrame
  dot : Fin dotsPerLine
  /-- Frames completed since power came on. -/
  frames : Nat
  /-- The current frame is one of those that may be a dot short. -/
  odd : Bool
  deriving DecidableEq

namespace Raster

def start : Raster :=
  ⟨⟨0, by decide⟩, ⟨0, by decide⟩, 0, false⟩

/-- Back to the first dot of an even frame; the count of frames goes on. -/
def restart (r : Raster) : Raster :=
  { start with frames := r.frames }

def isAt (r : Raster) (scanline dot : Nat) : Bool :=
  r.scanline.val == scanline && r.dot.val == dot

/-- The last dot of the frame is dropped when the beam moves on. -/
def skipsDot (r : Raster) (rendering : Bool) : Bool :=
  r.odd && rendering && r.isAt preRenderLine 339

/-- The first dot of the next line. -/
def nextLine (r : Raster) : Raster :=
  if h : r.scanline.val + 1 < linesPerFrame then
    { r with scanline := ⟨r.scanline.val + 1, h⟩, dot := ⟨0, by decide⟩ }
  else
    ⟨⟨0, by decide⟩, ⟨0, by decide⟩, r.frames + 1, !r.odd⟩

def advance (r : Raster) (rendering : Bool) : Raster :=
  if r.skipsDot rendering then
    r.nextLine
  else if h : r.dot.val + 1 < dotsPerLine then
    { r with dot := ⟨r.dot.val + 1, h⟩ }
  else
    r.nextLine

end Raster

end Famicom.Ppu
