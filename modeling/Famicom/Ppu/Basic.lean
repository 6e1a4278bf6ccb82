import Famicom.Frame
import Famicom.Memory
import Famicom.Ppu.Flags
import Famicom.Ppu.Palette
import Famicom.Ppu.Raster
import Famicom.Ppu.Scroll
import Famicom.Text

/-!
# The picture processor

Its registers, its memories, the place of the beam and the picture composed so far.  Snapshots
of what programs and tools can observe are taken after every dot.
-/

namespace Famicom

def pictureWidth : Nat := 256

def pictureHeight : Nat := 240

abbrev Picture : Type :=
  Vector UInt32 (pictureWidth * pictureHeight)

structure Ppu where
  control : Ppu.Control
  mask : Ppu.Mask
  status : Ppu.Status
  oamAddress : UInt8
  /-- Sprite memory: four bytes for each of 64 sprites. -/
  oam : Memory 256
  scroll : Ppu.Scroll
  /-- The byte that the next read of the data register gives. -/
  readBuffer : UInt8
  /-- The byte last seen on the register bus. -/
  openBus : UInt8
  nametables : Memory 0x1000
  palette : Memory 32
  raster : Ppu.Raster
  /-- An interrupt was raised and not yet collected. -/
  nmiPending : Bool
  picture : Picture

namespace Ppu

def powerOn : Ppu where
  control := ⟨0⟩
  mask := ⟨0⟩
  status := ⟨0⟩
  oamAddress := 0
  oam := Memory.zeroed 256
  scroll := .start
  readBuffer := 0
  openBus := 0
  nametables := Memory.zeroed 0x1000
  palette := Memory.zeroed 32
  raster := .start
  nmiPending := false
  picture := Vector.replicate _ 0xFF000000

/-- Clears the registers and returns the beam to the first dot; memories and addresses stay. -/
def reset (ppu : Ppu) : Ppu :=
  { ppu with
    control := ⟨0⟩
    mask := ⟨0⟩
    status := ⟨0⟩
    scroll := { ppu.scroll with second := false }
    readBuffer := 0
    raster := ppu.raster.restart
    nmiPending := false }

def takeNmi (ppu : Ppu) : Bool × Ppu :=
  if ppu.nmiPending then (true, { ppu with nmiPending := false }) else (false, ppu)

def frame (ppu : Ppu) : Frame :=
  ⟨pictureWidth, pictureHeight, ppu.picture⟩

/-- The place of the beam as the cartridge sees it. -/
def position (ppu : Ppu) : Position :=
  ⟨ppu.raster.scanline.val, ppu.raster.dot.val, ppu.mask.rendering⟩

structure Snapshot where
  scanline : Nat
  dot : Nat
  frames : Nat
  control : UInt8
  mask : UInt8
  status : UInt8
  current : UInt16
  pending : UInt16
  deriving DecidableEq

def snapshot (ppu : Ppu) : Snapshot where
  scanline := ppu.raster.scanline.val
  dot := ppu.raster.dot.val
  frames := ppu.raster.frames
  control := ppu.control.bits
  mask := ppu.mask.bits
  status := ppu.status.bits
  current := ppu.scroll.current.toWord
  pending := ppu.scroll.pending.toWord

def Snapshot.stateLine (s : Snapshot) : String :=
  s!"PPU:{Text.padLeft 3 (toString s.scanline)},{Text.padLeft 3 (toString s.dot)}" ++
    s!" FRAME:{s.frames} CTRL:{Text.hexByte s.control} MASK:{Text.hexByte s.mask}" ++
    s!" STATUS:{Text.hexByte s.status} V:{Text.hexWord s.current}"

end Ppu

end Famicom
