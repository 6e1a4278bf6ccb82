/-!
# Scroll position

The picture processor has one fifteen bit address register that serves two ends.  Through the
data register it is an address of video memory; while rendering, its bit fields are the scroll
position: which tile, in which of the four nametables, and which row of the tile.  Here it is
kept by its fields, and `VramAddress.toNat` and `VramAddress.ofNat` are the two directions of
the encoding.
-/

namespace Famicom.Ppu

structure VramAddress where
  coarseX : Fin 32
  coarseY : Fin 32
  tableX : Fin 2
  tableY : Fin 2
  fineY : Fin 8
  deriving DecidableEq

namespace VramAddress

/-- The address as a number below 2^15. -/
def toNat (a : VramAddress) : Nat :=
  a.coarseX.val + 32 * a.coarseY.val + 0x400 * a.tableX.val + 0x800 * a.tableY.val +
    0x1000 * a.fineY.val

/-- The address with the low fifteen bits of a number. -/
def ofNat (n : Nat) : VramAddress where
  coarseX := ⟨n % 32, by omega⟩
  coarseY := ⟨n / 32 % 32, by omega⟩
  tableX := ⟨n / 0x400 % 2, by omega⟩
  tableY := ⟨n / 0x800 % 2, by omega⟩
  fineY := ⟨n / 0x1000 % 8, by omega⟩

def toWord (a : VramAddress) : UInt16 :=
  a.toNat.toUInt16

theorem toNat_lt (a : VramAddress) : a.toNat < 0x8000 := by
  simp only [toNat]
  omega

theorem toNat_ofNat (n : Nat) : (ofNat n).toNat = n % 0x8000 := by
  simp only [toNat, ofNat]
  omega

theorem ofNat_toNat (a : VramAddress) : ofNat a.toNat = a := by
  obtain ⟨⟨x, hx⟩, ⟨y, hy⟩, ⟨tx, htx⟩, ⟨ty, hty⟩, ⟨fy, hfy⟩⟩ := a
  simp only [toNat, ofNat, VramAddress.mk.injEq, Fin.mk.injEq]
  omega

/-! ### Rendering addresses -/

/-- Where the tile number lies. -/
def tileAddress (a : VramAddress) : Nat :=
  0x2000 + a.toNat % 0x1000

/-- Where the byte with the palettes of the surrounding four by four tiles lies. -/
def attributeAddress (a : VramAddress) : Nat :=
  0x23C0 + 0x400 * a.tableX.val + 0x800 * a.tableY.val + 8 * (a.coarseY.val / 4) +
    a.coarseX.val / 4

/-- Which two bits of that byte belong to the tile. -/
def attributeShift (a : VramAddress) : Nat :=
  4 * (a.coarseY.val / 2 % 2) + 2 * (a.coarseX.val / 2 % 2)

/-- The next tile to the right, entering the neighbouring table at the edge. -/
def nextTile (a : VramAddress) : VramAddress :=
  if a.coarseX.val = 31 then { a with coarseX := 0, tableX := 1 - a.tableX }
  else { a with coarseX := a.coarseX + 1 }

/-- The next row of pixels.  The last row of tiles leads into the table below; the rows behind
it, which hold attributes, wrap within the table. -/
def nextRow (a : VramAddress) : VramAddress :=
  if a.fineY.val < 7 then { a with fineY := a.fineY + 1 }
  else if a.coarseY.val = 29 then { a with fineY := 0, coarseY := 0, tableY := 1 - a.tableY }
  else if a.coarseY.val = 31 then { a with fineY := 0, coarseY := 0 }
  else { a with fineY := 0, coarseY := a.coarseY + 1 }

def withColumnOf (a b : VramAddress) : VramAddress :=
  { a with coarseX := b.coarseX, tableX := b.tableX }

def withRowOf (a b : VramAddress) : VramAddress :=
  { a with coarseY := b.coarseY, tableY := b.tableY, fineY := b.fineY }

end VramAddress

structure Scroll where
  current : VramAddress
  pending : VramAddress
  /-- The column within the first tile. -/
  fineX : Fin 8
  /-- The next write to the scroll or address register is the second of a pair. -/
  second : Bool
  deriving DecidableEq

namespace Scroll

def start : Scroll :=
  ⟨.ofNat 0, .ofNat 0, 0, false⟩

def selectTable (s : Scroll) (value : UInt8) : Scroll :=
  { s with pending := { s.pending with
      tableX := ⟨value.toNat % 2, by omega⟩
      tableY := ⟨value.toNat / 2 % 2, by omega⟩ } }

/-- Takes a write to the scroll register: first the column, then the row. -/
def writeScroll (s : Scroll) (value : UInt8) : Scroll :=
  have hCoarse : value.toNat / 8 < 32 := by have := value.toNat_lt; omega
  have hFine : value.toNat % 8 < 8 := by omega
  if s.second then
    { s with
      pending := { s.pending with coarseY := ⟨_, hCoarse⟩, fineY := ⟨_, hFine⟩ }
      second := false }
  else
    { s with
      pending := { s.pending with coarseX := ⟨_, hCoarse⟩ }
      fineX := ⟨_, hFine⟩
      second := true }

/-- Takes a write to the address register: first the high byte, of which six bits count, then
the low byte, with which the address takes effect. -/
def writeAddress (s : Scroll) (value : UInt8) : Scroll :=
  if s.second then
    let address := VramAddress.ofNat (s.pending.toNat / 256 * 256 + value.toNat)
    { s with current := address, pending := address, second := false }
  else
    { s with
      pending := .ofNat (value.toNat % 64 * 256 + s.pending.toNat % 256)
      second := true }

def increment (s : Scroll) (step : Nat) : Scroll :=
  { s with current := .ofNat (s.current.toNat + step) }

def nextRow (s : Scroll) : Scroll :=
  { s with current := s.current.nextRow }

def copyColumn (s : Scroll) : Scroll :=
  { s with current := s.current.withColumnOf s.pending }

def copyRow (s : Scroll) : Scroll :=
  { s with current := s.current.withRowOf s.pending }

end Scroll

end Famicom.Ppu
