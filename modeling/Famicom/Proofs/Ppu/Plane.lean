import Famicom.Board
import Famicom.Ppu.Scanline
import Famicom.Proofs.Bits

/-!
# The plane of the background

The four nametables form a picture of 512 by 480 points, of which the background shows a part of
256 by 240 that wraps around at the edges.  `Plane.colour` gives the colour of a point by plain
division of its coordinates.  The bit fields of a video memory address are coordinates of a tile
row on the plane, and the 33 tiles of a line are 264 points next to each other.
-/

namespace Famicom.Ppu

/-- What a point of the background depends on. -/
structure Plane where
  nametables : Memory 0x1000
  palette : Memory 32
  mirroring : Mirroring
  pattern : UInt16 → UInt8
  patternTable : Fin 2

namespace Plane

/-- A byte of one of the four nametables, which are numbered row by row. -/
def byte (p : Plane) (table : Fin 4) (offset : Fin 0x400) : UInt8 :=
  have hPage : p.mirroring.page table.val < 4 := p.mirroring.page_lt table.isLt
  p.nametables.get ⟨0x400 * p.mirroring.page table.val + offset.val, by omega⟩

def table (x : Fin 512) (y : Fin 480) : Fin 4 :=
  ⟨2 * (y.val / 240) + x.val / 256, by omega⟩

/-- The tile that a point lies in: nametables have 30 rows of 32 tiles. -/
def tile (p : Plane) (x : Fin 512) (y : Fin 480) : UInt8 :=
  p.byte (table x y) ⟨32 * (y.val % 240 / 8) + x.val % 256 / 8, by omega⟩

/-- The palette of a point: a byte behind the tiles serves 32 by 32 points, with two bits for each
quarter. -/
def paletteNumber (p : Plane) (x : Fin 512) (y : Fin 480) : Nat :=
  let attributes := p.byte (table x y) ⟨0x3C0 + 8 * (y.val % 240 / 32) + x.val % 256 / 32, by omega⟩
  attributes.toNat / 2 ^ (4 * (y.val % 240 / 16 % 2) + 2 * (x.val % 256 / 16 % 2)) % 4

def bit (value : UInt8) (k : Nat) : Nat :=
  value.toNat / 2 ^ k % 2

/-- Where the pattern row of a point lies: a tile has sixteen bytes, eight rows of either plane. -/
def rowAddress (p : Plane) (x : Fin 512) (y : Fin 480) : Nat :=
  0x1000 * p.patternTable.val + 16 * (p.tile x y).toNat + y.val % 240 % 8

/-- The pattern pixel of a point, a bit of either plane; the leftmost pixel of a row is the highest
bit. -/
def pixel (p : Plane) (x : Fin 512) (y : Fin 480) : Nat :=
  bit (p.pattern (.ofNat (p.rowAddress x y))) (7 - x.val % 8) +
    2 * bit (p.pattern (.ofNat (p.rowAddress x y + 8))) (7 - x.val % 8)

theorem paletteNumber_lt (p : Plane) (x : Fin 512) (y : Fin 480) : p.paletteNumber x y < 4 :=
  Nat.mod_lt _ (by decide)

theorem bit_lt (value : UInt8) (k : Nat) : bit value k < 2 :=
  Nat.mod_lt _ (by decide)

theorem pixel_lt (p : Plane) (x : Fin 512) (y : Fin 480) : p.pixel x y < 4 := by
  have hLow := bit_lt (p.pattern (.ofNat (p.rowAddress x y))) (7 - x.val % 8)
  have hHigh := bit_lt (p.pattern (.ofNat (p.rowAddress x y + 8))) (7 - x.val % 8)
  unfold pixel
  omega

/-- The palette entry of a point; a pattern pixel of zero shows the first entry of all. -/
def entry (p : Plane) (x : Fin 512) (y : Fin 480) : Fin 32 :=
  have hPalette := p.paletteNumber_lt x y
  have hPixel := p.pixel_lt x y
  ⟨if p.pixel x y = 0 then 0 else 4 * p.paletteNumber x y + p.pixel x y, by split <;> omega⟩

def colour (p : Plane) (x : Fin 512) (y : Fin 480) : UInt32 :=
  colourOf (p.palette.get (p.entry x y))

end Plane

/-! ### Addresses on the plane -/

/-- The address points at a tile row that begins at a point of the plane. -/
structure Aimed (a : VramAddress) (x y : Nat) : Prop where
  column : 256 * a.tableX.val + 8 * a.coarseX.val = x
  row : 240 * a.tableY.val + 8 * a.coarseY.val + a.fineY.val = y
  tile : a.coarseY.val < 30

namespace Aimed

variable {a : VramAddress} {x y : Nat}

theorem flip_val (t : Fin 2) : (1 - t).val = 1 - t.val := by
  match t with
  | 0 => rfl
  | 1 => rfl

theorem nextTile (h : Aimed a x y) : Aimed a.nextTile ((x + 8) % 512) y := by
  obtain ⟨hColumn, hRow, hTile⟩ := h
  unfold VramAddress.nextTile
  split
  · refine ⟨?_, hRow, hTile⟩
    show 256 * (1 - a.tableX).val + 8 * 0 = _
    have hFlip := flip_val a.tableX
    omega
  · refine ⟨?_, hRow, hTile⟩
    show 256 * a.tableX.val + 8 * (a.coarseX + 1).val = _
    have hNext : (a.coarseX + 1).val = (a.coarseX.val + 1) % 32 := Fin.val_add _ _
    omega

theorem nextRow (h : Aimed a x y) : Aimed a.nextRow x ((y + 1) % 480) := by
  obtain ⟨hColumn, hRow, hTile⟩ := h
  unfold VramAddress.nextRow
  split
  · refine ⟨hColumn, ?_, hTile⟩
    show 240 * a.tableY.val + 8 * a.coarseY.val + (a.fineY + 1).val = _
    have hNext : (a.fineY + 1).val = (a.fineY.val + 1) % 8 := Fin.val_add _ _
    omega
  · split
    · refine ⟨hColumn, ?_, (by decide : 0 < 30)⟩
      show 240 * (1 - a.tableY).val + 8 * 0 + 0 = _
      have hFlip := flip_val a.tableY
      omega
    · have hNext : (a.coarseY + 1).val = (a.coarseY.val + 1) % 32 := Fin.val_add _ _
      split
      · omega
      · refine ⟨hColumn, ?_, ?_⟩
        · show 240 * a.tableY.val + 8 * (a.coarseY + 1).val + 0 = _
          omega
        · show (a.coarseY + 1).val < 30
          omega

theorem withColumnOf {b : VramAddress} {z : Nat} (h : Aimed a x y) (hb : Aimed b x z) :
    Aimed (a.withColumnOf b) x y :=
  ⟨hb.column, h.row, h.tile⟩

end Aimed

/-! ### Buses with fixed patterns -/

variable {β : Type} [PatternBus β]

/-- The buses that reads of patterns lead to. -/
inductive Reads (bus : β) : β → Prop where
  | refl : Reads bus bus
  | read {next : β} (h : Reads bus next) (address : UInt16) :
    Reads bus (PatternBus.read next address).2

theorem Reads.trans {a b c : β} (h : Reads a b) (h' : Reads b c) : Reads a c := by
  induction h' with
  | refl => exact h
  | read _ address ih => exact .read ih address

theorem Reads.of_read {bus next : β} {address : UInt16}
    (h : Reads (PatternBus.read bus address).2 next) : Reads bus next :=
  (Reads.read .refl address).trans h

/-- A board answers pattern reads without changing. -/
theorem eq_of_reads {board next : Board} (h : Reads board next) : next = board := by
  induction h with
  | refl => rfl
  | read _ address ih => exact ih

/-- Whatever was read before, the bus answers with the byte that a fixed pattern has at the
address, and its mirroring stays. -/
structure Steady (bus : β) (pattern : UInt16 → UInt8) (mirroring : Mirroring) : Prop where
  answers : ∀ {next : β}, Reads bus next →
    ∀ address, (PatternBus.read next address).1 = pattern address
  keeps : ∀ {next : β}, Reads bus next → PatternBus.mirroring next = mirroring

variable {bus : β} {pattern : UInt16 → UInt8} {mirroring : Mirroring}

theorem Steady.read (h : Steady bus pattern mirroring) (address : UInt16) :
    (PatternBus.read bus address).1 = pattern address ∧
      Steady (PatternBus.read bus address).2 pattern mirroring :=
  ⟨h.answers .refl address, fun hReads => h.answers hReads.of_read,
    fun hReads => h.keeps hReads.of_read⟩

/-! ### Tiles -/

def plane (ppu : Ppu) (pattern : UInt16 → UInt8) (mirroring : Mirroring) : Plane :=
  ⟨ppu.nametables, ppu.palette, mirroring, pattern,
    ⟨ppu.control.bits.toNat / 16 % 2, Nat.mod_lt _ (by decide)⟩⟩

/-- The palette entry of a point before a pattern pixel of zero is taken for transparent. -/
def Plane.tint (p : Plane) (x y : Nat) : Nat :=
  4 * p.paletteNumber (.ofNat 512 x) (.ofNat 480 y) + p.pixel (.ofNat 512 x) (.ofNat 480 y)

theorem patternPixel_toNat (low high : UInt8) {column : Nat} (h : column < 8) :
    (patternPixel low high column).toNat =
      Plane.bit low (7 - column) + 2 * Plane.bit high (7 - column) := by
  have hFirst := toNat_field low 1 (by omega : 7 - column < 8) (by rfl : _ = 2 ^ 1 - 1)
  have hSecond := toNat_field high 1 (by omega : 7 - column < 8) (by rfl : _ = 2 ^ 1 - 1)
  have hLow := Plane.bit_lt low (7 - column)
  have hHigh := Plane.bit_lt high (7 - column)
  unfold Plane.bit at *
  unfold patternPixel
  rw [UInt8.or_comm, toNat_join (by decide)]
  · rw [hFirst, hSecond]
    show _ * 2 + _ = _
    omega
  · rw [hFirst]
    exact hLow
  · rw [hSecond]
    show _ * 2 < 256
    omega

theorem backgroundTable_toNat (c : Control) :
    c.backgroundTable.toNat = 0x1000 * (c.bits.toNat / 16 % 2) := by
  have hBit : anyBit c.bits 0x10 = true ↔ c.bits.toNat / 2 ^ 4 % 2 = 1 := anyBit_single rfl
  unfold Control.backgroundTable
  cases hOn : anyBit c.bits 0x10 with
  | true =>
    have hOne : c.bits.toNat / 16 % 2 = 1 := hBit.1 hOn
    rw [hOne]
    rfl
  | false =>
    have hZero : c.bits.toNat / 16 % 2 = 0 := by
      have hNot : c.bits.toNat / 16 % 2 ≠ 1 := by
        intro hOne
        rw [hBit.2 hOne] at hOn
        cases hOn
      omega
    rw [hZero]
    rfl

theorem nametableByte_eq (ppu : Ppu) (pattern : UInt16 → UInt8)
    (h : PatternBus.mirroring bus = mirroring) {address : Nat} {table : Fin 4}
    {offset : Fin 0x400} (hAddress : address = 0x2000 + 0x400 * table.val + offset.val) :
    ppu.nametableByte bus address = (ppu.plane pattern mirroring).byte table offset := by
  subst hAddress
  unfold nametableByte Plane.byte
  rw [h]
  have hTable : (0x2000 + 0x400 * table.val + offset.val) % 0x1000 / 0x400 = table.val := by omega
  have hOffset : (0x2000 + 0x400 * table.val + offset.val) % 0x400 = offset.val := by omega
  refine congrArg ppu.nametables.get (Fin.ext ?_)
  show mirroring.page (_ % 0x1000 / 0x400) * 0x400 + _ % 0x400 =
    0x400 * mirroring.page table.val + _
  rw [hTable, hOffset, Nat.mul_comm]

/-- The point lies in a column of the tile row that an address points at. -/
structure Covers (a : VramAddress) (column : Nat) (x : Fin 512) (y : Fin 480) : Prop where
  inside : column < 8
  x : x.val = 256 * a.tableX.val + 8 * a.coarseX.val + column
  y : y.val = 240 * a.tableY.val + 8 * a.coarseY.val + a.fineY.val
  tile : a.coarseY.val < 30

theorem Aimed.covers {a : VramAddress} {x y column : Nat} (h : Aimed a x y) (hc : column < 8) :
    Covers a column (.ofNat 512 (x + column)) (.ofNat 480 y) := by
  obtain ⟨hColumn, hRow, hTile⟩ := h
  refine ⟨hc, ?_, ?_, hTile⟩
  · show (x + column) % 512 = _
    omega
  · show y % 480 = _
    omega

section Covers

variable {a : VramAddress} {column : Nat} {x : Fin 512} {y : Fin 480}

theorem Covers.fields (h : Covers a column x y) :
    (x.val / 256 = a.tableX.val ∧ x.val % 256 / 8 = a.coarseX.val ∧ x.val % 8 = column) ∧
      y.val / 240 = a.tableY.val ∧ y.val % 240 / 8 = a.coarseY.val ∧
      y.val % 240 % 8 = a.fineY.val := by
  obtain ⟨hc, hx, hy, hTile⟩ := h
  omega

theorem nametableByte_tile (ppu : Ppu) (pattern : UInt16 → UInt8)
    (hBus : PatternBus.mirroring bus = mirroring) (h : Covers a column x y) :
    ppu.nametableByte bus a.tileAddress = (ppu.plane pattern mirroring).tile x y := by
  obtain ⟨⟨hTableX, hCoarseX, -⟩, hTableY, hCoarseY, -⟩ := h.fields
  refine ppu.nametableByte_eq pattern hBus ?_
  show 0x2000 + a.toNat % 0x1000 =
    0x2000 + 0x400 * (2 * (y.val / 240) + x.val / 256) + (32 * (y.val % 240 / 8) + x.val % 256 / 8)
  rw [hTableX, hCoarseX, hTableY, hCoarseY, VramAddress.toNat]
  omega

theorem palette_toNat (ppu : Ppu) (pattern : UInt16 → UInt8)
    (hBus : PatternBus.mirroring bus = mirroring) (h : Covers a column x y) :
    (ppu.nametableByte bus a.attributeAddress >>> a.attributeShift.toUInt8 &&& 0x03).toNat =
      (ppu.plane pattern mirroring).paletteNumber x y := by
  obtain ⟨hc, hx, hy, hTile⟩ := h
  have hShift : a.attributeShift = 4 * (y.val % 240 / 16 % 2) + 2 * (x.val % 256 / 16 % 2) := by
    unfold VramAddress.attributeShift
    omega
  have hByte : ppu.nametableByte bus a.attributeAddress = (ppu.plane pattern mirroring).byte
      (Plane.table x y) ⟨0x3C0 + 8 * (y.val % 240 / 32) + x.val % 256 / 32, by omega⟩ := by
    refine ppu.nametableByte_eq pattern hBus ?_
    show a.attributeAddress = 0x2000 + 0x400 * (2 * (y.val / 240) + x.val / 256) +
      (0x3C0 + 8 * (y.val % 240 / 32) + x.val % 256 / 32)
    unfold VramAddress.attributeAddress
    omega
  rw [toNat_field _ _ (by omega) (by rfl : (0x03 : UInt8).toNat = 2 ^ 2 - 1), hByte, hShift]
  rfl

theorem tilePatternAddress_eq (ppu : Ppu) (pattern : UInt16 → UInt8) (mirroring : Mirroring)
    (h : Covers a column x y) :
    tilePatternAddress ppu.control.backgroundTable ((ppu.plane pattern mirroring).tile x y)
      a.fineY.val = .ofNat ((ppu.plane pattern mirroring).rowAddress x y) := by
  have hTable := backgroundTable_toNat ppu.control
  have hRow := h.fields.2.2.2
  have hFine := a.fineY.isLt
  unfold tilePatternAddress Plane.rowAddress
  generalize (ppu.plane pattern mirroring).tile x y = tile
  have hBound := tile.toNat_lt
  apply UInt16.toNat_inj.1
  rw [hRow, UInt16.toNat_ofNat_of_lt' (by show _ < 65536; simp only [plane]; omega)]
  simp only [UInt16.toNat_add, UInt16.toNat_mul, hTable, plane, UInt8.toNat_toUInt16]
  simp
  omega

theorem patternPixel_row (ppu : Ppu) (pattern : UInt16 → UInt8)
    (hBus : PatternBus.mirroring bus = mirroring) (h : Covers a column x y) :
    let address := tilePatternAddress ppu.control.backgroundTable
      (ppu.nametableByte bus a.tileAddress) a.fineY.val
    (patternPixel (pattern address) (pattern (address + 8)) column).toNat =
      (ppu.plane pattern mirroring).pixel x y := by
  intro address
  have hAddress : address = .ofNat ((ppu.plane pattern mirroring).rowAddress x y) := by
    rw [← ppu.tilePatternAddress_eq pattern mirroring h, ← ppu.nametableByte_tile pattern hBus h]
  rw [patternPixel_toNat _ _ h.inside, hAddress, Plane.pixel, h.fields.1.2.2, UInt16.ofNat_add]
  rfl

end Covers

theorem fetchTile_steady (ppu : Ppu) (h : Steady bus pattern mirroring) (a : VramAddress) :
    let address := tilePatternAddress ppu.control.backgroundTable
      (ppu.nametableByte bus a.tileAddress) a.fineY.val
    (ppu.fetchTile bus a).1 = ⟨pattern address, pattern (address + 8),
        ppu.nametableByte bus a.attributeAddress >>> a.attributeShift.toUInt8 &&& 0x03⟩ ∧
      Steady (ppu.fetchTile bus a).2 pattern mirroring := by
  intro address
  obtain ⟨hLow, hNext⟩ := h.read address
  obtain ⟨hHigh, hLast⟩ := hNext.read (address + 8)
  refine ⟨?_, hLast⟩
  rw [← hLow, ← hHigh]
  rfl

/-- A tile fetched from a steady bus shows eight points of the plane. -/
theorem fetchTile_entry (ppu : Ppu) (h : Steady bus pattern mirroring) {a : VramAddress}
    {x y column : Nat} (hAim : Aimed a x y) (hc : column < 8) :
    ((ppu.fetchTile bus a).1.entry column).toNat =
      (ppu.plane pattern mirroring).tint (x + column) y := by
  have hCovers := hAim.covers hc
  have hPalette := ppu.palette_toNat pattern (h.keeps .refl) hCovers
  have hPixel := ppu.patternPixel_row pattern (h.keeps .refl) hCovers
  have hPaletteLt := (ppu.plane pattern mirroring).paletteNumber_lt (.ofNat 512 (x + column))
    (.ofNat 480 y)
  have hPixelLt := (ppu.plane pattern mirroring).pixel_lt (.ofNat 512 (x + column)) (.ofNat 480 y)
  rw [(ppu.fetchTile_steady h a).1, TileRow.entry, toNat_join (by decide), hPalette, hPixel,
    Plane.tint]
  · show _ * 4 + _ = _
    omega
  · rw [hPixel]
    exact hPixelLt
  · rw [hPalette]
    show _ * 4 < 256
    omega

theorem Plane.tint_mod (p : Plane) (x column y : Nat) :
    p.tint (x % 512 + column) y = p.tint (x + column) y := by
  have hPoint : Fin.ofNat 512 (x % 512 + column) = Fin.ofNat 512 (x + column) :=
    Fin.ext (Nat.mod_add_mod x 512 column)
  rw [tint, hPoint, tint]

theorem fetchTiles_steady (ppu : Ppu) (h : Steady bus pattern mirroring) (start : VramAddress)
    (n : Nat) : Steady (ppu.fetchTiles start n bus).2.2 pattern mirroring := by
  induction n with
  | zero => exact h
  | succ n ih => exact (ppu.fetchTile_steady ih _).2

theorem fetchTiles_entry (ppu : Ppu) (h : Steady bus pattern mirroring) {start : VramAddress}
    {x y : Nat} (hAim : Aimed start x y) (n : Nat) :
    Aimed (ppu.fetchTiles start n bus).2.1 ((x + 8 * n) % 512) y ∧
      ∀ (i : Nat) (hi : i < n) (column : Nat), column < 8 →
        ((ppu.fetchTiles start n bus).1[i].entry column).toNat =
          (ppu.plane pattern mirroring).tint (x + 8 * i + column) y := by
  induction n with
  | zero =>
    have hColumn := hAim.column
    have hWrap : (x + 8 * 0) % 512 = x := by omega
    rw [hWrap]
    exact ⟨hAim, fun i hi => absurd hi (Nat.not_lt_zero i)⟩
  | succ n ih =>
    obtain ⟨hPlace, hTiles⟩ := ih
    refine ⟨?_, ?_⟩
    · have hNext := hPlace.nextTile
      rw [Nat.mod_add_mod, Nat.add_assoc, ← Nat.mul_succ] at hNext
      exact hNext
    · intro i hi column hc
      have hPush : (ppu.fetchTiles start (n + 1) bus).1 = (ppu.fetchTiles start n bus).1.push
        (ppu.fetchTile (ppu.fetchTiles start n bus).2.2 (ppu.fetchTiles start n bus).2.1).1 := rfl
      rw [getElem_congr_coll hPush, Vector.getElem_push]
      split
      · rename_i hBefore
        exact hTiles i hBefore column hc
      · obtain rfl : i = n := by omega
        have hEntry := ppu.fetchTile_entry (ppu.fetchTiles_steady h start i) hPlace hc
        rw [Plane.tint_mod] at hEntry
        exact hEntry

/-! ### Lines -/

/-- The mask shows all of the background, in full colour, and nothing else. -/
structure Mask.PlainBackground (m : Mask) : Prop where
  background : m.background = true
  backgroundLeft : m.backgroundLeft = true
  sprites : m.sprites = false
  greyscale : m.greyscale = false

theorem Mask.PlainBackground.rendering {m : Mask} (h : m.PlainBackground) : m.rendering = true :=
  anyBit_mono (by decide : (0x18 : UInt8) &&& 0x08 = 0x08) h.background

theorem fetchLine_plain (ppu : Ppu) (hMask : ppu.mask.PlainBackground) (bus : β) (line : Nat) :
    ppu.fetchLine bus line = (⟨some (ppu.fetchTiles ppu.scroll.current 33 bus).1, [], false⟩,
      (ppu.fetchTiles ppu.scroll.current 33 bus).2.2) := by
  simp only [fetchLine, fetchBackground, hMask.background, hMask.sprites, ↓reduceIte,
    Bool.false_eq_true]

theorem fetchLine_steady (ppu : Ppu) (hMask : ppu.mask.PlainBackground)
    (h : Steady bus pattern mirroring) (line : Nat) :
    Steady (ppu.fetchLine bus line).2 pattern mirroring := by
  rw [ppu.fetchLine_plain hMask]
  dsimp only
  exact ppu.fetchTiles_steady h ppu.scroll.current 33

theorem fetchLine_entry (ppu : Ppu) (hMask : ppu.mask.PlainBackground)
    (h : Steady bus pattern mirroring) {x y : Nat} (hAim : Aimed ppu.scroll.current x y)
    (line : Nat) (i : Fin 256) :
    (ppu.backgroundEntry (ppu.fetchLine bus line).1 i).toNat =
      (ppu.plane pattern mirroring).tint (x + ppu.scroll.fineX.val + i.val) y := by
  have hEntry := (ppu.fetchTiles_entry h hAim 33).2 ((i.val + ppu.scroll.fineX.val) / 8) (by omega)
    ((i.val + ppu.scroll.fineX.val) % 8) (Nat.mod_lt _ (by decide))
  have hSum : x + 8 * ((i.val + ppu.scroll.fineX.val) / 8) + (i.val + ppu.scroll.fineX.val) % 8 =
      x + ppu.scroll.fineX.val + i.val := by omega
  rw [hSum] at hEntry
  rw [ppu.fetchLine_plain hMask]
  simp only [backgroundEntry, hMask.backgroundLeft, Bool.not_true, Bool.and_false,
    Bool.false_eq_true, ↓reduceIte]
  exact hEntry

theorem paletteIndex_tint (p : Plane) {entry : UInt8} {x y : Nat}
    (h : entry.toNat = p.tint x y) :
    paletteIndex (if opaqueEntry entry then entry else 0).toNat =
      p.entry (.ofNat 512 x) (.ofNat 480 y) := by
  have hOpaque : opaqueEntry entry = true ↔ entry.toNat % 2 ^ 2 ≠ 0 := anyBit_low rfl
  have hPaletteLt := p.paletteNumber_lt (.ofNat 512 x) (.ofNat 480 y)
  have hPixelLt := p.pixel_lt (.ofNat 512 x) (.ofNat 480 y)
  have hTint : p.tint x y = 4 * p.paletteNumber (.ofNat 512 x) (.ofNat 480 y) +
    p.pixel (.ofNat 512 x) (.ofNat 480 y) := rfl
  apply Fin.ext
  show paletteEntry _ = if p.pixel (.ofNat 512 x) (.ofNat 480 y) = 0 then 0 else
    4 * p.paletteNumber (.ofNat 512 x) (.ofNat 480 y) + p.pixel (.ofNat 512 x) (.ofNat 480 y)
  cases hOn : opaqueEntry entry with
  | true =>
    have hSome := hOpaque.1 hOn
    rw [if_pos rfl, paletteEntry, if_neg (by omega), if_neg (by omega)]
    omega
  | false =>
    have hNone : ¬entry.toNat % 2 ^ 2 ≠ 0 := fun hSome => by simp [hOpaque.2 hSome] at hOn
    rw [if_neg Bool.false_ne_true, if_pos (by omega)]
    rfl

theorem composeLine_get (ppu : Ppu) (hMask : ppu.mask.PlainBackground)
    (h : Steady bus pattern mirroring) {x y : Nat} (hAim : Aimed ppu.scroll.current x y)
    (line : Nat) (i : Fin 256) :
    (ppu.composeLine (ppu.fetchLine bus line).1).get i = (ppu.plane pattern mirroring).colour
      (.ofNat 512 (x + ppu.scroll.fineX.val + i.val)) (.ofNat 480 y) := by
  have hSprite : ppu.visibleSprite (ppu.fetchLine bus line).1 i = none := by
    rw [ppu.fetchLine_plain hMask, visibleSprite]
    split <;> rfl
  have hComposed : ppu.composedEntry (ppu.fetchLine bus line).1 i =
      if opaqueEntry (ppu.backgroundEntry (ppu.fetchLine bus line).1 i) then
        ppu.backgroundEntry (ppu.fetchLine bus line).1 i else 0 := by
    simp only [composedEntry, hSprite]
  have hGet : (ppu.composeLine (ppu.fetchLine bus line).1).get i =
      ppu.entryColour (ppu.composedEntry (ppu.fetchLine bus line).1 i) :=
    Vector.getElem_ofFn i.isLt
  rw [hGet, hComposed, entryColour, hMask.greyscale,
    paletteIndex_tint _ (ppu.fetchLine_entry hMask h hAim line i)]
  rfl

end Famicom.Ppu
