import Famicom.Proofs.Checked.Scanline
import Famicom.Proofs.Ppu.PatternReads
import Famicom.Proofs.Ppu.ScrolledPicture
import Mathlib.Order.Bounds.Basic
import Mathlib.Order.Fin.Basic

/-!
# The composed line

What a line shows, said by the bytes of sprite memory, nametables and patterns alone: of the first
eight sprites that meet the line the first one that is not clear in a column stands there, in
front of the background or behind it.  A composed line is this picture, and the flags of sprite
hit and overflow are raised by it.
-/

namespace Famicom.Ppu

variable {β : Type} [PatternBus β]

/-! ### The scene -/

/-- What the picture of a line depends on. -/
structure Scene where
  ppu : Ppu
  pattern : UInt16 → UInt8
  /-- The mirroring in effect for each tile of the line, from left to right. -/
  mirroring : Nat → Mirroring

namespace Scene

def control (s : Scene) (bit : Nat) : Bool :=
  s.ppu.control.bits.toNat.testBit bit

def mask (s : Scene) (bit : Nat) : Bool :=
  s.ppu.mask.bits.toNat.testBit bit

/-- The pixel of a pattern row in a column from the left: a bit of each of two bytes, which lie
eight places apart. -/
def patternPixel (s : Scene) (row column : Nat) : Nat :=
  Plane.bit (s.pattern (.ofNat row)) (7 - column) +
    2 * Plane.bit (s.pattern (.ofNat (row + 8))) (7 - column)

/-! #### Sprites -/

/-- A byte of a sprite: its line, tile, attributes and column, in this order. -/
def spriteByte (s : Scene) (i : Fin 64) (k : Fin 4) : Nat :=
  (s.ppu.oam.get ⟨4 * i.val + k.val, by omega⟩).toNat

def height (s : Scene) : Nat :=
  if s.control 5 then 16 else 8

def meets (s : Scene) (y : Nat) (i : Fin 64) : Bool :=
  decide (s.spriteByte i 0 + 1 ≤ y ∧ y < s.spriteByte i 0 + 1 + s.height)

def found (s : Scene) (y : Nat) : List (Fin 64) :=
  (List.finRange 64).filter (s.meets y)

def selected (s : Scene) (y : Nat) : List (Fin 64) :=
  (s.found y).take 8

/-- The row of the sprite on the line, turned upside down by bit 7 of the attributes. -/
def spriteRow (s : Scene) (y : Nat) (i : Fin 64) : Nat :=
  let row := y - (s.spriteByte i 0 + 1)
  if (s.spriteByte i 2).testBit 7 then s.height - 1 - row else row

/-- Where the pattern of that row lies.  A tall sprite is two tiles, of which the first has an even
number, in the table that the lowest bit of the number names. -/
def spriteAddress (s : Scene) (y : Nat) (i : Fin 64) : Nat :=
  let tile := s.spriteByte i 1
  let row := s.spriteRow y i
  if s.control 5 then 0x1000 * (tile % 2) + 16 * (tile / 2 * 2 + row / 8) + row % 8
  else 0x1000 * (s.control 3).toNat + 16 * tile + row

/-- The pixel of a sprite in a column of the line, turned round by bit 6 of the attributes; zero
outside of its eight columns. -/
def spritePixel (s : Scene) (y : Nat) (i : Fin 64) (x : Nat) : Nat :=
  let left := s.spriteByte i 3
  if left ≤ x ∧ x < left + 8 then
    s.patternPixel (s.spriteAddress y i)
      (if (s.spriteByte i 2).testBit 6 then 7 - (x - left) else x - left)
  else 0

def spritesShow (s : Scene) (x : Nat) : Bool :=
  s.mask 4 && (8 ≤ x || s.mask 2)

def sprite (s : Scene) (y x : Nat) : Option (Fin 64) :=
  if s.spritesShow x then (s.selected y).find? fun i => s.spritePixel y i x != 0 else none

/-! #### Background -/

/-- How many points a column of the line lies behind the left edge of the first tile. -/
def reach (s : Scene) (x : Fin 256) : Nat :=
  x.val + s.ppu.scroll.fineX.val

/-- The column of the four nametables under a column of the line, around their edge. -/
def point (s : Scene) (x : Fin 256) : Fin 512 :=
  ⟨(256 * s.ppu.scroll.current.tableX.val + 8 * s.ppu.scroll.current.coarseX.val + s.reach x) % 512,
    by omega⟩

def nametableByte (s : Scene) (x : Fin 256) (offset : Fin 0x400) : UInt8 :=
  (s.ppu.plane s.pattern (s.mirroring (s.reach x / 8))).byte
    ⟨2 * s.ppu.scroll.current.tableY.val + (s.point x).val / 256, by omega⟩ offset

def tile (s : Scene) (x : Fin 256) : Nat :=
  (s.nametableByte x
    ⟨32 * s.ppu.scroll.current.coarseY.val + (s.point x).val % 256 / 8, by omega⟩).toNat

def palette (s : Scene) (x : Fin 256) : Nat :=
  let row := s.ppu.scroll.current.coarseY.val
  let attributes := s.nametableByte x ⟨0x3C0 + 8 * (row / 4) + (s.point x).val % 256 / 32, by omega⟩
  attributes.toNat / 2 ^ (4 * (row / 2 % 2) + 2 * ((s.point x).val % 256 / 16 % 2)) % 4

def tint (s : Scene) (x : Fin 256) : Nat :=
  4 * s.palette x + s.patternPixel
    (0x1000 * (s.control 4).toNat + 16 * s.tile x + s.ppu.scroll.current.fineY.val)
    ((s.point x).val % 8)

def background (s : Scene) (x : Fin 256) : Nat :=
  if s.mask 3 && (8 ≤ x.val || s.mask 1) then s.tint x else 0

/-- The background is not clear in a column. -/
def covered (s : Scene) (x : Fin 256) : Bool :=
  s.background x % 4 != 0

/-! #### Both -/

def entry (s : Scene) (y : Nat) (x : Fin 256) : Nat :=
  let behind := if s.covered x then s.background x else 0
  match s.sprite y x.val with
  | some i =>
    if s.covered x && (s.spriteByte i 2).testBit 5 then behind
    else 16 + 4 * (s.spriteByte i 2 % 4) + s.spritePixel y i x.val
  | none => behind

def colour (s : Scene) (y : Nat) (x : Fin 256) : UInt32 :=
  let shade := (s.ppu.palette.get ⟨s.entry y x % 32, by omega⟩).toNat
  colours.get ⟨(if s.mask 0 then shade / 16 % 4 * 16 else shade) % 64, by omega⟩

end Scene

/-! ### Buses with fixed patterns -/

/-- Whatever was read before, the bus answers with the byte that a fixed pattern has at the
address. -/
def Answers (bus : β) (pattern : UInt16 → UInt8) : Prop :=
  ∀ next, Reads bus next → ∀ address, (PatternBus.read next address).1 = pattern address

variable {bus : β} {pattern : UInt16 → UInt8}

theorem Answers.read (h : Answers bus pattern) (address : UInt16) :
    (PatternBus.read bus address).1 = pattern address ∧
      Answers (PatternBus.read bus address).2 pattern :=
  ⟨h bus .refl address, fun next hReads => h next hReads.of_read⟩

theorem Answers.of_reads {next : β} (h : Answers bus pattern) (hReads : Reads bus next) :
    Answers next pattern :=
  fun _ later => h _ (hReads.trans later)

/-! ### Sprites of a line -/

def patternRow (ppu : Ppu) (pattern : UInt16 → UInt8) (line : Nat) (i : Fin 64) : SpriteRow :=
  let address := spritePatternAddress ppu.control (ppu.spriteTile i) (ppu.spriteRow line i)
  ⟨i, ppu.spriteLeft i, pattern address, pattern (address + 8), ppu.spriteAttributes i⟩

theorem fetchSprites_answers (ppu : Ppu) (h : Answers bus pattern) (line : Nat)
    (found : List (Fin 64)) :
    (ppu.fetchSprites line found bus).1 = found.map (ppu.patternRow pattern line) := by
  induction found generalizing bus with
  | nil => rfl
  | cons i rest ih =>
    let address := spritePatternAddress ppu.control (ppu.spriteTile i) (ppu.spriteRow line i)
    obtain ⟨hLow, hNext⟩ := h.read address
    obtain ⟨hHigh, hLast⟩ := hNext.read (address + 8)
    have hRow : (ppu.fetchSprite bus line i).1 = ppu.patternRow pattern line i := by
      rw [patternRow, ← hLow, ← hHigh]
      rfl
    rw [List.map_cons, ← hRow, ← ih hLast]
    rfl

namespace Scene

variable (s : Scene)

theorem height_eq : s.height = s.ppu.control.spriteHeight := by
  rw [height, Control.spriteHeight, anyBit_testBit (k := 5) rfl]
  rfl

theorem found_eq (y : Nat) : s.found y = s.ppu.spritesOnLine y := by
  have hMeets : s.meets y = s.ppu.spriteOnLine y := by
    funext i
    rw [meets, spriteOnLine, height_eq, Bool.decide_and]
    rfl
  rw [found, hMeets, spritesOnLine]

theorem spriteRow_eq (y : Nat) (i : Fin 64) : s.spriteRow y i = s.ppu.spriteRow y i := by
  rw [spriteRow, Ppu.spriteRow, height_eq, anyBit_testBit (k := 7) rfl]
  rfl

theorem tile_parts (tile : UInt8) :
    (tile &&& 0x01).toNat = tile.toNat % 2 ∧ (tile &&& 0xFE).toNat = tile.toNat / 2 * 2 :=
  forall_byte (p := fun tile => (tile &&& 0x01).toNat = tile.toNat % 2 ∧
    (tile &&& 0xFE).toNat = tile.toNat / 2 * 2) (by decide +kernel) tile

theorem table_toNat (second : Bool) :
    (if second then (0x1000 : UInt16) else 0).toNat = 0x1000 * second.toNat := by
  cases second <;> rfl

theorem spriteAddress_eq (y : Nat) (i : Fin 64) :
    spritePatternAddress s.ppu.control (s.ppu.spriteTile i) (s.ppu.spriteRow y i) =
      .ofNat (s.spriteAddress y i) := by
  obtain ⟨hOdd, hEven⟩ := tile_parts (s.ppu.spriteTile i)
  have hTile : s.spriteByte i 1 = (s.ppu.spriteTile i).toNat := rfl
  rw [spriteAddress, spritePatternAddress, ← height_eq, hTile, spriteRow_eq, height]
  generalize s.ppu.spriteRow y i = row
  apply UInt16.toNat_inj.1
  cases hTall : s.control 5 with
  | true =>
    simp only [↓reduceIte, Nat.toUInt16_eq, UInt16.toNat_ofNat', UInt16.toNat_add,
      UInt16.toNat_mul, UInt8.toNat_toUInt16, UInt16.reduceToNat, hOdd, hEven]
    omega
  | false =>
    have hTable : s.ppu.control.spriteTable.toNat = 0x1000 * (s.control 3).toNat := by
      rw [Control.spriteTable, anyBit_testBit (k := 3) rfl, table_toNat]
      rfl
    simp only [Bool.false_eq_true, ↓reduceIte, Nat.reduceEqDiff, Nat.toUInt16_eq,
      UInt16.toNat_ofNat', UInt16.toNat_add, UInt16.toNat_mul, UInt8.toNat_toUInt16,
      UInt16.reduceToNat, hTable]
    omega

theorem patternPixel_eq (row : Nat) {column : Nat} (hColumn : column < 8) :
    (Ppu.patternPixel (s.pattern (.ofNat row)) (s.pattern (.ofNat row + 8)) column).toNat =
      s.patternPixel row column := by
  rw [patternPixel_toNat _ _ hColumn, patternPixel, UInt16.ofNat_add]
  rfl

theorem patternPixel_lt (row column : Nat) : s.patternPixel row column < 4 := by
  have hLow := Plane.bit_lt (s.pattern (.ofNat row)) (7 - column)
  have hHigh := Plane.bit_lt (s.pattern (.ofNat (row + 8))) (7 - column)
  unfold patternPixel
  omega

theorem spritePixel_eq (y : Nat) (i : Fin 64) (x : Nat) :
    ((s.ppu.patternRow s.pattern y i).pixel x).toNat = s.spritePixel y i x := by
  have hLeft : s.spriteByte i 3 = s.ppu.spriteLeft i := rfl
  rw [SpriteRow.pixel, patternRow, spritePixel, spriteAddress_eq, hLeft,
    anyBit_testBit (k := 6) rfl]
  dsimp only
  split
  · exact s.patternPixel_eq _ (by split <;> omega)
  · rfl

theorem spritePixel_lt (y : Nat) (i : Fin 64) (x : Nat) : s.spritePixel y i x < 4 := by
  unfold spritePixel
  dsimp only
  split
  · exact s.patternPixel_lt _ _
  · decide

theorem spriteEntry_eq (y : Nat) (i : Fin 64) (x : Nat) :
    ((s.ppu.patternRow s.pattern y i).entry x).toNat =
      16 + 4 * (s.spriteByte i 2 % 4) + s.spritePixel y i x := by
  have hPixel := s.spritePixel_eq y i x
  have hPixelLt := s.spritePixel_lt y i x
  have hPalette : (s.ppu.spriteAttributes i &&& 0x03).toNat = s.spriteByte i 2 % 2 ^ 2 := by
    rw [UInt8.toNat_and]
    exact Nat.and_two_pow_sub_one_eq_mod _ 2
  have hHigh : (0x10 : UInt8) ||| (s.ppu.spriteAttributes i &&& 0x03) <<< 2 =
      ((4 : UInt8) ||| (s.ppu.spriteAttributes i &&& 0x03)) <<< 2 := by
    rw [UInt8.shiftLeft_or]
    rfl
  have hFour : ((4 : UInt8) ||| (s.ppu.spriteAttributes i &&& 0x03)).toNat =
      4 + s.spriteByte i 2 % 4 := by
    have hLow : (s.ppu.spriteAttributes i &&& 0x03).toNat < 2 ^ (2 : UInt8).toNat := by
      rw [hPalette]
      exact Nat.mod_lt _ (by decide)
    have hJoin : ((1 : UInt8) <<< 2 ||| (s.ppu.spriteAttributes i &&& 0x03)).toNat = _ :=
      toNat_join (by decide) hLow (by decide)
    rw [hPalette] at hJoin
    exact hJoin
  rw [SpriteRow.entry]
  show ((0x10 : UInt8) ||| (s.ppu.spriteAttributes i &&& 0x03) <<< 2 ||| _).toNat = _
  rw [hHigh, toNat_join (by decide), hFour, hPixel]
  · show (4 + _) * 4 + _ = _
    omega
  · rw [hPixel]
    exact hPixelLt
  · rw [hFour]
    show (4 + _) * 4 < 256
    omega

theorem sprite_eq (y x : Nat) (h : s.spritesShow x = true) :
    spriteAt ((s.selected y).map (s.ppu.patternRow s.pattern y)) x =
      (s.sprite y x).map (s.ppu.patternRow s.pattern y) := by
  have hShown : (fun row : SpriteRow => row.pixel x != 0) ∘ s.ppu.patternRow s.pattern y =
      fun i => s.spritePixel y i x != 0 := by
    funext i
    rw [Function.comp_apply, ← spritePixel_eq, Bool.eq_iff_iff, bne_iff_ne, bne_iff_ne, ne_eq,
      ne_eq, ← UInt8.toNat_inj]
    rfl
  rw [spriteAt, List.find?_map, hShown, sprite, if_pos h]

end Scene

/-! ### Tiles of a line -/

/-- The coordinates of the address some tiles to the right: the column moves on around the edge,
and the row stays. -/
theorem VramAddress.walk_fields (a : VramAddress) (n : Nat) :
    256 * (a.walk n).tableX.val + 8 * (a.walk n).coarseX.val =
        (256 * a.tableX.val + 8 * a.coarseX.val + 8 * n) % 512 ∧
      (a.walk n).tableY = a.tableY ∧ (a.walk n).coarseY = a.coarseY ∧
      (a.walk n).fineY = a.fineY := by
  induction n with
  | zero =>
    refine ⟨?_, rfl, rfl, rfl⟩
    show 256 * a.tableX.val + 8 * a.coarseX.val = _
    omega
  | succ n ih =>
    obtain ⟨hColumn, hRow⟩ := ih
    rw [walk, nextTile]
    split
    · refine ⟨?_, hRow⟩
      show 256 * (1 - (a.walk n).tableX).val + 8 * 0 = _
      have hFlip := Aimed.flip_val (a.walk n).tableX
      omega
    · refine ⟨?_, hRow⟩
      show 256 * (a.walk n).tableX.val + 8 * ((a.walk n).coarseX + 1).val = _
      have hNext : ((a.walk n).coarseX + 1).val = ((a.walk n).coarseX.val + 1) % 32 :=
        Fin.val_add _ _
      omega

def tileBus (ppu : Ppu) (bus : β) (n : Nat) : β :=
  (ppu.fetchTiles ppu.scroll.current n bus).2.2

theorem fetchTiles_get (ppu : Ppu) (bus : β) (n : Nat) :
    (ppu.fetchTiles ppu.scroll.current n bus).2.1 = ppu.scroll.current.walk n ∧
      ∀ i : Fin n, (ppu.fetchTiles ppu.scroll.current n bus).1.get i =
        (ppu.fetchTile (ppu.tileBus bus i.val) (ppu.scroll.current.walk i.val)).1 := by
  induction n with
  | zero => exact ⟨rfl, fun i => i.elim0⟩
  | succ n ih =>
    obtain ⟨hPlace, hTiles⟩ := ih
    refine ⟨congrArg VramAddress.nextTile hPlace, ?_⟩
    intro i
    have hPush : (ppu.fetchTiles ppu.scroll.current (n + 1) bus).1 =
        (ppu.fetchTiles ppu.scroll.current n bus).1.push
          (ppu.fetchTile (ppu.tileBus bus n) (ppu.scroll.current.walk n)).1 := by
      rw [← hPlace]
      rfl
    rw [hPush]
    show ((ppu.fetchTiles ppu.scroll.current n bus).1.push _)[i.val] = _
    rw [Vector.getElem_push]
    split
    · rename_i hBefore
      exact hTiles ⟨i.val, hBefore⟩
    · rw [show i.val = n by omega]

theorem fetchTile_answers (ppu : Ppu) (h : Answers bus pattern) (a : VramAddress) :
    let address := tilePatternAddress ppu.control.backgroundTable
      (ppu.nametableByte bus a.tileAddress) a.fineY.val
    (ppu.fetchTile bus a).1 = ⟨pattern address, pattern (address + 8),
      ppu.nametableByte bus a.attributeAddress >>> a.attributeShift.toUInt8 &&& 0x03⟩ := by
  intro address
  obtain ⟨hLow, hNext⟩ := h.read address
  obtain ⟨hHigh, -⟩ := hNext.read (address + 8)
  rw [← hLow, ← hHigh]
  rfl

namespace Scene

variable (s : Scene)

theorem tileAddress_eq (tile : UInt8) (row : Nat) :
    tilePatternAddress s.ppu.control.backgroundTable tile row =
      .ofNat (0x1000 * (s.control 4).toNat + 16 * tile.toNat + row) := by
  have hTable : s.ppu.control.backgroundTable.toNat = 0x1000 * (s.control 4).toNat := by
    rw [Control.backgroundTable, anyBit_testBit (k := 4) rfl, table_toNat]
    rfl
  rw [tilePatternAddress, ← toUInt16_parts, hTable, Nat.mul_comm tile.toNat, Nat.toUInt16_eq]

/-- The address of the tile under a column, by the point of the nametables there. -/
structure Under (x : Fin 256) (a : VramAddress) : Prop where
  tableX : a.tableX.val = (s.point x).val / 256
  coarseX : a.coarseX.val = (s.point x).val % 256 / 8
  tableY : a.tableY = s.ppu.scroll.current.tableY
  coarseY : a.coarseY = s.ppu.scroll.current.coarseY
  fineY : a.fineY = s.ppu.scroll.current.fineY

theorem reach_eq (x : Fin 256) : s.reach x % 8 = (s.point x).val % 8 := by
  show _ = (_ + s.reach x) % 512 % 8
  omega

theorem under_walk (x : Fin 256) :
    s.Under x (s.ppu.scroll.current.walk (s.reach x / 8)) := by
  obtain ⟨hColumn, hRow⟩ := s.ppu.scroll.current.walk_fields (s.reach x / 8)
  have hPoint : (s.point x).val = (256 * s.ppu.scroll.current.tableX.val +
    8 * s.ppu.scroll.current.coarseX.val + s.reach x) % 512 := rfl
  exact ⟨by omega, by omega, hRow.1, hRow.2.1, hRow.2.2⟩

section Under

variable {s} {x : Fin 256} {a : VramAddress} {bus : β}

theorem Under.tile_eq (h : s.Under x a)
    (hMirroring : PatternBus.mirroring bus = s.mirroring (s.reach x / 8)) :
    (s.ppu.nametableByte bus a.tileAddress).toNat = s.tile x := by
  obtain ⟨hTableX, hCoarseX, hTableY, hCoarseY, -⟩ := h
  refine congrArg UInt8.toNat (s.ppu.nametableByte_eq s.pattern hMirroring ?_)
  show 0x2000 + a.toNat % 0x1000 =
    0x2000 + 0x400 * (2 * s.ppu.scroll.current.tableY.val + (s.point x).val / 256) +
      (32 * s.ppu.scroll.current.coarseY.val + (s.point x).val % 256 / 8)
  rw [VramAddress.toNat, hTableX, hCoarseX, hTableY, hCoarseY]
  omega

theorem Under.palette_eq (h : s.Under x a)
    (hMirroring : PatternBus.mirroring bus = s.mirroring (s.reach x / 8)) :
    (s.ppu.nametableByte bus a.attributeAddress >>> a.attributeShift.toUInt8 &&& 0x03).toNat =
      s.palette x := by
  obtain ⟨hTableX, hCoarseX, hTableY, hCoarseY, -⟩ := h
  have hShift : a.attributeShift = 4 * (s.ppu.scroll.current.coarseY.val / 2 % 2) +
      2 * ((s.point x).val % 256 / 16 % 2) := by
    rw [VramAddress.attributeShift, hCoarseX, hCoarseY]
    omega
  have hByte : s.ppu.nametableByte bus a.attributeAddress = s.nametableByte x
      ⟨0x3C0 + 8 * (s.ppu.scroll.current.coarseY.val / 4) + (s.point x).val % 256 / 32,
        by omega⟩ := by
    refine s.ppu.nametableByte_eq s.pattern hMirroring ?_
    show a.attributeAddress =
      0x2000 + 0x400 * (2 * s.ppu.scroll.current.tableY.val + (s.point x).val / 256) +
        (0x3C0 + 8 * (s.ppu.scroll.current.coarseY.val / 4) + (s.point x).val % 256 / 32)
    rw [VramAddress.attributeAddress, hTableX, hCoarseX, hTableY, hCoarseY]
    omega
  rw [toNat_field _ _ (by omega) (by rfl : (0x03 : UInt8).toNat = 2 ^ 2 - 1), hByte, hShift]
  rfl

end Under

theorem tileEntry_eq (x : Fin 256) {bus : β} (hBus : Answers bus s.pattern)
    (hMirroring : PatternBus.mirroring bus = s.mirroring (s.reach x / 8)) :
    ((s.ppu.fetchTile bus (s.ppu.scroll.current.walk (s.reach x / 8))).1.entry
      (s.reach x % 8)).toNat = s.tint x := by
  have hUnder := s.under_walk x
  have hPalette := hUnder.palette_eq hMirroring
  have hPixel := s.patternPixel_eq
    (0x1000 * (s.control 4).toNat + 16 * s.tile x + s.ppu.scroll.current.fineY.val)
    (Nat.mod_lt (s.point x).val (by decide : 0 < 8))
  rw [s.ppu.fetchTile_answers hBus, TileRow.entry, s.tileAddress_eq, hUnder.tile_eq hMirroring,
    hUnder.fineY, reach_eq, toNat_join (by decide), hPixel, hPalette, tint]
  · show _ * 4 + _ = _
    omega
  · rw [hPixel]
    exact s.patternPixel_lt _ _
  · rw [hPalette]
    have hFour : s.palette x < 4 := Nat.mod_lt _ (by decide)
    show _ * 4 < 256
    omega

end Scene

/-! ### The line -/

/-- The scene that a bus gives, with the mirroring that each tile finds. -/
def scene (ppu : Ppu) (pattern : UInt16 → UInt8) (bus : β) : Scene :=
  ⟨ppu, pattern, fun n => PatternBus.mirroring (ppu.tileBus bus n)⟩

theorem fetchLine_answers (ppu : Ppu) (h : Answers bus pattern) (line : Nat) :
    (ppu.fetchLine bus line).1 =
      ⟨if ppu.mask.background then some (ppu.fetchTiles ppu.scroll.current 33 bus).1 else none,
        if ppu.mask.sprites then
          ((ppu.spritesOnLine line).take 8).map (ppu.patternRow pattern line) else [],
        ppu.mask.sprites && decide (8 < (ppu.spritesOnLine line).length)⟩ := by
  have hNext := h.of_reads (ppu.reads_fetchBackground bus)
  have hTiles : (ppu.fetchBackground bus).1 =
      if ppu.mask.background then some (ppu.fetchTiles ppu.scroll.current 33 bus).1 else none := by
    unfold fetchBackground
    split <;> rfl
  simp only [fetchLine]
  split
  · rename_i hSprites
    rw [ppu.fetchSprites_answers hNext, hTiles, hSprites, Bool.true_and]
  · rename_i hSprites
    rw [hTiles, Bool.eq_false_of_not_eq_true hSprites, Bool.false_and]

theorem clipped_eq (x : Nat) (left : Bool) :
    (decide (x < 8) && !left) = !(decide (8 ≤ x) || left) := by
  rw [Bool.not_or, ← decide_not, decide_eq_decide.2 Nat.not_le]

section Line

variable (ppu : Ppu) (h : Answers bus pattern) (y : Nat) (x : Fin 256)

include h

theorem backgroundEntry_scene :
    (ppu.backgroundEntry (ppu.fetchLine bus y).1 x).toNat =
      (ppu.scene pattern bus).background x := by
  have hTile := (ppu.scene pattern bus).tileEntry_eq x
    (h.of_reads (ppu.reads_fetchTiles _ ((ppu.scene pattern bus).reach x / 8) bus)) rfl
  have hGet := (ppu.fetchTiles_get bus 33).2 ⟨(x.val + ppu.scroll.fineX.val) / 8, by omega⟩
  have hOn : ppu.mask.background = (ppu.scene pattern bus).mask 3 := anyBit_testBit rfl
  have hLeft : ppu.mask.backgroundLeft = (ppu.scene pattern bus).mask 1 := anyBit_testBit rfl
  rw [ppu.fetchLine_answers h, backgroundEntry, hOn, hLeft, Scene.background]
  -- The tiles stay closed: to open them would be to walk all of the line.
  generalize ppu.fetchTiles ppu.scroll.current 33 bus = fetched at hGet ⊢
  dsimp only
  cases (ppu.scene pattern bus).mask 3 with
  | false => rfl
  | true =>
    rw [clipped_eq, Bool.true_and, if_pos rfl]
    cases decide (8 ≤ x.val) || (ppu.scene pattern bus).mask 1 with
    | false => rfl
    | true =>
      rw [← hTile]
      exact congrArg (fun tile : TileRow => (tile.entry _).toNat) hGet

theorem opaqueEntry_scene :
    opaqueEntry (ppu.backgroundEntry (ppu.fetchLine bus y).1 x) =
      (ppu.scene pattern bus).covered x := by
  rw [Bool.eq_iff_iff, opaqueEntry, anyBit_low (k := 2) rfl, ppu.backgroundEntry_scene h,
    Scene.covered, bne_iff_ne]
  rfl

theorem visibleSprite_scene :
    ppu.visibleSprite (ppu.fetchLine bus y).1 x =
      ((ppu.scene pattern bus).sprite y x.val).map (ppu.patternRow pattern y) := by
  have hOn : ppu.mask.sprites = (ppu.scene pattern bus).mask 4 := anyBit_testBit rfl
  have hLeft : ppu.mask.spritesLeft = (ppu.scene pattern bus).mask 2 := anyBit_testBit rfl
  have hFound : ppu.spritesOnLine y = (ppu.scene pattern bus).found y :=
    ((ppu.scene pattern bus).found_eq y).symm
  rw [ppu.fetchLine_answers h, visibleSprite, hOn, hLeft, clipped_eq, hFound]
  dsimp only
  have hSprite := (ppu.scene pattern bus).sprite_eq y x.val
  have hHidden (hNot : (ppu.scene pattern bus).spritesShow x.val = false) :
      (ppu.scene pattern bus).sprite y x.val = none := by
    rw [Scene.sprite, hNot]
    rfl
  unfold Scene.spritesShow at hSprite hHidden
  cases hShow : decide (8 ≤ x.val) || (ppu.scene pattern bus).mask 2 with
  | false =>
    rw [hHidden (by rw [hShow, Bool.and_false])]
    rfl
  | true =>
    cases hMask : (ppu.scene pattern bus).mask 4 with
    | false =>
      rw [hHidden (by rw [hMask, Bool.false_and])]
      rfl
    | true => exact hSprite (by rw [hShow, hMask, Bool.and_true])

theorem composedEntry_scene :
    (ppu.composedEntry (ppu.fetchLine bus y).1 x).toNat = (ppu.scene pattern bus).entry y x := by
  have hBackground := ppu.backgroundEntry_scene h y x
  rw [composedEntry, ppu.visibleSprite_scene h, ppu.opaqueEntry_scene h, Scene.entry]
  cases (ppu.scene pattern bus).sprite y x.val with
  | none =>
    dsimp only [Option.map_none]
    split
    · exact hBackground
    · rfl
  | some i =>
    have hBehind : (ppu.patternRow pattern y i).behind =
        ((ppu.scene pattern bus).spriteByte i 2).testBit 5 := anyBit_testBit rfl
    dsimp only [Option.map_some]
    rw [hBehind]
    cases (ppu.scene pattern bus).covered x with
    | false => exact (ppu.scene pattern bus).spriteEntry_eq y i x.val
    | true =>
      cases ((ppu.scene pattern bus).spriteByte i 2).testBit 5 with
      | false => exact (ppu.scene pattern bus).spriteEntry_eq y i x.val
      | true => exact hBackground

end Line

/-! ### Colours -/

namespace Scene

variable (s : Scene)

theorem background_lt (x : Fin 256) : s.background x < 16 := by
  have hPalette : s.palette x < 4 := Nat.mod_lt _ (by decide)
  unfold background
  split
  · have hPixel := s.patternPixel_lt (0x1000 * (s.control 4).toNat + 16 * s.tile x +
      s.ppu.scroll.current.fineY.val) ((s.point x).val % 8)
    unfold tint
    omega
  · decide

theorem spritePixel_of_sprite {y x : Nat} {i : Fin 64} (h : s.sprite y x = some i) :
    s.spritePixel y i x ≠ 0 := by
  unfold sprite at h
  split at h
  · exact bne_iff_ne.1 (List.find?_some (p := fun i => s.spritePixel y i x != 0) h)
  · cases h

/-- The first entry of a palette is never asked for, but the very first one of all. -/
theorem entry_bounds (y : Nat) (x : Fin 256) :
    s.entry y x < 32 ∧ (s.entry y x % 4 = 0 → s.entry y x = 0) := by
  have hBackground := s.background_lt x
  have hCovered : s.covered x = true → s.background x % 4 ≠ 0 := bne_iff_ne.1
  have hBehind : (if s.covered x then s.background x else 0) < 16 ∧
      ((if s.covered x then s.background x else 0) % 4 = 0 →
        (if s.covered x then s.background x else 0) = 0) := by
    split
    · rename_i hOn
      exact ⟨hBackground, fun hClear => absurd hClear (hCovered hOn)⟩
    · decide
  unfold entry
  cases hSprite : s.sprite y x.val with
  | none =>
    dsimp only
    omega
  | some i =>
    have hPixel := s.spritePixel_of_sprite hSprite
    have hPixelLt := s.spritePixel_lt y i x.val
    dsimp only
    split <;> omega

theorem paletteIndex_entry (y : Nat) (x : Fin 256) :
    paletteIndex (s.entry y x) = ⟨s.entry y x % 32, by omega⟩ := by
  obtain ⟨hLt, hFirst⟩ := s.entry_bounds y x
  apply Fin.ext
  show paletteEntry _ = _ % 32
  unfold paletteEntry
  split <;> omega

theorem find?_eq_some_iff_isLeast {sprites : List (Fin 64)} (hOrder : sprites.Pairwise (· < ·))
    (p : Fin 64 → Bool) (i : Fin 64) :
    sprites.find? p = some i ↔ IsLeast {j | j ∈ sprites ∧ p j = true} i := by
  induction sprites with
  | nil => simp [IsLeast]
  | cons j rest ih =>
    obtain ⟨hBefore, hRest⟩ := List.pairwise_cons.1 hOrder
    rw [List.find?_cons]
    cases hj : p j with
    | true =>
      have hLeast : IsLeast {k | k ∈ j :: rest ∧ p k = true} j := by
        refine ⟨⟨List.mem_cons_self, hj⟩, ?_⟩
        rintro k ⟨hk, -⟩
        obtain rfl | hk := List.mem_cons.1 hk
        · exact le_refl k
        · exact (hBefore k hk).le
      constructor
      · rintro ⟨⟩
        exact hLeast
      · exact fun hOther => congrArg some (hLeast.unique hOther)
    | false =>
      have hSame : {k | k ∈ j :: rest ∧ p k = true} = {k | k ∈ rest ∧ p k = true} := by
        ext k
        simp only [Set.mem_ofPred_eq, List.mem_cons, and_congr_left_iff, or_iff_right_iff_imp]
        rintro hk rfl
        rw [hj] at hk
        cases hk
      rw [ih hRest, hSame]

theorem sprite_eq_some_iff (y x : Nat) (i : Fin 64) :
    s.sprite y x = some i ↔ s.spritesShow x = true ∧
      IsLeast {j | j ∈ s.selected y ∧ s.spritePixel y j x ≠ 0} i := by
  have hOrder : (s.selected y).Pairwise (· < ·) :=
    ((List.pairwise_lt_finRange 64).filter _).take
  unfold sprite
  split
  · rename_i hShow
    rw [find?_eq_some_iff_isLeast hOrder]
    simp only [hShow, bne_iff_ne, true_and]
  · rename_i hHidden
    simp only [hHidden, reduceCtorEq, false_and]

end Scene

theorem entryColour_scene (ppu : Ppu) (h : Answers bus pattern) (y : Nat) (x : Fin 256) :
    ppu.entryColour (ppu.composedEntry (ppu.fetchLine bus y).1 x) =
      (ppu.scene pattern bus).colour y x := by
  have hGrey : ∀ shade : UInt8, (shade &&& 0x30).toNat = shade.toNat / 16 % 4 * 16 :=
    forall_byte (by decide +kernel)
  have hMask : ppu.mask.greyscale = (ppu.scene pattern bus).mask 0 := anyBit_testBit rfl
  rw [entryColour, ppu.composedEntry_scene h, Scene.paletteIndex_entry, hMask, colourOf,
    Scene.colour]
  refine congrArg colours.get (Fin.ext ?_)
  show _ % 64 = _ % 64
  split
  · rw [hGrey]
    rfl
  · rfl

theorem spriteZeroAt_scene (ppu : Ppu) (h : Answers bus pattern) (y : Nat) (x : Fin 256) :
    ppu.spriteZeroAt (ppu.fetchLine bus y).1 x = true ↔
      (ppu.scene pattern bus).sprite y x.val = some 0 ∧
        (ppu.scene pattern bus).covered x = true := by
  rw [spriteZeroAt, ppu.visibleSprite_scene h, ppu.opaqueEntry_scene h]
  cases (ppu.scene pattern bus).sprite y x.val with
  | none => simp
  | some i =>
    have hIndex : ((ppu.patternRow pattern y i).index.val == 0) = true ↔ i = 0 := by
      rw [beq_iff_eq, Fin.ext_iff]
      rfl
    simp only [Option.map_some, Bool.and_eq_true, hIndex, Option.some.injEq]

/-! ### The composed line -/

theorem renderLine_status (ppu : Ppu) (bus : β) (y : Fin pictureHeight) :
    (ppu.renderLine bus y).1.status =
      (ppu.status.raise Status.overflowMask (ppu.fetchLine bus y.val).1.overflow).raise
        Status.spriteZeroMask (ppu.spriteZeroHit (ppu.fetchLine bus y.val).1) := by
  unfold renderLine
  generalize ppu.fetchLine bus y.val = fetched
  rfl

/-- A line composed with patterns that are fixed shows in every column the least sprite that can
stand there, or the background, or the first entry of all; and beside what was noted before, it
notes that the first sprite stands on the background in a column but the last, and that more than
eight sprites meet the line. -/
theorem renderLine_composes (ppu : Ppu) (bus : β) (pattern : UInt16 → UInt8)
    (y : Fin pictureHeight) (h : Answers bus pattern) :
    let scene := ppu.scene pattern bus
    let after := (ppu.renderLine bus y).1
    (∀ x : Fin 256, after.frame.pixel? x.val y.val = some (scene.colour y.val x)) ∧
      (∀ (x : Fin 256) (i : Fin 64), scene.sprite y.val x.val = some i ↔
        scene.spritesShow x.val = true ∧
          IsLeast {j | j ∈ scene.selected y.val ∧ scene.spritePixel y.val j x.val ≠ 0} i) ∧
      (anyBit after.status.bits Status.spriteZeroMask = true ↔
        anyBit ppu.status.bits Status.spriteZeroMask = true ∨ ∃ x : Fin 256, x.val ≤ 254 ∧
          scene.sprite y.val x.val = some 0 ∧ scene.covered x = true) ∧
      (anyBit after.status.bits Status.overflowMask = true ↔
        anyBit ppu.status.bits Status.overflowMask = true ∨
          scene.mask 4 = true ∧ 8 < (scene.found y.val).length) := by
  intro scene after
  refine ⟨?_, fun x i => scene.sprite_eq_some_iff y.val x.val i, ?_, ?_⟩
  · intro x
    have hPoint : pointAt after.picture x y = scene.colour y.val x := by
      rw [(ppu.renderLine_picture bus y).1, ← ppu.entryColour_scene h]
      exact (pointAt_putLine ppu.picture y _ x).trans (Vector.getElem_ofFn x.isLt)
    rw [← hPoint]
    exact pixel?_frame after x y
  · rw [ppu.renderLine_status, anyBit_raise _ (by decide), anyBit_raise_other _ (by decide),
      Bool.or_eq_true, spriteZeroHit_iff]
    refine or_congr_right (exists_congr fun x => and_congr ?_ (ppu.spriteZeroAt_scene h y.val x))
    omega
  · rw [ppu.renderLine_status, anyBit_raise_other _ (by decide), anyBit_raise _ (by decide),
      Bool.or_eq_true, ppu.fetchLine_answers h, Bool.and_eq_true, decide_eq_true_iff,
      scene.found_eq]
    have hOn : ppu.mask.sprites = scene.mask 4 := anyBit_testBit rfl
    rw [hOn]
    rfl

theorem answers_board (board : Board) : Answers board board.chrRead :=
  fun _ hReads => (steady_board board).answers hReads

/-- Where all sprites stand in one place the first one shows, hits the background and leaves too
many others. -/
theorem renderLine_composes_stack :
    let ppu := { powerOn with mask := ⟨0x1E⟩, palette := powerOn.palette.set 19 0x21 }
    let board := Board.powerOn ⟨#[0], #[0xF0, 0x0F], .nrom, .vertical, false, none, by decide⟩
    let after := (ppu.renderLine board ⟨1, by decide⟩).1
    Answers board board.chrRead ∧ after.frame.pixel? 3 1 = some 0xFF64B0FF ∧
      anyBit after.status.bits Status.spriteZeroMask = true ∧
      anyBit after.status.bits Status.overflowMask = true := by
  intro ppu board after
  have hAnswers := answers_board board
  obtain ⟨hPixels, -, hHit, hOverflow⟩ :=
    renderLine_composes ppu board board.chrRead ⟨1, by decide⟩ hAnswers
  refine ⟨hAnswers, (hPixels 3).trans ?_, hHit.2 (.inr ⟨3, ?_⟩), hOverflow.2 (.inr ?_)⟩
  · decide +kernel
  · decide +kernel
  · decide +kernel

end Famicom.Ppu
