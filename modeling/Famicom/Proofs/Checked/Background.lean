import Famicom.Proofs.Checked.Registers

/-!
# Checked background

The background of a line is painted into a row of 256 palette entries, tile after tile from the
scroll position and column after column within a tile; columns left of the first one shown or right
of the last one are passed over.  With every address, shift and place checked, nothing is refused,
and the row holds the entry of the walked tiles in every column.
-/

namespace Famicom.Ppu

open Checked

/-! ### Fetching -/

namespace VramAddress

def attributeAddress? (a : VramAddress) : Option Nat := do
  let row ← shr .word a.toNat 4
  let column ← shr .word a.toNat 2
  return 0x23C0 + a.toNat / 0x400 % 4 * 0x400 + row / 8 % 8 * 8 + column % 8

def attributeShift? (a : VramAddress) : Option Nat := do
  return (← shr .word a.toNat 4) / 4 % 2 * 4 + a.toNat / 2 % 2 * 2

def row? (a : VramAddress) : Option Nat := do
  return (← shr .word a.toNat 12) % 8

theorem attributeAddress?_eq (a : VramAddress) :
    a.attributeAddress? = some a.attributeAddress := by
  rw [attributeAddress?, bind_eq (shr_word (by decide : 4 < 16)),
    bind_eq (shr_word (by decide : 2 < 16))]
  refine congrArg some ?_
  simp only [attributeAddress, toNat]
  omega

theorem attributeShift?_eq (a : VramAddress) : a.attributeShift? = some a.attributeShift := by
  rw [attributeShift?, bind_eq (shr_word (by decide : 4 < 16))]
  refine congrArg some ?_
  simp only [attributeShift, toNat]
  omega

theorem row?_eq (a : VramAddress) : a.row? = some a.fineY.val := by
  rw [row?, bind_eq (shr_word (by decide : 12 < 16))]
  refine congrArg some ?_
  simp only [toNat]
  omega

end VramAddress

def tileAddress? (table tile row : Nat) : Option Nat := do
  add .word (← add .word table (← mul .word tile 16)) row

def planes? (board : Board) (address : Nat) : Option (UInt8 × UInt8) := do
  let low ← board.chrRead? address.toUInt16
  let high ← board.chrRead? (← add .word address 8).toUInt16
  return (low, high)

def fetchTile? (ppu : Ppu) (board : Board) (place : VramAddress) : Option TileRow := do
  let tile ← ppu.vramRead? board place.tileAddress
  let attributes ← ppu.vramRead? board (← place.attributeAddress?)
  let palette := (← shiftDown attributes (← place.attributeShift?)) &&& 0x03
  let address ← tileAddress? ppu.control.backgroundTable.toNat tile.toNat (← place.row?)
  let planes ← planes? board address
  return ⟨planes.1, planes.2, palette⟩

def patternBits? (low high : UInt8) (bit : Nat) : Option UInt8 := do
  let first := (← shiftDown low bit) &&& 1
  let second ← shiftUp ((← shiftDown high bit) &&& 1) 1
  return first ||| second

theorem patternBits?_eq (low high : UInt8) {column : Nat} (h : column < 8) :
    patternBits? low high (7 - column) = some (patternPixel low high column) := by
  rw [patternBits?, bind_eq (shiftDown_eq low (by omega)), bind_eq (shiftDown_eq high (by omega)),
    bind_eq (shiftUp_eq _ (by decide))]
  rfl

theorem vramRead?_nametable {board : Board} (ppu : Ppu) {address : Nat} (hLow : 0x2000 ≤ address)
    (hHigh : address < 0x3F00) :
    ppu.vramRead? board address = some (ppu.nametableByte board address) := by
  rw [vramRead?, if_neg (by omega), if_pos hHigh,
    bind_eq (board.mirroring.nametableOffset?_eq address), get_eq _ (Fin.isLt _)]
  rfl

theorem toUInt16_parts (table : UInt16) (tile : UInt8) (row : Nat) :
    (table.toNat + tile.toNat * 16 + row).toUInt16 =
      table + tile.toUInt16 * 16 + row.toUInt16 := by
  have hTile : UInt16.ofNat tile.toNat = tile.toUInt16 := by
    apply UInt16.toNat_inj.1
    have hLt := tile.toNat_lt
    rw [UInt16.toNat_ofNat', UInt8.toNat_toUInt16]
    omega
  rw [Nat.toUInt16_eq, UInt16.ofNat_add, UInt16.ofNat_add, UInt16.ofNat_mul, UInt16.ofNat_toNat,
    hTile]
  rfl

theorem tileAddress?_eq {table tile row : Nat} (hTable : table ≤ 0x1000) (hTile : tile < 0x100)
    (hRow : row < 8) : tileAddress? table tile row = some (table + tile * 16 + row) := by
  rw [tileAddress?, bind_eq (mul_word (by omega)), bind_eq (add_word (by omega)),
    add_word (by omega)]

theorem planes?_eq {board : Board} (h : board.Sound) {address : Nat} (hFits : address < 0xFFF8) :
    planes? board address =
      some (board.chrRead address.toUInt16, board.chrRead (address.toUInt16 + 8)) := by
  have hSecond : (address + 8).toUInt16 = address.toUInt16 + 8 := UInt16.ofNat_add address 8
  rw [planes?, bind_eq (h.chrRead?_eq _), bind_eq (add_word (by omega)),
    bind_eq (h.chrRead?_eq _), hSecond]
  rfl

theorem fetchTile?_eq {board : Board} (h : board.Sound) (ppu : Ppu) (place : VramAddress) :
    ppu.fetchTile? board place = some (ppu.fetchTile board place).1 := by
  have hTile : ppu.vramRead? board place.tileAddress =
      some (ppu.nametableByte board place.tileAddress) :=
    ppu.vramRead?_nametable (by unfold VramAddress.tileAddress; omega)
      (by unfold VramAddress.tileAddress; omega)
  have hAttributes : ppu.vramRead? board place.attributeAddress =
      some (ppu.nametableByte board place.attributeAddress) :=
    ppu.vramRead?_nametable (by unfold VramAddress.attributeAddress; omega)
      (by unfold VramAddress.attributeAddress; omega)
  have hShift : place.attributeShift < 8 := by
    unfold VramAddress.attributeShift
    omega
  have hRow := place.fineY.isLt
  have hTable := backgroundTable_toNat ppu.control
  rw [fetchTile?, bind_eq hTile, bind_eq place.attributeAddress?_eq, bind_eq hAttributes,
    bind_eq place.attributeShift?_eq, bind_eq (shiftDown_eq _ hShift)]
  generalize hNumber : ppu.nametableByte board place.tileAddress = tile
  have hNumberLt := tile.toNat_lt
  rw [bind_eq place.row?_eq, bind_eq (tileAddress?_eq (by omega) hNumberLt hRow),
    bind_eq (planes?_eq h (by omega)), toUInt16_parts, ← hNumber]
  rfl

/-! ### The walk -/

def VramAddress.walk (a : VramAddress) : Nat → VramAddress
  | 0 => a
  | n + 1 => (a.walk n).nextTile

def walkedTile (ppu : Ppu) (board : Board) (start : VramAddress) (n : Nat) : TileRow :=
  (ppu.fetchTile board (start.walk n)).1

/-- A board is left alone by the fetches, so the tiles of a line are those of the walk. -/
theorem fetchTiles_board (ppu : Ppu) (board : Board) (start : VramAddress) (n : Nat) :
    ppu.fetchTiles start n board =
      (Vector.ofFn fun i => ppu.walkedTile board start i.val, start.walk n, board) := by
  induction n with
  | zero =>
    refine Prod.ext ?_ rfl
    apply Vector.ext
    intro i hi
    omega
  | succ n ih =>
    rw [fetchTiles, ih, Vector.ofFn_succ]
    rfl

/-! ### Painting -/

/-- Paints a column of a tile into the row at its place behind the fine column. -/
def paintColumn? (tile : TileRow) (number : Nat) (fineX : Fin 8) (row : Vector UInt8 256)
    (column : Nat) : Option (Vector UInt8 256) := do
  let reach ← add .size (← mul .size number 8) column
  let x := wrappingSub .size reach fineX.val
  if 256 ≤ x then return row
  else
    let pixel ← patternBits? tile.low tile.high (← sub 7 column)
    put row x ((← shiftUp tile.palette 2) ||| pixel)

/-- Fetches the next tile, paints its columns and walks on. -/
def paintTile? (ppu : Ppu) (board : Board) (state : VramAddress × Vector UInt8 256)
    (number : Nat) : Option (VramAddress × Vector UInt8 256) := do
  let tile ← ppu.fetchTile? board state.1
  let row ← (List.range 8).foldlM (paintColumn? tile number ppu.scroll.fineX) state.2
  return (← state.1.nextTile?, row)

def paintBackground? (ppu : Ppu) (board : Board) : Option (Vector UInt8 256) := do
  let state ← (List.range 33).foldlM (ppu.paintTile? board)
    (ppu.scroll.current, Vector.replicate 256 0)
  return state.2

/-- The columns before the bound, counted from the first tile, hold the entries of `f`. -/
def Painted (f : Nat → UInt8) (fineX : Fin 8) (bound : Nat) (row : Vector UInt8 256) : Prop :=
  ∀ x : Fin 256, row.get x = if x.val + fineX.val < bound then f (x.val + fineX.val) else 0

theorem Painted.put {f : Nat → UInt8} {fineX : Fin 8} {reach : Nat} {row : Vector UInt8 256}
    (hRow : Painted f fineX reach row) {x : Nat} (hx : x < 256) (hPlace : x + fineX.val = reach) :
    Painted f fineX (reach + 1) (row.set x (f reach) hx) := by
  intro y
  rw [get_set, hRow y]
  split
  · rename_i hSame
    rw [if_pos (by omega)]
    exact congrArg f (by omega)
  · rename_i hOther
    by_cases hBefore : y.val + fineX.val < reach
    · rw [if_pos hBefore, if_pos (by omega)]
    · rw [if_neg hBefore, if_neg (by omega)]

theorem Painted.skip {f : Nat → UInt8} {fineX : Fin 8} {reach : Nat} {row : Vector UInt8 256}
    (hRow : Painted f fineX reach row) (hOut : reach < fineX.val ∨ 256 + fineX.val ≤ reach) :
    Painted f fineX (reach + 1) row := by
  intro y
  rw [hRow y]
  by_cases hBefore : y.val + fineX.val < reach
  · rw [if_pos hBefore, if_pos (by omega)]
  · rw [if_neg hBefore, if_neg (by omega)]

theorem paintColumn?_painted {f : Nat → UInt8} {fineX : Fin 8} {tile : TileRow}
    {number column : Nat} {row : Vector UInt8 256} (hNumber : number < 33) (hColumn : column < 8)
    (hEntry : f (number * 8 + column) = tile.entry column)
    (hRow : Painted f fineX (number * 8 + column) row) :
    ∃ row', paintColumn? tile number fineX row column = some row' ∧
      Painted f fineX (number * 8 + column + 1) row' := by
  have hFine := fineX.isLt
  rw [paintColumn?, bind_eq (mul_size (by omega)), bind_eq (add_size (by omega))]
  by_cases hLeft : number * 8 + column < fineX.val
  · refine ⟨row, if_pos ?_, hRow.skip (.inl hLeft)⟩
    rw [wrappingSub_of_lt hLeft (by omega)]
    omega
  · have hx := wrappingSub_of_le (Nat.le_of_not_lt hLeft) (by omega)
    by_cases hRight : 256 ≤ number * 8 + column - fineX.val
    · refine ⟨row, if_pos ?_, hRow.skip (.inr (by omega))⟩
      rw [hx]
      exact hRight
    · refine ⟨row.set (number * 8 + column - fineX.val) (f (number * 8 + column)) (by omega), ?_,
        hRow.put _ (by omega)⟩
      rw [if_neg (by rw [hx]; exact hRight), hx, bind_eq (sub_eq (by omega)),
        bind_eq (patternBits?_eq _ _ hColumn), bind_eq (shiftUp_eq _ (by decide)),
        put_eq row _ (by omega), hEntry]
      rfl

def walkedEntry (ppu : Ppu) (board : Board) (reach : Nat) : UInt8 :=
  (ppu.walkedTile board ppu.scroll.current (reach / 8)).entry (reach % 8)

theorem walkedEntry_tile (ppu : Ppu) (board : Board) (number : Nat) {column : Nat}
    (h : column < 8) : ppu.walkedEntry board (number * 8 + column) =
      (ppu.walkedTile board ppu.scroll.current number).entry column := by
  rw [walkedEntry, show (number * 8 + column) / 8 = number by omega,
    show (number * 8 + column) % 8 = column by omega]

/-- What holds before a tile is painted: the walk has come to it, and all before it is painted. -/
def PaintedTo (ppu : Ppu) (board : Board) (number : Nat)
    (state : VramAddress × Vector UInt8 256) : Prop :=
  state.1 = ppu.scroll.current.walk number ∧
    Painted (ppu.walkedEntry board) ppu.scroll.fineX (number * 8) state.2

theorem paintTile?_painted {board : Board} (h : board.Sound) {ppu : Ppu} {number : Nat}
    {state : VramAddress × Vector UInt8 256} (hNumber : number < 33)
    (hState : ppu.PaintedTo board number state) :
    ∃ state', ppu.paintTile? board state number = some state' ∧
      ppu.PaintedTo board (number + 1) state' := by
  obtain ⟨place, row⟩ := state
  obtain ⟨rfl, hRow⟩ := hState
  obtain ⟨row', hPaint, hRow'⟩ := foldlM_range
    (f := paintColumn? (ppu.walkedTile board ppu.scroll.current number) number ppu.scroll.fineX)
    (fun column => Painted (ppu.walkedEntry board) ppu.scroll.fineX (number * 8 + column))
    (n := 8) hRow fun column row hColumn hRow =>
      paintColumn?_painted hNumber hColumn (ppu.walkedEntry_tile board number hColumn) hRow
  refine ⟨(ppu.scroll.current.walk (number + 1), row'), ?_, rfl, ?_⟩
  · rw [paintTile?, bind_eq (fetchTile?_eq h ppu _)]
    refine (bind_eq hPaint _).trans ?_
    rw [bind_eq (VramAddress.nextTile?_eq _)]
    rfl
  · rw [Nat.succ_mul]
    exact hRow'

/-- The background of a line is painted without refusal, and the row shows the fetched tiles. -/
theorem paintBackground?_eq {board : Board} (h : board.Sound) (ppu : Ppu) :
    ppu.paintBackground? board =
      some (Vector.ofFn fun x : Fin 256 =>
        TileLine.entry (ppu.fetchTiles ppu.scroll.current 33 board).1 ppu.scroll.fineX x) := by
  obtain ⟨state, hRun, -, hRow⟩ := foldlM_range (ppu.PaintedTo board) (n := 33)
    (s := (ppu.scroll.current, Vector.replicate 256 0)) ⟨rfl, fun x => by simp [Vector.get]⟩
    fun number state hNumber hState => paintTile?_painted h hNumber hState
  rw [paintBackground?, bind_eq hRun]
  refine congrArg some (eq_ofFn ?_)
  intro x
  have hTile : ∀ reach (hReach : reach / 8 < 33),
      (Vector.ofFn fun i : Fin 33 => ppu.walkedTile board ppu.scroll.current i.val).get
        ⟨reach / 8, hReach⟩ = ppu.walkedTile board ppu.scroll.current (reach / 8) :=
    fun reach hReach => Vector.getElem_ofFn hReach
  rw [hRow x, if_pos (by omega), fetchTiles_board, TileLine.entry, hTile]
  rfl

end Famicom.Ppu
