import Famicom.Ppu.Tick
import Famicom.Proofs.Checked.Cartridge
import Famicom.Proofs.Ppu.Plane

/-!
# Checked video registers

The registers and memories of the picture processor, its scroll position and its beam, with every
operation checked.  The scroll position is a word here, put together from shifted fields and moved
by sums; the beam moves by sums of words; memories are accessed by their places.  On a sound board
nothing is refused and the results are those of the plain functions.
-/

namespace Famicom

open Checked

/-! ### Places -/

def Mirroring.page? (m : Mirroring) (table : Nat) : Option Nat :=
  match m with
  | .horizontal => div table 2
  | .vertical => rem table 2
  | .singleLower => some 0
  | .singleUpper => some 1
  | .fourScreen => some table

def Mirroring.nametableOffset? (m : Mirroring) (address : Nat) : Option Nat := do
  let table ← div (address % 0x1000) 0x400
  let start ← mul .size (← m.page? table) 0x400
  add .size start (address % 0x400)

theorem Mirroring.page?_eq (m : Mirroring) (table : Nat) :
    m.page? table = some (m.page table) := by
  cases m with
  | horizontal => exact div_eq (by decide)
  | vertical => exact rem_eq (by decide)
  | singleLower | singleUpper | fourScreen => rfl

theorem Mirroring.nametableOffset?_eq (m : Mirroring) (address : Nat) :
    m.nametableOffset? address = some (m.nametableOffset address).val := by
  have hPlace := Nat.lt_trans (m.place_lt address) (by decide : 0x1000 < 2 ^ 64)
  have hStart := Nat.lt_of_le_of_lt (Nat.le_add_right _ _) hPlace
  rw [nametableOffset?, bind_eq (div_eq (by decide)), bind_eq (m.page?_eq _),
    bind_eq (mul_size hStart)]
  exact add_size hPlace

namespace Ppu

def paletteIndex? (address : Nat) : Option Nat :=
  let index := address % 32
  if 0x10 ≤ index ∧ index % 4 = 0 then sub index 0x10 else some index

theorem paletteIndex?_eq (address : Nat) :
    paletteIndex? address = some (paletteIndex address).val := by
  show paletteIndex? address = some (paletteEntry address)
  simp only [paletteIndex?, paletteEntry]
  split
  · rename_i h
    rw [sub_eq h.1, if_pos (by omega)]
    exact congrArg some (by omega)
  · split
    · exact congrArg some (by omega)
    · rfl

/-! ### Video memory -/

def vramRead? (ppu : Ppu) (board : Board) (address : Nat) : Option UInt8 := do
  if address < 0x2000 then board.chrRead? address.toUInt16
  else if address < 0x3F00 then ppu.nametables[← board.mirroring.nametableOffset? address]?
  else ppu.palette[← paletteIndex? address]?

def vramWrite? (ppu : Ppu) (board : Board) (address : Nat) (value : UInt8) :
    Option (Ppu × Board) := do
  if address < 0x2000 then
    return (ppu, ← board.chrWrite? address.toUInt16 value)
  else if address < 0x3F00 then
    let i ← board.mirroring.nametableOffset? address
    return ({ ppu with nametables := ← put ppu.nametables i value }, board)
  else
    let i ← paletteIndex? address
    return ({ ppu with palette := ← put ppu.palette i (value &&& 0x3F) }, board)

def readOam? (ppu : Ppu) : Option UInt8 :=
  ppu.oam[ppu.oamAddress.toNat]?

def writeOam? (ppu : Ppu) (value : UInt8) : Option Ppu := do
  return { ppu with
    oam := ← put ppu.oam ppu.oamAddress.toNat value
    oamAddress := ppu.oamAddress + 1 }

theorem readOam?_eq (ppu : Ppu) : ppu.readOam? = some ppu.readOam :=
  get_eq ppu.oam ppu.oamAddress.toNat_lt

theorem writeOam?_eq (ppu : Ppu) (value : UInt8) :
    ppu.writeOam? value = some (ppu.writeOam value) :=
  bind_eq (put_eq ppu.oam value ppu.oamAddress.toNat_lt) _

section

variable {board : Board} (h : board.Sound)

include h

theorem vramRead?_eq (ppu : Ppu) (address : Nat) :
    ppu.vramRead? board address = some (ppu.vramRead board address).1 ∧
      (ppu.vramRead board address).2 = board := by
  unfold vramRead? vramRead
  split
  · exact ⟨h.chrRead?_eq _, rfl⟩
  split
  · rw [bind_eq (board.mirroring.nametableOffset?_eq address), get_eq _ (Fin.isLt _)]
    exact ⟨rfl, rfl⟩
  · rw [bind_eq (paletteIndex?_eq address), get_eq _ (Fin.isLt _)]
    exact ⟨rfl, rfl⟩

theorem vramWrite?_eq (ppu : Ppu) (address : Nat) (value : UInt8) :
    ppu.vramWrite? board address value = some (ppu.vramWrite board address value) ∧
      (ppu.vramWrite board address value).2.Sound := by
  unfold vramWrite? vramWrite
  split
  · obtain ⟨hWrite, hSound⟩ := h.chrWrite?_eq address.toUInt16 value
    exact ⟨bind_eq hWrite _, hSound⟩
  split
  · rw [bind_eq (board.mirroring.nametableOffset?_eq address),
      bind_eq (put_eq _ _ (Fin.isLt _))]
    exact ⟨rfl, h⟩
  · rw [bind_eq (paletteIndex?_eq address), bind_eq (put_eq _ _ (Fin.isLt _))]
    exact ⟨rfl, h⟩

end

/-! ### Scroll position -/

namespace VramAddress

theorem ofNat_eq {n : Nat} {a : VramAddress} (h : n % 0x8000 = a.toNat) : ofNat n = a := by
  rw [← ofNat_toNat (ofNat n), toNat_ofNat, h, ofNat_toNat]

def nextTile? (a : VramAddress) : Option VramAddress := do
  if a.toNat % 32 = 31 then return a.nextTile
  else return .ofNat (← add .word a.toNat 1)

/-- The address with the column of a number below 2^12, and with a row of tiles and a table. -/
def withTileRow? (rest row table : Nat) : Option VramAddress := do
  return .ofNat (rest % 32 + (← shl .word row 5) + table * 0x400)

def nextRow? (a : VramAddress) : Option VramAddress := do
  if a.toNat / 0x1000 ≠ 7 then return .ofNat (← add .word a.toNat 0x1000)
  else
    let rest := a.toNat % 0x1000
    let row ← shr .word (rest % 0x400 / 32 * 32) 5
    if row = 29 then withTileRow? rest 0 ((rest / 0x400 + 2) % 4)
    else if row = 31 then withTileRow? rest 0 (rest / 0x400)
    else withTileRow? rest (← add .word row 1) (rest / 0x400)

theorem nextTile?_eq (a : VramAddress) : a.nextTile? = some a.nextTile := by
  have hLt := a.toNat_lt
  have hColumn : a.toNat % 32 = a.coarseX.val := by
    unfold toNat
    omega
  unfold nextTile?
  rw [hColumn]
  split
  · rfl
  · rename_i hEdge
    rw [bind_eq (add_word (by omega))]
    refine congrArg some (ofNat_eq ?_)
    have hNext : (a.coarseX + 1).val = (a.coarseX.val + 1) % 32 := Fin.val_add _ _
    unfold nextTile
    rw [if_neg hEdge]
    simp only [toNat, hNext]
    omega

theorem withTileRow?_eq {rest row table : Nat} {a : VramAddress}
    (h : rest % 32 + 32 * row + 0x400 * table = a.toNat) :
    withTileRow? rest row table = some a := by
  have hLt := a.toNat_lt
  rw [withTileRow?, bind_eq (shl_word (by decide : 5 < 16))]
  refine congrArg some (ofNat_eq ?_)
  omega

theorem nextRow?_eq (a : VramAddress) : a.nextRow? = some a.nextRow := by
  have hLt := a.toNat_lt
  have hRest : a.toNat = a.toNat % 0x1000 + 0x1000 * a.fineY.val ∧ a.toNat % 0x1000 =
      a.coarseX.val + 32 * a.coarseY.val + 0x400 * a.tableX.val + 0x800 * a.tableY.val := by
    unfold toNat
    omega
  obtain ⟨hFine, hFields⟩ := hRest
  have hQuotient : a.toNat / 0x1000 = a.fineY.val := by omega
  generalize hv : a.toNat % 0x1000 = rest at hFine hFields
  have hRow : rest % 0x400 / 32 * 32 / 2 ^ 5 = a.coarseY.val := by omega
  have hFineLt := a.fineY.isLt
  unfold nextRow? nextRow
  simp only [hv]
  rw [hQuotient]
  by_cases hLast : a.fineY.val = 7
  · rw [if_neg (fun h => h hLast), if_neg (by omega : ¬ a.fineY.val < 7),
      bind_eq (shr_word (by decide : 5 < 16)), hRow]
    split
    · refine withTileRow?_eq ?_
      have hFlip : (1 - a.tableY).val = 1 - a.tableY.val := Aimed.flip_val a.tableY
      simp only [toNat, hFlip]
      show _ = a.coarseX.val + 32 * 0 + 0x400 * a.tableX.val + _ + 0x1000 * 0
      omega
    split
    · refine withTileRow?_eq ?_
      simp only [toNat]
      show _ = a.coarseX.val + 32 * 0 + 0x400 * a.tableX.val + _ + 0x1000 * 0
      omega
    · rw [bind_eq (add_word (by omega))]
      refine withTileRow?_eq ?_
      have hNext : (a.coarseY + 1).val = (a.coarseY.val + 1) % 32 := Fin.val_add _ _
      simp only [toNat, hNext]
      show _ = a.coarseX.val + _ + 0x400 * a.tableX.val + _ + 0x1000 * 0
      omega
  · have hNext : (a.fineY + 1).val = (a.fineY.val + 1) % 8 := Fin.val_add _ _
    rw [if_pos hLast, if_pos (by omega), bind_eq (add_word (by omega))]
    refine congrArg some (ofNat_eq ?_)
    simp only [toNat, hNext]
    omega

end VramAddress

namespace Scroll

def selectTable? (s : Scroll) (value : UInt8) : Option Scroll := do
  let table ← shl .word (value.toNat % 4) 10
  let t := s.pending.toNat
  return { s with pending := .ofNat (t % 0x400 + table + t / 0x1000 * 0x1000) }

theorem fineColumn_lt (value : UInt8) : value.toNat % 8 < 8 :=
  Nat.mod_lt _ (by decide)

def writeScroll? (s : Scroll) (value : UInt8) : Option Scroll := do
  let t := s.pending.toNat
  if s.second then
    let fine ← shl .word (value.toNat % 8) 12
    let coarse ← shl .word (value.toNat / 8 * 8) 2
    return { s with
      pending := .ofNat (t % 32 + coarse + t / 0x400 % 4 * 0x400 + fine)
      second := false }
  else
    let coarse ← shr .word value.toNat 3
    return { s with
      pending := .ofNat (t / 32 * 32 + coarse)
      fineX := ⟨value.toNat % 8, fineColumn_lt value⟩
      second := true }

def writeAddress? (s : Scroll) (value : UInt8) : Option Scroll := do
  if s.second then return s.writeAddress value
  else
    let high ← shl .word (value.toNat % 64) 8
    return { s with pending := .ofNat (high + s.pending.toNat % 256), second := true }

theorem selectTable?_eq (s : Scroll) (value : UInt8) :
    s.selectTable? value = some (s.selectTable value) := by
  have hPending : VramAddress.ofNat (s.pending.toNat % 0x400 +
      value.toNat % 4 * 2 ^ 10 % 0x10000 + s.pending.toNat / 0x1000 * 0x1000) =
        (s.selectTable value).pending := by
    refine VramAddress.ofNat_eq ?_
    simp only [selectTable, VramAddress.toNat]
    omega
  rw [selectTable?, bind_eq (shl_word (by decide : 10 < 16))]
  dsimp only
  rw [hPending]
  rfl

theorem writeScroll?_eq (s : Scroll) (value : UInt8) :
    s.writeScroll? value = some (s.writeScroll value) := by
  have hValue := value.toNat_lt
  have hFields : s.pending.toNat % 32 = s.pending.coarseX.val ∧
      s.pending.toNat / 0x400 % 4 = s.pending.tableX.val + 2 * s.pending.tableY.val := by
    unfold VramAddress.toNat
    omega
  have hRow (hCoarse : value.toNat / 8 < 32) (hFine : value.toNat % 8 < 8) :
      VramAddress.ofNat (s.pending.toNat % 32 + value.toNat / 8 * 8 * 2 ^ 2 % 0x10000 +
        s.pending.toNat / 0x400 % 4 * 0x400 + value.toNat % 8 * 2 ^ 12 % 0x10000) =
      { s.pending with coarseY := ⟨_, hCoarse⟩, fineY := ⟨_, hFine⟩ } := by
    refine VramAddress.ofNat_eq ?_
    rw [hFields.1, hFields.2]
    simp only [VramAddress.toNat]
    omega
  have hColumn (hCoarse : value.toNat / 8 < 32) :
      VramAddress.ofNat (s.pending.toNat / 32 * 32 + value.toNat / 2 ^ 3) =
        { s.pending with coarseX := ⟨_, hCoarse⟩ } := by
    refine VramAddress.ofNat_eq ?_
    simp only [VramAddress.toNat]
    omega
  simp only [writeScroll?, writeScroll]
  split
  · rw [bind_eq (shl_word (by decide : 12 < 16)), bind_eq (shl_word (by decide : 2 < 16)),
      hRow (by omega) (by omega)]
    rfl
  · rw [bind_eq (shr_word (by decide : 3 < 16)), hColumn (by omega)]
    rfl

theorem writeAddress?_eq (s : Scroll) (value : UInt8) :
    s.writeAddress? value = some (s.writeAddress value) := by
  have hValue := value.toNat_lt
  unfold writeAddress? writeAddress
  split
  · rfl
  · rw [bind_eq (shl_word (by decide : 8 < 16))]
    have hHigh : value.toNat % 64 * 2 ^ 8 % 0x10000 = value.toNat % 64 * 256 := by omega
    rw [hHigh]
    rfl

end Scroll

/-! ### Registers -/

def readData? (ppu : Ppu) (board : Board) : Option (UInt8 × Ppu × Board) := do
  let address := ppu.vramAddress
  if 0x3F00 ≤ address then
    let below ← ppu.vramRead? board (← sub address 0x1000)
    let entry ← ppu.palette[← paletteIndex? address]?
    return (entry &&& 0x3F ||| ppu.openBus &&& 0xC0, { ppu with readBuffer := below }.stepAddress,
      board)
  else
    let next ← ppu.vramRead? board address
    return (ppu.readBuffer, { ppu with readBuffer := next }.stepAddress, board)

def readRegister? (ppu : Ppu) (board : Board) (address : UInt16) :
    Option (UInt8 × Ppu × Board) := do
  match address.toNat % 8 with
  | 4 =>
    let value ← ppu.readOam?
    return (value, { ppu with openBus := value }, board)
  | 7 =>
    let (value, ppu, board) ← ppu.readData? board
    return (value, { ppu with openBus := value }, board)
  | 2 =>
    let (value, ppu) := ppu.readStatus
    return (value, { ppu with openBus := value }, board)
  | _ => return (ppu.openBus, ppu, board)

def writeControl? (ppu : Ppu) (value : UInt8) : Option Ppu := do
  return { ppu.writeControl value with scroll := ← ppu.scroll.selectTable? value }

def writeRegister? (ppu : Ppu) (board : Board) (address : UInt16) (value : UInt8) :
    Option (Ppu × Board) := do
  let latched := { ppu with openBus := value }
  match address.toNat % 8 with
  | 0 => return (← latched.writeControl? value, board)
  | 4 => return (← latched.writeOam? value, board)
  | 5 => return ({ latched with scroll := ← latched.scroll.writeScroll? value }, board)
  | 6 => return ({ latched with scroll := ← latched.scroll.writeAddress? value }, board)
  | 7 =>
    let (ppu, board) ← latched.vramWrite? board latched.vramAddress value
    return (ppu.stepAddress, board)
  | 1 => return ({ latched with mask := ⟨value⟩ }, board)
  | 3 => return ({ latched with oamAddress := value }, board)
  | _ => return (latched, board)

theorem writeControl?_eq (ppu : Ppu) (value : UInt8) :
    ppu.writeControl? value = some (ppu.writeControl value) :=
  bind_eq (ppu.scroll.selectTable?_eq value) _

section

variable {board : Board} (h : board.Sound)

include h

theorem readData?_eq (ppu : Ppu) :
    ppu.readData? board = some (ppu.readData board) ∧ (ppu.readData board).2.2 = board := by
  unfold readData? readData
  show (if 0x3F00 ≤ ppu.vramAddress then _ else _) =
    some (if 0x3F00 ≤ ppu.vramAddress then _ else _) ∧
      (if 0x3F00 ≤ ppu.vramAddress then _ else _ : UInt8 × Ppu × Board).2.2 = board
  split
  · rename_i hPalette
    obtain ⟨hRead, hSame⟩ := vramRead?_eq h ppu (ppu.vramAddress - 0x1000)
    rw [bind_eq (sub_eq (by omega)), bind_eq hRead, bind_eq (paletteIndex?_eq _),
      bind_eq (get_eq _ (Fin.isLt _))]
    -- The byte read is made a variable, so that the reading is not evaluated here.
    generalize ppu.vramRead board (ppu.vramAddress - 0x1000) = answer at hSame ⊢
    obtain ⟨below, next⟩ := answer
    obtain rfl : next = board := hSame
    exact ⟨rfl, rfl⟩
  · obtain ⟨hRead, hSame⟩ := vramRead?_eq h ppu ppu.vramAddress
    rw [bind_eq hRead]
    generalize ppu.vramRead board ppu.vramAddress = answer at hSame ⊢
    obtain ⟨value, next⟩ := answer
    obtain rfl : next = board := hSame
    exact ⟨rfl, rfl⟩

theorem readRegister?_eq (ppu : Ppu) (address : UInt16) :
    ppu.readRegister? board address = some (ppu.readRegister board address) ∧
      (ppu.readRegister board address).2.2 = board := by
  unfold readRegister? readRegister
  generalize address.toNat % 8 = register
  match register with
  | 7 =>
    obtain ⟨hRead, hSame⟩ := readData?_eq h ppu
    exact ⟨bind_eq hRead _, hSame⟩
  | 4 => exact ⟨bind_eq ppu.readOam?_eq _, rfl⟩
  | 0 | 1 | 2 | 3 | 5 | 6 => exact ⟨rfl, rfl⟩
  | register + 8 => exact ⟨rfl, rfl⟩

theorem writeRegister?_eq (ppu : Ppu) (address : UInt16) (value : UInt8) :
    ppu.writeRegister? board address value = some (ppu.writeRegister board address value) ∧
      (ppu.writeRegister board address value).2.Sound := by
  unfold writeRegister? writeRegister
  generalize address.toNat % 8 = register
  match register with
  | 0 => exact ⟨bind_eq (writeControl?_eq _ _) _, h⟩
  | 4 => exact ⟨bind_eq (writeOam?_eq _ _) _, h⟩
  | 5 => exact ⟨bind_eq (Scroll.writeScroll?_eq _ _) _, h⟩
  | 6 => exact ⟨bind_eq (Scroll.writeAddress?_eq _ _) _, h⟩
  | 7 =>
    obtain ⟨hWrite, hSound⟩ := vramWrite?_eq h { ppu with openBus := value }
      { ppu with openBus := value }.vramAddress value
    exact ⟨bind_eq hWrite _, hSound⟩
  | 1 | 2 | 3 => exact ⟨rfl, h⟩
  | register + 8 => exact ⟨rfl, h⟩

end

/-! ### The beam -/

def Raster.nextLine? (r : Raster) : Option Raster := do
  let line ← add .word r.scanline.val 1
  if hLine : line < linesPerFrame then
    return { r with scanline := ⟨line, hLine⟩, dot := start.dot }
  else return ⟨start.scanline, start.dot, r.frames + 1, !r.odd⟩

def Raster.advance? (r : Raster) (rendering : Bool) : Option Raster := do
  let dot ← add .word (if r.skipsDot rendering then dotsPerLine - 1 else r.dot.val) 1
  if hDot : dot < dotsPerLine then return { r with dot := ⟨dot, hDot⟩ }
  else r.nextLine?

theorem Raster.nextLine?_eq (r : Raster) : r.nextLine? = some r.nextLine := by
  have hLine : r.scanline.val < 262 := r.scanline.isLt
  rw [nextLine?, bind_eq (add_word (by omega)), nextLine]
  split
  · rfl
  · rfl

theorem Raster.advance?_eq (r : Raster) (rendering : Bool) :
    r.advance? rendering = some (r.advance rendering) := by
  have hDot : r.dot.val < 341 := r.dot.isLt
  unfold advance? advance
  split
  · rw [bind_eq (add_word (by decide)), dif_neg (by decide)]
    exact r.nextLine?_eq
  · rw [bind_eq (add_word (by omega))]
    split
    · rfl
    · exact r.nextLine?_eq

end Ppu

end Famicom
