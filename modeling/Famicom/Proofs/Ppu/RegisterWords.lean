import Famicom.Proofs.Ppu.FreshPicture
import Mathlib.Tactic.IntervalCases

/-!
# Registers as words

The addresses behind the scroll and address registers lie in sixteen bit words, and so does the
place of the beam.  Accesses mask a part of a word out and put another one in, and the beam counts
up and compares.  `Words.step` says so for every call; the fields by which addresses are kept
elsewhere are what these words hold.
-/

namespace Famicom

/-! ### Masks -/

def replace (w keep part : UInt16) : UInt16 :=
  w &&& keep ||| part

theorem toNat_replace (w : UInt16) {keep part : UInt16} (h : part &&& keep = 0) :
    (replace w keep part).toNat + (w &&& ~~~keep).toNat = w.toNat + part.toNat := by
  have hWhole := toNat_and_add_not w keep
  have hApart : w &&& keep &&& part = 0 := by
    rw [UInt16.and_assoc, UInt16.and_comm keep, h, UInt16.and_zero]
  rw [replace, toNat_or_of_disjoint hApart]
  omega

end Famicom

namespace Famicom.Ppu

/-! ### Words -/

structure Words where
  current : UInt16
  pending : UInt16
  fineX : UInt8
  second : Bool
  scanline : UInt16
  dot : UInt16
  odd : Bool
  deriving DecidableEq

namespace Words

def start : Words :=
  ⟨0, 0, 0, false, 0, 0, false⟩

def selectTable (w : Words) (value : UInt8) : Words :=
  { w with pending := replace w.pending 0xF3FF ((value &&& 0x03).toUInt16 <<< 10) }

def writeScroll (w : Words) (value : UInt8) : Words :=
  let bits := value.toUInt16
  if w.second then
    let fine : UInt16 := (bits &&& 0x07) <<< 12
    let coarse : UInt16 := (bits &&& 0xF8) <<< 2
    { w with pending := replace w.pending 0x8C1F (fine ||| coarse), second := false }
  else
    { w with
      pending := replace w.pending 0xFFE0 (bits >>> 3)
      fineX := value &&& 0x07
      second := true }

def writeAddress (w : Words) (value : UInt8) : Words :=
  let bits := value.toUInt16
  if w.second then
    let address := replace w.pending 0xFF00 bits
    { w with current := address, pending := address, second := false }
  else { w with pending := replace w.pending 0x00FF ((bits &&& 0x3F) <<< 8), second := true }

def increment (w : Words) (step : UInt16) : Words :=
  { w with current := (w.current + step) &&& 0x7FFF }

def nextTileRow (address : UInt16) : UInt16 :=
  let row : UInt16 := (address &&& 0x03E0) >>> 5
  if row = 29 then replace (address ^^^ 0x0800) 0xFC1F 0
  else if row = 31 then replace address 0xFC1F 0
  else replace address 0xFC1F ((row + 1) <<< 5)

def nextRow (w : Words) : Words :=
  if w.current &&& 0x7000 ≠ 0x7000 then { w with current := w.current + 0x1000 }
  else { w with current := nextTileRow (w.current &&& 0x8FFF) }

def copyColumn (w : Words) : Words :=
  { w with current := replace w.current 0xFBE0 (w.pending &&& 0x041F) }

def copyRow (w : Words) : Words :=
  { w with current := replace w.current 0x841F (w.pending &&& 0x7BE0) }

def nextLine (w : Words) : Words :=
  if w.scanline + 1 < 262 then { w with scanline := w.scanline + 1, dot := 0 }
  else { w with scanline := 0, dot := 0, odd := !w.odd }

/-- Moves the beam by one dot, counting the dropped one as passed. -/
def advance (w : Words) (rendering : Bool) : Words :=
  let skips := w.odd && rendering && (w.scanline == 261 && w.dot == 339)
  let dot := if skips then 340 else w.dot
  if dot + 1 < 341 then { w with dot := dot + 1 } else w.nextLine

def follow (w : Words) : Words :=
  if w.scanline < 240 then
    if w.dot = 256 then w.nextRow else if w.dot = 257 then w.copyColumn else w
  else if w.scanline = 261 then
    if w.dot = 257 then w.copyColumn
    else if 280 ≤ w.dot ∧ w.dot ≤ 304 then w.copyRow
    else w
  else w

def tick (w : Words) (rendering : Bool) : Words :=
  if rendering then (w.advance rendering).follow else w.advance rendering

def read (w : Words) (address : UInt16) (step : UInt16) : Words :=
  match address.toNat % 8 with
  | 2 => { w with second := false }
  | 7 => w.increment step
  | _ => w

def write (w : Words) (address : UInt16) (value : UInt8) (step : UInt16) : Words :=
  match address.toNat % 8 with
  | 0 => w.selectTable value
  | 5 => w.writeScroll value
  | 6 => w.writeAddress value
  | 7 => w.increment step
  | _ => w

def reset (w : Words) : Words :=
  { w with second := false, scanline := 0, dot := 0, odd := false }

/-- What a call does to the words.  Control and mask register are asked for the distance between
addresses and for rendering. -/
def step {β : Type} (w : Words) (call : Call β) : Words :=
  match call.operation with
  | .tick => w.tick call.ppu.mask.rendering
  | .read address => w.read address call.ppu.control.vramStep.toUInt16
  | .write address value => w.write address value call.ppu.control.vramStep.toUInt16
  | .reset => w.reset
  | _ => w

end Words

def wordsOf (s : Scroll) (r : Raster) : Words where
  current := s.current.toWord
  pending := s.pending.toWord
  fineX := s.fineX.val.toUInt8
  second := s.second
  scanline := r.scanline.val.toUInt16
  dot := r.dot.val.toUInt16
  odd := r.odd

def words (ppu : Ppu) : Words :=
  wordsOf ppu.scroll ppu.raster

/-! ### Addresses -/

namespace VramAddress

theorem toNat_toWord (a : VramAddress) : a.toWord.toNat = a.toNat := by
  have hLt := a.toNat_lt
  rw [toWord, Nat.toUInt16_eq, UInt16.toNat_ofNat']
  omega

theorem eq_toWord {w : UInt16} {a : VramAddress} (h : w.toNat = a.toNat) : w = a.toWord := by
  apply UInt16.toNat_inj.1
  rw [h, toNat_toWord]

theorem eq_toWord_ofNat {w : UInt16} {n : Nat} (h : w.toNat = n % 0x8000) :
    w = (ofNat n).toWord :=
  eq_toWord (h.trans (toNat_ofNat n).symm)

theorem toNat_column (a : VramAddress) :
    (a.toWord &&& 0x041F).toNat = a.coarseX.val + 0x400 * a.tableX.val := by
  have hFields : (0x041F : UInt16) = 0x0400 ||| 0x001F := rfl
  rw [hFields, toNat_and_fields _ (by rfl), toNat_and_field _ 10 1 rfl, toNat_and_field _ 0 5 rfl,
    toNat_toWord, toNat]
  omega

theorem toNat_row (a : VramAddress) :
    (a.toWord &&& 0x7BE0).toNat =
      32 * a.coarseY.val + 0x800 * a.tableY.val + 0x1000 * a.fineY.val := by
  have hFields : (0x7BE0 : UInt16) = 0x7800 ||| 0x03E0 := rfl
  rw [hFields, toNat_and_fields _ (by rfl), toNat_and_field _ 11 4 rfl, toNat_and_field _ 5 5 rfl,
    toNat_toWord, toNat]
  omega

theorem nextTileRow_word {a : VramAddress} {w : UInt16} (hLast : a.fineY.val = 7)
    (hWord : w.toNat + 0x7000 = a.toNat) : Words.nextTileRow w = a.nextRow.toWord := by
  have hFields : w.toNat = a.coarseX.val + 32 * a.coarseY.val + 0x400 * a.tableX.val +
      0x800 * a.tableY.val := by
    rw [toNat] at hWord
    omega
  have hRow : ((w &&& 0x03E0) >>> 5).toNat = a.coarseY.val := by
    rw [UInt16.toNat_shiftRight, toNat_and_field _ 5 5 rfl]
    show (w.toNat / 2 ^ 5 % 2 ^ 5 * 2 ^ 5) >>> 5 = _
    rw [Nat.shiftRight_eq_div_pow]
    omega
  have hIs (n : UInt16) : (w &&& 0x03E0) >>> 5 = n ↔ a.coarseY.val = n.toNat := by
    rw [← UInt16.toNat_inj, hRow]
  have hReplace (x part : UInt16) (hApart : part &&& 0xFC1F = 0) :
      (replace x 0xFC1F part).toNat + x.toNat / 2 ^ 5 % 2 ^ 5 * 2 ^ 5 = x.toNat + part.toNat := by
    rw [← toNat_replace x hApart, toNat_and_field _ 5 5 rfl]
  unfold nextRow
  rw [if_neg (by omega)]
  simp only [Words.nextTileRow, hIs, UInt16.reduceToNat]
  apply eq_toWord
  -- The last row of a nametable, the last row of all, and any other.
  split
  · -- The bit of the table is flipped.
    have hFlip : (1 - a.tableY).val = 1 - a.tableY.val := Aimed.flip_val a.tableY
    have hBit : (w ^^^ 0x0800).toNat + 2 * (w &&& 0x0800).toNat = w.toNat + 0x0800 :=
      toNat_xor_add w 0x0800
    have hSum : _ = (w ^^^ 0x0800).toNat + 0 := hReplace (w ^^^ 0x0800) 0 (by rfl)
    rw [toNat_and_field _ 11 1 rfl] at hBit
    rw [toNat, hFlip]
    show _ = a.coarseX.val + 32 * 0 + 0x400 * a.tableX.val + 0x800 * (1 - a.tableY.val) + 0x1000 * 0
    omega
  · split
    · have hSum : _ = w.toNat + 0 := hReplace w 0 (by rfl)
      show _ = a.coarseX.val + 32 * 0 + 0x400 * a.tableX.val + 0x800 * a.tableY.val + 0x1000 * 0
      omega
    · have hNext : (a.coarseY + 1).val = (a.coarseY.val + 1) % 32 := Fin.val_add _ _
      have hAll : ∀ n : Fin 31, (UInt16.ofNat n.val + 1) <<< 5 &&& (0xFC1F : UInt16) = 0 ∧
          ((UInt16.ofNat n.val + 1) <<< 5).toNat = 32 * (n.val + 1) := by
        decide +kernel
      obtain ⟨hApart, hPart⟩ := hAll ⟨a.coarseY.val, by omega⟩
      have hSum := hReplace w _ hApart
      have hWhole : (w &&& 0x03E0) >>> 5 = UInt16.ofNat a.coarseY.val := by
        rw [← hRow, UInt16.ofNat_toNat]
      rw [hPart] at hSum
      dsimp only at hSum
      rw [hWhole, toNat, hNext]
      show _ = a.coarseX.val + 32 * ((a.coarseY.val + 1) % 32) + 0x400 * a.tableX.val +
        0x800 * a.tableY.val + 0x1000 * 0
      omega

theorem nextRow_word (a : VramAddress) :
    (if a.toWord &&& 0x7000 ≠ 0x7000 then a.toWord + 0x1000
      else Words.nextTileRow (a.toWord &&& 0x8FFF)) = a.nextRow.toWord := by
  have hLt := a.toNat_lt
  have hFine : (a.toWord &&& 0x7000).toNat = 0x1000 * a.fineY.val := by
    rw [toNat_and_field _ 12 3 rfl, toNat_toWord, toNat]
    omega
  have hIs : a.toWord &&& 0x7000 = 0x7000 ↔ a.fineY.val = 7 := by
    have hSeven : (0x7000 : UInt16).toNat = 0x7000 := rfl
    rw [← UInt16.toNat_inj, hFine, hSeven]
    omega
  by_cases hLast : a.fineY.val = 7
  · have hRest := toNat_and_add_not a.toWord 0x8FFF
    rw [show ~~~(0x8FFF : UInt16) = 0x7000 from rfl, hFine, toNat_toWord] at hRest
    rw [if_neg (not_not_intro (hIs.2 hLast))]
    exact nextTileRow_word hLast (by omega)
  · have hNext : (a.fineY + 1).val = (a.fineY.val + 1) % 8 := Fin.val_add _ _
    rw [if_pos (mt hIs.1 hLast)]
    apply eq_toWord
    rw [nextRow, if_pos (by omega), UInt16.toNat_add, toNat_toWord]
    simp only [toNat, hNext, UInt16.reduceToNat]
    omega

end VramAddress

namespace Scroll

variable (s : Scroll) (value : UInt8)

theorem selectTable_word :
    replace s.pending.toWord 0xF3FF ((value &&& 0x03).toUInt16 <<< 10) =
      (s.selectTable value).pending.toWord := by
  obtain ⟨hApart, hPart⟩ := forall_byte (p := fun value =>
    (value &&& 0x03).toUInt16 <<< 10 &&& (0xF3FF : UInt16) = 0 ∧
      ((value &&& 0x03).toUInt16 <<< 10).toNat = 0x400 * (value.toNat % 4)) (by decide +kernel)
    value
  have hWord := toNat_replace s.pending.toWord hApart
  rw [toNat_and_field _ 10 2 rfl, VramAddress.toNat_toWord, hPart] at hWord
  apply VramAddress.eq_toWord
  simp only [selectTable, VramAddress.toNat] at hWord ⊢
  omega

theorem column_word (h : value.toNat / 8 < 32) :
    replace s.pending.toWord 0xFFE0 (value.toUInt16 >>> 3) =
      ({ s.pending with coarseX := ⟨value.toNat / 8, h⟩ } : VramAddress).toWord := by
  obtain ⟨hApart, hPart⟩ := forall_byte (p := fun value =>
    value.toUInt16 >>> 3 &&& (0xFFE0 : UInt16) = 0 ∧
      (value.toUInt16 >>> 3).toNat = value.toNat / 8) (by decide +kernel) value
  have hWord := toNat_replace s.pending.toWord hApart
  rw [toNat_and_field _ 0 5 rfl, VramAddress.toNat_toWord, hPart] at hWord
  apply VramAddress.eq_toWord
  simp only [VramAddress.toNat] at hWord ⊢
  omega

theorem row_word (hCoarse : value.toNat / 8 < 32) (hFine : value.toNat % 8 < 8) :
    replace s.pending.toWord 0x8C1F
        ((value.toUInt16 &&& 0x07) <<< 12 ||| (value.toUInt16 &&& 0xF8) <<< 2) =
      ({ s.pending with coarseY := ⟨_, hCoarse⟩, fineY := ⟨_, hFine⟩ } : VramAddress).toWord := by
  obtain ⟨hApart, hPart⟩ := forall_byte (p := fun value =>
    ((value.toUInt16 &&& 0x07) <<< 12 ||| (value.toUInt16 &&& 0xF8) <<< 2) &&&
        (0x8C1F : UInt16) = 0 ∧
      ((value.toUInt16 &&& 0x07) <<< 12 ||| (value.toUInt16 &&& 0xF8) <<< 2).toNat =
        0x1000 * (value.toNat % 8) + 32 * (value.toNat / 8)) (by decide +kernel) value
  have hFields : ~~~(0x8C1F : UInt16) = 0x7000 ||| 0x03E0 := rfl
  have hWord := toNat_replace s.pending.toWord hApart
  rw [hFields, toNat_and_fields _ (by rfl), toNat_and_field _ 12 3 rfl, toNat_and_field _ 5 5 rfl,
    VramAddress.toNat_toWord, hPart] at hWord
  apply VramAddress.eq_toWord
  simp only [VramAddress.toNat] at hWord ⊢
  omega

theorem high_word :
    replace s.pending.toWord 0x00FF ((value.toUInt16 &&& 0x3F) <<< 8) =
      (VramAddress.ofNat (value.toNat % 64 * 256 + s.pending.toNat % 256)).toWord := by
  obtain ⟨hApart, hPart⟩ := forall_byte (p := fun value =>
    (value.toUInt16 &&& 0x3F) <<< 8 &&& (0x00FF : UInt16) = 0 ∧
      ((value.toUInt16 &&& 0x3F) <<< 8).toNat = value.toNat % 64 * 256) (by decide +kernel) value
  have hWord := toNat_replace s.pending.toWord hApart
  have hLt := s.pending.toNat_lt
  rw [toNat_and_field _ 8 8 rfl, VramAddress.toNat_toWord, hPart] at hWord
  apply VramAddress.eq_toWord_ofNat
  omega

theorem low_word :
    replace s.pending.toWord 0xFF00 value.toUInt16 =
      (VramAddress.ofNat (s.pending.toNat / 256 * 256 + value.toNat)).toWord := by
  have hApart := forall_byte (p := fun value => value.toUInt16 &&& (0xFF00 : UInt16) = 0)
    (by decide +kernel) value
  have hWord := toNat_replace s.pending.toWord hApart
  have hLt := s.pending.toNat_lt
  have hValue := value.toNat_lt
  rw [toNat_and_field _ 0 8 rfl, VramAddress.toNat_toWord, UInt8.toNat_toUInt16] at hWord
  apply VramAddress.eq_toWord_ofNat
  omega

theorem increment_word (step : Nat) (h : step ≤ 32) :
    (s.current.toWord + step.toUInt16) &&& 0x7FFF = (s.increment step).current.toWord := by
  have hLt := s.current.toNat_lt
  apply VramAddress.eq_toWord_ofNat
  rw [toNat_and_field _ 0 15 rfl, UInt16.toNat_add, VramAddress.toNat_toWord, Nat.toUInt16_eq,
    UInt16.toNat_ofNat']
  omega

theorem copyColumn_word :
    replace s.current.toWord 0xFBE0 (s.pending.toWord &&& 0x041F) =
      s.copyColumn.current.toWord := by
  have hApart : s.pending.toWord &&& 0x041F &&& 0xFBE0 = 0 := by
    rw [UInt16.and_assoc]
    exact UInt16.and_zero
  have hOld := s.current.toNat_column
  have hNew := s.pending.toNat_column
  have hWord := toNat_replace s.current.toWord hApart
  apply VramAddress.eq_toWord
  rw [show ~~~(0xFBE0 : UInt16) = 0x041F from rfl, VramAddress.toNat_toWord] at hWord
  simp only [copyColumn, VramAddress.withColumnOf, VramAddress.toNat] at hWord ⊢
  omega

theorem copyRow_word :
    replace s.current.toWord 0x841F (s.pending.toWord &&& 0x7BE0) = s.copyRow.current.toWord := by
  have hApart : s.pending.toWord &&& 0x7BE0 &&& 0x841F = 0 := by
    rw [UInt16.and_assoc]
    exact UInt16.and_zero
  have hOld := s.current.toNat_row
  have hNew := s.pending.toNat_row
  have hWord := toNat_replace s.current.toWord hApart
  apply VramAddress.eq_toWord
  rw [show ~~~(0x841F : UInt16) = 0x7BE0 from rfl, VramAddress.toNat_toWord] at hWord
  simp only [copyRow, VramAddress.withRowOf, VramAddress.toNat] at hWord ⊢
  omega

end Scroll

/-! ### Registers -/

section Registers

variable (s : Scroll) (r : Raster) (value : UInt8)

theorem wordsOf_selectTable :
    wordsOf (s.selectTable value) r = (wordsOf s r).selectTable value := by
  rw [wordsOf, ← s.selectTable_word value]
  rfl

theorem wordsOf_writeScroll :
    wordsOf (s.writeScroll value) r = (wordsOf s r).writeScroll value := by
  have hCoarse : value.toNat / 8 < 32 := by
    have hLt := value.toNat_lt
    omega
  have hFine : value.toNat % 8 < 8 := Nat.mod_lt _ (by decide)
  cases hSecond : s.second with
  | true =>
    simp only [wordsOf, Scroll.writeScroll, Words.writeScroll, hSecond, ↓reduceIte,
      s.row_word value hCoarse hFine]
  | false =>
    have hFineX : (value.toNat % 8).toUInt8 = value &&& 0x07 := by
      apply UInt8.toNat_inj.1
      rw [UInt8.toNat_and, Nat.toUInt8_eq, UInt8.toNat_ofNat']
      show _ = value.toNat &&& (2 ^ 3 - 1)
      rw [Nat.and_two_pow_sub_one_eq_mod]
      omega
    simp only [wordsOf, Scroll.writeScroll, Words.writeScroll, hSecond, Bool.false_eq_true,
      ↓reduceIte, s.column_word value hCoarse, hFineX]

theorem wordsOf_writeAddress :
    wordsOf (s.writeAddress value) r = (wordsOf s r).writeAddress value := by
  cases hSecond : s.second with
  | true =>
    simp only [wordsOf, Scroll.writeAddress, Words.writeAddress, hSecond, ↓reduceIte,
      s.low_word value]
  | false =>
    simp only [wordsOf, Scroll.writeAddress, Words.writeAddress, hSecond, Bool.false_eq_true,
      ↓reduceIte, s.high_word value]

theorem wordsOf_increment (c : Control) :
    wordsOf (s.increment c.vramStep) r = (wordsOf s r).increment c.vramStep.toUInt16 := by
  have hStep : c.vramStep ≤ 32 := by
    unfold Control.vramStep
    split <;> decide
  rw [wordsOf, ← s.increment_word c.vramStep hStep]
  rfl

theorem wordsOf_nextRow : wordsOf s.nextRow r = (wordsOf s r).nextRow := by
  have hWord := s.current.nextRow_word
  rw [wordsOf, Scroll.nextRow, ← hWord, Words.nextRow]
  unfold wordsOf
  split <;> rfl

theorem wordsOf_copyColumn : wordsOf s.copyColumn r = (wordsOf s r).copyColumn := by
  rw [wordsOf, ← s.copyColumn_word]
  rfl

theorem wordsOf_copyRow : wordsOf s.copyRow r = (wordsOf s r).copyRow := by
  rw [wordsOf, ← s.copyRow_word]
  rfl

end Registers

/-! ### The beam -/

section Beam

variable (s : Scroll) (r : Raster)

theorem toNat_scanline : (wordsOf s r).scanline.toNat = r.scanline.val :=
  UInt16.toNat_ofNat_of_lt' (Nat.lt_trans r.scanline_lt (by decide))

theorem toNat_dot : (wordsOf s r).dot.toNat = r.dot.val :=
  UInt16.toNat_ofNat_of_lt' (Nat.lt_trans r.dot_lt (by decide))

theorem wordsOf_nextLine : wordsOf s r.nextLine = (wordsOf s r).nextLine := by
  have hLt := r.scanline_lt
  have hIs : (wordsOf s r).scanline + 1 < 262 ↔ r.scanline.val + 1 < linesPerFrame := by
    rw [UInt16.lt_iff_toNat_lt, UInt16.toNat_add, toNat_scanline]
    show (_ + 1) % 65536 < 262 ↔ _ < 262
    omega
  have hNext : (r.scanline.val + 1).toUInt16 = (wordsOf s r).scanline + 1 :=
    UInt16.ofNat_add r.scanline.val 1
  unfold Words.nextLine Raster.nextLine
  split
  · rename_i hBefore
    rw [if_pos (hIs.2 hBefore), ← hNext]
    rfl
  · rename_i hLast
    rw [if_neg (mt hIs.1 hLast)]
    rfl

theorem wordsOf_advance (rendering : Bool) :
    wordsOf s (r.advance rendering) = (wordsOf s r).advance rendering := by
  have hLt := r.dot_lt
  have hSkip : ((wordsOf s r).odd && rendering && ((wordsOf s r).scanline == 261 &&
      (wordsOf s r).dot == 339)) = r.skipsDot rendering := by
    have hLine : ((wordsOf s r).scanline == 261) = (r.scanline.val == preRenderLine) := by
      rw [Bool.eq_iff_iff, beq_iff_eq, beq_iff_eq, ← UInt16.toNat_inj, toNat_scanline]
      rfl
    have hDot : ((wordsOf s r).dot == 339) = (r.dot.val == 339) := by
      rw [Bool.eq_iff_iff, beq_iff_eq, beq_iff_eq, ← UInt16.toNat_inj, toNat_dot]
      rfl
    rw [hLine, hDot]
    rfl
  have hIs : (wordsOf s r).dot + 1 < 341 ↔ r.dot.val + 1 < dotsPerLine := by
    rw [UInt16.lt_iff_toNat_lt, UInt16.toNat_add, toNat_dot]
    show (_ + 1) % 65536 < 341 ↔ _ < 341
    omega
  have hNext : (r.dot.val + 1).toUInt16 = (wordsOf s r).dot + 1 := UInt16.ofNat_add r.dot.val 1
  unfold Words.advance Raster.advance
  rw [hSkip]
  dsimp only
  -- The dropped dot counts as passed, so that the next one is past the end of the line.
  split
  · exact wordsOf_nextLine s r
  · split
    · rename_i hBefore
      rw [if_pos (hIs.2 hBefore), ← hNext]
      rfl
    · rename_i hLast
      rw [if_neg (mt hIs.1 hLast)]
      exact wordsOf_nextLine s r

end Beam

/-! ### Calls -/

variable {β : Type} [PatternBus β]

def Scroll.follow (s : Scroll) (r : Raster) : Scroll :=
  if r.scanline.val < 240 then
    if r.dot.val = 256 then s.nextRow else if r.dot.val = 257 then s.copyColumn else s
  else if r.scanline.val = 261 then
    if r.dot.val = 257 then s.copyColumn
    else if 280 ≤ r.dot.val ∧ r.dot.val ≤ 304 then s.copyRow
    else s
  else s

theorem wordsOf_follow (s : Scroll) (r : Raster) :
    wordsOf (s.follow r) r = (wordsOf s r).follow := by
  have hLine (n : UInt16) : (wordsOf s r).scanline = n ↔ r.scanline.val = n.toNat := by
    rw [← UInt16.toNat_inj, toNat_scanline]
  have hVisible : (wordsOf s r).scanline < 240 ↔ r.scanline.val < 240 := by
    rw [UInt16.lt_iff_toNat_lt, toNat_scanline]
    rfl
  have hDot (n : UInt16) : (wordsOf s r).dot = n ↔ r.dot.val = n.toNat := by
    rw [← UInt16.toNat_inj, toNat_dot]
  have hRows : 280 ≤ (wordsOf s r).dot ∧ (wordsOf s r).dot ≤ 304 ↔
      280 ≤ r.dot.val ∧ r.dot.val ≤ 304 := by
    rw [UInt16.le_iff_toNat_le, UInt16.le_iff_toNat_le, toNat_dot]
    rfl
  simp only [Words.follow, Scroll.follow, hLine, hVisible, hDot, hRows, UInt16.reduceToNat]
  split
  · split
    · exact wordsOf_nextRow s r
    · split
      · exact wordsOf_copyColumn s r
      · rfl
  · split
    · split
      · exact wordsOf_copyColumn s r
      · split
        · exact wordsOf_copyRow s r
        · rfl
    · rfl

theorem preRenderDot_scroll (ppu : Ppu) :
    ppu.preRenderDot.scroll =
      if ppu.mask.rendering then
        if ppu.raster.dot.val = 257 then ppu.scroll.copyColumn
        else if 280 ≤ ppu.raster.dot.val ∧ ppu.raster.dot.val ≤ 304 then ppu.scroll.copyRow
        else ppu.scroll
      else ppu.scroll := by
  unfold preRenderDot
  by_cases hFirst : ppu.raster.dot.val = 1
  · have hColumn : ¬ppu.raster.dot.val = 257 := by omega
    have hRow : ¬(280 ≤ ppu.raster.dot.val ∧ ppu.raster.dot.val ≤ 304) := by omega
    rw [if_pos hFirst, if_neg hColumn, if_neg hRow, ite_self]
    rfl
  · simp only [hFirst, ↓reduceIte]
    cases ppu.mask.rendering with
    | false => rfl
    | true =>
      simp only [Bool.not_true, Bool.false_eq_true, ↓reduceIte]
      split
      · rfl
      · split <;> rfl

theorem tick_scroll (ppu : Ppu) (bus : β) :
    (ppu.tick bus).2.1.scroll =
      if ppu.mask.rendering then ppu.scroll.follow ppu.moved.raster else ppu.scroll := by
  have hMask : ppu.moved.mask = ppu.mask := rfl
  have hScroll : ppu.moved.scroll = ppu.scroll := rfl
  unfold Scroll.follow
  by_cases hVisible : ppu.moved.raster.scanline.val < pictureHeight
  · have hLine : ppu.moved.raster.scanline.val < 240 := hVisible
    rw [ppu.tick_visible bus hVisible, if_pos hLine]
    by_cases hDot : ppu.moved.raster.dot.val = renderDot
    · have hHere : ppu.moved.raster.dot.val = 256 := hDot
      rw [ppu.moved.visibleDot_render bus _ hDot, if_pos hHere]
      rfl
    · have hElse : ¬ppu.moved.raster.dot.val = 256 := hDot
      rw [ppu.moved.visibleDot_other bus _ hDot, if_neg hElse, hMask, hScroll]
      dsimp only
      cases ppu.mask.rendering <;> simp
  · have hLine : ¬ppu.moved.raster.scanline.val < 240 := hVisible
    rw [ppu.tick_hidden bus hVisible, if_neg hLine]
    by_cases hStart : ppu.moved.raster.isAt vblankLine 1 = true
    · have hElse : ¬ppu.moved.raster.scanline.val = 261 := by
        simp only [Raster.isAt, vblankLine, Bool.and_eq_true, beq_iff_eq] at hStart
        omega
      rw [if_pos hStart, if_neg hElse, ite_self]
      rfl
    rw [if_neg hStart]
    by_cases hPre : ppu.moved.raster.scanline.val = preRenderLine
    · have hHere : ppu.moved.raster.scanline.val = 261 := hPre
      rw [if_pos hPre, if_pos hHere]
      exact ppu.moved.preRenderDot_scroll
    · have hElse : ¬ppu.moved.raster.scanline.val = 261 := hPre
      rw [if_neg hPre, if_neg hElse, ite_self]
      rfl

theorem tick_words (ppu : Ppu) (bus : β) :
    (ppu.tick bus).2.1.words = ppu.words.tick ppu.mask.rendering := by
  have hRaster : (ppu.tick bus).2.1.raster = ppu.moved.raster := (ppu.tick_ticked bus).raster
  have hMoved : wordsOf ppu.scroll ppu.moved.raster = ppu.words.advance ppu.mask.rendering :=
    wordsOf_advance ppu.scroll ppu.raster ppu.mask.rendering
  rw [words, hRaster, ppu.tick_scroll bus, Words.tick]
  split
  · rw [wordsOf_follow, hMoved]
  · exact hMoved

theorem readData_scroll (ppu : Ppu) (bus : β) :
    (ppu.readData bus).2.1.scroll = ppu.scroll.increment ppu.control.vramStep := by
  obtain ⟨buffer, hData⟩ := ppu.readData_eq bus
  rw [hData]
  rfl

theorem readRegister_words (ppu : Ppu) (bus : β) (address : UInt16) :
    (ppu.readRegister bus address).2.1.words =
      ppu.words.read address ppu.control.vramStep.toUInt16 := by
  have hLt : address.toNat % 8 < 8 := Nat.mod_lt _ (by decide)
  unfold readRegister Words.read
  generalize address.toNat % 8 = register at hLt ⊢
  interval_cases register
  case «7» =>
    show wordsOf (ppu.readData bus).2.1.scroll (ppu.readData bus).2.1.raster = _
    rw [ppu.readData_scroll bus, (ppu.readData_keeps bus).1]
    exact wordsOf_increment ppu.scroll ppu.raster ppu.control
  all_goals rfl

theorem vramWrite_scroll (ppu : Ppu) (bus : β) (address : Nat) (value : UInt8) :
    (ppu.vramWrite bus address value).1.scroll = ppu.scroll ∧
      (ppu.vramWrite bus address value).1.control = ppu.control := by
  obtain ⟨nametables, palette, hWrite⟩ := ppu.vramWrite_eq bus address value
  rw [hWrite]
  exact ⟨rfl, rfl⟩

theorem writeRegister_words (ppu : Ppu) (bus : β) (address : UInt16) (value : UInt8) :
    (ppu.writeRegister bus address value).1.words =
      ppu.words.write address value ppu.control.vramStep.toUInt16 := by
  have hLt : address.toNat % 8 < 8 := Nat.mod_lt _ (by decide)
  unfold writeRegister Words.write
  generalize address.toNat % 8 = register at hLt ⊢
  interval_cases register
  case «0» => exact wordsOf_selectTable ppu.scroll ppu.raster value
  case «5» => exact wordsOf_writeScroll ppu.scroll ppu.raster value
  case «6» => exact wordsOf_writeAddress ppu.scroll ppu.raster value
  case «7» =>
    let written := (vramWrite { ppu with openBus := value } bus ppu.vramAddress value).1
    have hRaster : written.raster = ppu.raster :=
      (vramWrite_keeps { ppu with openBus := value } bus _ value).1
    obtain ⟨hScroll, hControl⟩ : written.scroll = ppu.scroll ∧ written.control = ppu.control :=
      vramWrite_scroll { ppu with openBus := value } bus _ value
    show wordsOf (written.scroll.increment written.control.vramStep) written.raster = _
    rw [hRaster, hScroll, hControl]
    exact wordsOf_increment ppu.scroll ppu.raster ppu.control
  all_goals rfl

theorem Call.outcome_words (call : Call β) : call.outcome.1.words = call.ppu.words.step call := by
  obtain ⟨ppu, bus, operation⟩ := call
  cases operation with
  | tick => exact ppu.tick_words bus
  | read address => exact ppu.readRegister_words bus address
  | write address value => exact ppu.writeRegister_words bus address value
  | takeNmi =>
    show ppu.takeNmi.2.words = ppu.words
    rw [takeNmi_eq]
    rfl
  | _ => rfl

/-- The words after a run are those that the calls leave one after another. -/
theorem performAll_words (state : Ppu × β) (operations : List (Operation β)) :
    (performAll state operations).1.words =
      (calls state operations).foldl Words.step state.1.words := by
  induction operations generalizing state with
  | nil => rfl
  | cons operation rest ih =>
    rw [performAll_cons, ih, calls, List.foldl_cons, Call.outcome_words]

end Famicom.Ppu
