import Famicom.Proofs.Ppu.Dot

/-!
# The count of frames

The beam counts the frames behind it, and nothing reads the count: a picture processor with more
frames behind it answers every access and every dot in the same way, and the difference of the
counts stays.
-/

namespace Famicom.Ppu

def Raster.recount (k : Nat) (r : Raster) : Raster :=
  { r with frames := k + r.frames }

/-- The picture processor with `k` more frames behind its beam. -/
def recount (k : Nat) (ppu : Ppu) : Ppu :=
  { ppu with raster := ppu.raster.recount k }

theorem Raster.nextLine_recount (k : Nat) (r : Raster) :
    (r.recount k).nextLine = r.nextLine.recount k := by
  by_cases hLine : r.scanline.val + 1 < linesPerFrame
  · simp only [nextLine, recount, hLine, ↓reduceDIte]
  · simp only [nextLine, recount, hLine, ↓reduceDIte]
    rfl

theorem Raster.advance_recount (k : Nat) (r : Raster) (rendering : Bool) :
    (r.recount k).advance rendering = (r.advance rendering).recount k := by
  have hSkip : (r.recount k).skipsDot rendering = r.skipsDot rendering := rfl
  unfold advance
  rw [hSkip, r.nextLine_recount k]
  split
  · rfl
  · by_cases hDot : r.dot.val + 1 < dotsPerLine
    · simp only [recount, hDot, ↓reduceDIte]
    · simp only [recount, hDot, ↓reduceDIte]

variable {β : Type} [PatternBus β] (k : Nat) (ppu : Ppu) (bus : β)

/-! ### Registers -/

theorem readData_recount :
    (ppu.recount k).readData bus =
      ((ppu.readData bus).1, (ppu.readData bus).2.1.recount k, (ppu.readData bus).2.2) := by
  have hAddress : (ppu.recount k).vramAddress = ppu.vramAddress := rfl
  have hRead (address : Nat) : (ppu.recount k).vramRead bus address = ppu.vramRead bus address :=
    rfl
  unfold readData
  rw [hAddress]
  by_cases hPalette : 0x3F00 ≤ ppu.vramAddress
  · rw [if_pos hPalette, if_pos hPalette, hRead]
    cases ppu.vramRead bus (ppu.vramAddress - 0x1000)
    rfl
  · rw [if_neg hPalette, if_neg hPalette, hRead]
    cases ppu.vramRead bus ppu.vramAddress
    rfl

theorem readRegister_recount (address : UInt16) :
    (ppu.recount k).readRegister bus address =
      ((ppu.readRegister bus address).1, (ppu.readRegister bus address).2.1.recount k,
        (ppu.readRegister bus address).2.2) := by
  unfold readRegister
  split
  · rfl
  · rfl
  · rw [readData_recount]
    rfl
  · rfl

theorem vramWrite_recount (address : Nat) (value : UInt8) :
    (ppu.recount k).vramWrite bus address value =
      ((ppu.vramWrite bus address value).1.recount k, (ppu.vramWrite bus address value).2) := by
  unfold vramWrite
  split
  · rfl
  · split <;> rfl

theorem writeRegister_recount (address : UInt16) (value : UInt8) :
    (ppu.recount k).writeRegister bus address value =
      ((ppu.writeRegister bus address value).1.recount k,
        (ppu.writeRegister bus address value).2) := by
  unfold writeRegister
  split
  case h_7 =>
    have hWrite := vramWrite_recount k { ppu with openBus := value } bus ppu.vramAddress value
    exact congrArg (fun written : Ppu × β => (written.1.stepAddress, written.2)) hWrite
  all_goals rfl

/-! ### Lines -/

theorem fetchTiles_recount (start : VramAddress) (n : Nat) :
    (ppu.recount k).fetchTiles start n bus = ppu.fetchTiles start n bus := by
  induction n with
  | zero => rfl
  | succ n ih =>
    rw [fetchTiles, fetchTiles, ih]
    rfl

theorem fetchSprites_recount (line : Nat) (found : List (Fin 64)) :
    (ppu.recount k).fetchSprites line found bus = ppu.fetchSprites line found bus := by
  induction found generalizing bus with
  | nil => rfl
  | cons i rest ih =>
    have hSprite : (ppu.recount k).fetchSprite bus line i = ppu.fetchSprite bus line i := rfl
    rw [fetchSprites, fetchSprites, hSprite]
    dsimp only
    rw [ih]

theorem fetchBackground_recount :
    (ppu.recount k).fetchBackground bus = ppu.fetchBackground bus := by
  have hMask : (ppu.recount k).mask = ppu.mask := rfl
  have hScroll : (ppu.recount k).scroll = ppu.scroll := rfl
  rw [fetchBackground, hMask, hScroll, fetchTiles_recount, fetchBackground]

theorem fetchLine_recount (line : Nat) :
    (ppu.recount k).fetchLine bus line = ppu.fetchLine bus line := by
  have hMask : (ppu.recount k).mask = ppu.mask := rfl
  have hFound : (ppu.recount k).spritesOnLine line = ppu.spritesOnLine line := rfl
  unfold fetchLine
  rw [fetchBackground_recount, hMask, hFound]
  dsimp only
  rw [fetchSprites_recount]

theorem renderLine_recount (y : Fin pictureHeight) :
    (ppu.recount k).renderLine bus y =
      ((ppu.renderLine bus y).1.recount k, (ppu.renderLine bus y).2) := by
  unfold renderLine
  rw [fetchLine_recount]
  -- What was fetched stays closed: both compose the same line from it.
  generalize ppu.fetchLine bus y.val = fetched
  obtain ⟨line, next⟩ := fetched
  have hPixels : (ppu.recount k).composeLine line = ppu.composeLine line := rfl
  have hZero : (ppu.recount k).spriteZeroHit line = ppu.spriteZeroHit line := rfl
  have hPicture : (ppu.recount k).picture = ppu.picture := rfl
  dsimp only
  rw [hPixels, hZero, hPicture]
  generalize putLine ppu.picture y (ppu.composeLine line) = picture
  rfl

/-! ### Dots -/

theorem visibleDot_recount (y : Fin pictureHeight) :
    (ppu.recount k).visibleDot bus y =
      ((ppu.visibleDot bus y).1.recount k, (ppu.visibleDot bus y).2) := by
  by_cases hDot : ppu.raster.dot.val = renderDot
  · have hRender : (ppu.recount k).raster.dot.val = renderDot := hDot
    rw [visibleDot_render _ bus y hRender, visibleDot_render _ bus y hDot]
    unfold rendered
    rw [renderLine_recount]
    rfl
  · have hOther : (ppu.recount k).raster.dot.val ≠ renderDot := hDot
    rw [visibleDot_other _ bus y hOther, visibleDot_other _ bus y hDot]
    rfl

theorem preRenderDot_recount : (ppu.recount k).preRenderDot = ppu.preRenderDot.recount k := by
  have hDot : (ppu.recount k).raster.dot = ppu.raster.dot := rfl
  have hMask : (ppu.recount k).mask = ppu.mask := rfl
  unfold preRenderDot
  rw [hDot, hMask]
  dsimp only
  split
  · rfl
  · split
    · rfl
    · split
      · rfl
      · split <;> rfl

theorem tick_recount :
    (ppu.recount k).tick bus =
      ((ppu.tick bus).1, (ppu.tick bus).2.1.recount k, (ppu.tick bus).2.2) := by
  have hMoved : (ppu.recount k).moved = ppu.moved.recount k := by
    simp only [moved, recount, Raster.advance_recount]
  have hLine : (ppu.moved.recount k).raster.scanline = ppu.moved.raster.scanline := rfl
  by_cases hVisible : ppu.moved.raster.scanline.val < pictureHeight
  · have hHere : (ppu.recount k).moved.raster.scanline.val < pictureHeight := by
      rw [hMoved]
      exact hVisible
    rw [tick_visible _ bus hHere, tick_visible _ bus hVisible]
    simp only [hMoved]
    rw [visibleDot_recount]
    rfl
  · have hHere : ¬(ppu.recount k).moved.raster.scanline.val < pictureHeight := by
      rw [hMoved]
      exact hVisible
    have hAt : (ppu.moved.recount k).raster.isAt vblankLine 1 =
        ppu.moved.raster.isAt vblankLine 1 := rfl
    rw [tick_hidden _ bus hHere, tick_hidden _ bus hVisible, hMoved, hAt, hLine,
      preRenderDot_recount]
    split
    · rfl
    · split <;> rfl

end Famicom.Ppu
