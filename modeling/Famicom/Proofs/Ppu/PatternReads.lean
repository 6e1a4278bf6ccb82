import Famicom.Proofs.Ppu.Dot
import Famicom.Proofs.Ppu.Plane

/-!
# Accesses to patterns

Ticks and register reads reach the cartridge through pattern reads alone, and a register write
makes one pattern write at most.  A board answers pattern reads without changing, so it is left
alone by ticks and register reads.
-/

namespace Famicom.Ppu

variable {β : Type} [PatternBus β]

/-! ### Lines -/

theorem reads_fetchTile (ppu : Ppu) (bus : β) (place : VramAddress) :
    Reads bus (ppu.fetchTile bus place).2 :=
  .read (.read .refl _) _

theorem reads_fetchTiles (ppu : Ppu) (start : VramAddress) (n : Nat) (bus : β) :
    Reads bus (ppu.fetchTiles start n bus).2.2 := by
  induction n with
  | zero => exact .refl
  | succ n ih => exact ih.trans (ppu.reads_fetchTile _ _)

theorem reads_fetchSprites (ppu : Ppu) (line : Nat) (found : List (Fin 64)) (bus : β) :
    Reads bus (ppu.fetchSprites line found bus).2 := by
  induction found generalizing bus with
  | nil => exact .refl
  | cons i rest ih =>
    have hSprite : Reads bus (ppu.fetchSprite bus line i).2 := .read (.read .refl _) _
    exact hSprite.trans (ih _)

theorem reads_fetchBackground (ppu : Ppu) (bus : β) : Reads bus (ppu.fetchBackground bus).2 := by
  have hTiles := ppu.reads_fetchTiles ppu.scroll.current 33 bus
  unfold fetchBackground
  split
  · -- The tiles stay closed: to open them would be to walk all of the line.
    generalize ppu.fetchTiles ppu.scroll.current 33 bus = fetched at hTiles ⊢
    exact hTiles
  · exact .refl

theorem reads_fetchLine (ppu : Ppu) (bus : β) (line : Nat) :
    Reads bus (ppu.fetchLine bus line).2 := by
  have hBackground := ppu.reads_fetchBackground bus
  simp only [fetchLine]
  split
  · exact hBackground.trans (ppu.reads_fetchSprites line _ _)
  · exact hBackground

/-! ### Ticks -/

theorem reads_visibleDot (ppu : Ppu) (bus : β) (y : Fin pictureHeight) :
    Reads bus (ppu.visibleDot bus y).2 := by
  by_cases hDot : ppu.raster.dot.val = renderDot
  · rw [ppu.visibleDot_render bus y hDot]
    exact ppu.reads_fetchLine bus y.val
  · rw [ppu.visibleDot_other bus y hDot]
    exact .refl

theorem reads_tick (ppu : Ppu) (bus : β) : Reads bus (ppu.tick bus).2.2 := by
  by_cases hVisible : ppu.moved.raster.scanline.val < pictureHeight
  · rw [ppu.tick_visible bus hVisible]
    exact ppu.moved.reads_visibleDot bus _
  · rw [ppu.tick_hidden bus hVisible]
    split
    · exact .refl
    · split <;> exact .refl

/-! ### Registers -/

theorem reads_vramRead (ppu : Ppu) (bus : β) (address : Nat) :
    Reads bus (ppu.vramRead bus address).2 := by
  unfold vramRead
  split
  · exact .read .refl _
  · split <;> exact .refl

theorem reads_readData (ppu : Ppu) (bus : β) : Reads bus (ppu.readData bus).2.2 := by
  unfold readData
  by_cases hPalette : 0x3F00 ≤ ppu.vramAddress
  · have hBelow := ppu.reads_vramRead bus (ppu.vramAddress - 0x1000)
    rw [if_pos hPalette]
    generalize ppu.vramRead bus (ppu.vramAddress - 0x1000) = answer at hBelow ⊢
    obtain ⟨below, next⟩ := answer
    exact hBelow
  · have hNext := ppu.reads_vramRead bus ppu.vramAddress
    rw [if_neg hPalette]
    generalize ppu.vramRead bus ppu.vramAddress = answer at hNext ⊢
    obtain ⟨value, next⟩ := answer
    exact hNext

theorem reads_readRegister (ppu : Ppu) (bus : β) (address : UInt16) :
    Reads bus (ppu.readRegister bus address).2.2 := by
  unfold readRegister
  split
  · exact .refl
  · exact .refl
  · exact ppu.reads_readData bus
  · exact .refl

/-- A register write leaves the cartridge alone or writes one byte of its patterns. -/
theorem writeRegister_bus (ppu : Ppu) (bus : β) (address : UInt16) (value : UInt8) :
    (ppu.writeRegister bus address value).2 = bus ∨
      ∃ place, (ppu.writeRegister bus address value).2 = PatternBus.write bus place value := by
  unfold writeRegister
  split
  case h_7 =>
    simp only [vramWrite]
    split
    · exact .inr ⟨_, rfl⟩
    · split <;> exact .inl rfl
  all_goals exact .inl rfl

/-! ### Boards -/

theorem tick_board (ppu : Ppu) (board : Board) : (ppu.tick board).2.2 = board :=
  eq_of_reads (ppu.reads_tick board)

theorem readRegister_board (ppu : Ppu) (board : Board) (address : UInt16) :
    (ppu.readRegister board address).2.2 = board :=
  eq_of_reads (ppu.reads_readRegister board address)

end Famicom.Ppu
