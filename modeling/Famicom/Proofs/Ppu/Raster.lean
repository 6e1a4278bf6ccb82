import Famicom.Ppu.Raster

/-!
# Raster time

The beam as a number: `Raster.place` counts the dots of the frame before it and `Raster.clock`
those of all frames, each taken in full.  A move of the beam adds one to the clock, and one more
where the last dot of a frame is dropped.
-/

namespace Famicom.Ppu.Raster

def frameDots : Nat := 89342

def place (r : Raster) : Nat :=
  341 * r.scanline.val + r.dot.val

/-- Dots before the beam, every frame taken in full. -/
def clock (r : Raster) : Nat :=
  frameDots * r.frames + r.place

def vblankPlace : Nat := 82182

/-- How often vertical blank has begun: once in each frame behind the beam, and once more when
the beam is past its start. -/
def vblanks (r : Raster) : Nat :=
  r.frames + if vblankPlace ≤ r.place then 1 else 0

/-! ### Places -/

theorem scanline_lt (r : Raster) : r.scanline.val < 262 :=
  r.scanline.isLt

theorem dot_lt (r : Raster) : r.dot.val < 341 :=
  r.dot.isLt

theorem place_lt_frameDots (r : Raster) : r.place < frameDots := by
  have hLine := r.scanline_lt
  have hDot := r.dot_lt
  unfold place frameDots
  omega

theorem vblanks_bounds (r : Raster) :
    frameDots * r.vblanks ≤ r.clock + 7160 ∧ r.clock + 7160 < frameDots * (r.vblanks + 1) := by
  have hPlace := r.place_lt_frameDots
  unfold vblanks clock vblankPlace
  unfold frameDots at hPlace ⊢
  split <;> omega

theorem isAt_iff (r : Raster) {scanline dot : Nat} (h : dot < 341) :
    r.isAt scanline dot = true ↔ r.place = 341 * scanline + dot := by
  have hDot := r.dot_lt
  simp only [isAt, place, Bool.and_eq_true, beq_iff_eq]
  omega

theorem skipsDot_iff (r : Raster) (rendering : Bool) :
    r.skipsDot rendering = true ↔ r.odd = true ∧ rendering = true ∧ r.place = 89340 := by
  simp only [skipsDot, Bool.and_eq_true, r.isAt_iff (by decide : 339 < 341), and_assoc,
    preRenderLine]

/-! ### Moves -/

theorem nextLine_place (r : Raster) (h : r.scanline.val + 1 < 262) :
    r.nextLine.frames = r.frames ∧ r.nextLine.odd = r.odd ∧
      r.nextLine.place = 341 * (r.scanline.val + 1) := by
  have hLine : r.scanline.val + 1 < linesPerFrame := h
  have hNext : r.nextLine =
      { r with scanline := ⟨r.scanline.val + 1, hLine⟩, dot := ⟨0, by decide⟩ } := by
    simp [nextLine, hLine]
  rw [hNext]
  exact ⟨rfl, rfl, rfl⟩

theorem nextLine_last (r : Raster) (h : r.scanline.val = 261) :
    r.nextLine.frames = r.frames + 1 ∧ r.nextLine.odd = !r.odd ∧ r.nextLine.place = 0 := by
  have hLine : ¬r.scanline.val + 1 < linesPerFrame := by rw [h]; decide
  have hNext : r.nextLine = ⟨⟨0, by decide⟩, ⟨0, by decide⟩, r.frames + 1, !r.odd⟩ := by
    simp [nextLine, hLine]
  rw [hNext]
  exact ⟨rfl, rfl, rfl⟩

/-- All that a move can do: the next dot of the frame, or the first one of the next frame. -/
theorem advance_cases (r : Raster) (rendering : Bool) :
    (r.skipsDot rendering = false ∧ (r.advance rendering).frames = r.frames ∧
      (r.advance rendering).odd = r.odd ∧ (r.advance rendering).place = r.place + 1) ∨
    (r.place + 1 + (r.skipsDot rendering).toNat = frameDots ∧
      (r.advance rendering).frames = r.frames + 1 ∧
      (r.advance rendering).odd = !r.odd ∧ (r.advance rendering).place = 0) := by
  have hLine := r.scanline_lt
  have hDot := r.dot_lt
  cases hSkip : r.skipsDot rendering with
  | true =>
    have hPlace : r.place = 89340 := ((r.skipsDot_iff rendering).1 hSkip).2.2
    have hLast : r.scanline.val = 261 := by unfold place at hPlace; omega
    have hNext := r.nextLine_last hLast
    have hAdvance : r.advance rendering = r.nextLine := by simp [advance, hSkip]
    rw [hAdvance, hPlace]
    exact .inr ⟨rfl, hNext⟩
  | false =>
    by_cases hRoom : r.dot.val + 1 < 341
    · have hRoom' : r.dot.val + 1 < dotsPerLine := hRoom
      have hAdvance : r.advance rendering = { r with dot := ⟨r.dot.val + 1, hRoom'⟩ } := by
        simp [advance, hSkip, hRoom']
      rw [hAdvance]
      exact .inl ⟨rfl, rfl, rfl, rfl⟩
    · have hRoom' : ¬r.dot.val + 1 < dotsPerLine := hRoom
      have hAdvance : r.advance rendering = r.nextLine := by simp [advance, hSkip, hRoom']
      rw [hAdvance]
      by_cases hLast : r.scanline.val = 261
      · refine .inr ⟨?_, r.nextLine_last hLast⟩
        simp only [place, Bool.toNat_false, frameDots]
        omega
      · obtain ⟨hFrames, hOdd, hPlace⟩ := r.nextLine_place (by omega)
        refine .inl ⟨rfl, hFrames, hOdd, ?_⟩
        rw [hPlace]
        unfold place
        omega

theorem place_advance (r : Raster) (rendering : Bool) :
    (r.advance rendering).place = r.place + 1 ∨
      89340 ≤ r.place ∧ (r.advance rendering).place = 0 := by
  rcases r.advance_cases rendering with ⟨-, -, -, hPlace⟩ | ⟨hEnd, -, -, hPlace⟩
  · exact .inl hPlace
  · have hOne := Bool.toNat_le (r.skipsDot rendering)
    unfold frameDots at hEnd
    exact .inr ⟨by omega, hPlace⟩

theorem clock_advance (r : Raster) (rendering : Bool) :
    (r.advance rendering).clock = r.clock + 1 + (r.skipsDot rendering).toNat := by
  unfold clock
  rcases r.advance_cases rendering with ⟨hSkip, hFrames, -, hPlace⟩ | ⟨hEnd, hFrames, -, hPlace⟩
  · rw [hSkip, hFrames, hPlace, Bool.toNat_false]
    omega
  · rw [hFrames, hPlace]
    unfold frameDots at hEnd ⊢
    omega

theorem vblanks_advance (r : Raster) (rendering : Bool) :
    (r.advance rendering).vblanks =
      r.vblanks + ((r.advance rendering).isAt vblankLine 1).toNat := by
  have hAt : (r.advance rendering).isAt vblankLine 1 = true ↔
      (r.advance rendering).place = 82182 := (r.advance rendering).isAt_iff (by decide)
  have hPlace := r.place_lt_frameDots
  unfold vblanks vblankPlace
  rcases r.advance_cases rendering with ⟨-, hFrames, -, hNext⟩ | ⟨hEnd, hFrames, -, hNext⟩
  · rw [hFrames, hNext]
    rw [hNext] at hAt
    cases hFlag : (r.advance rendering).isAt vblankLine 1 with
    | true =>
      have hHere := hAt.1 hFlag
      rw [if_pos (by omega), if_neg (by omega), Bool.toNat_true]
    | false =>
      have hHere : r.place + 1 ≠ 82182 := fun h => by simp [hAt.2 h] at hFlag
      rw [Bool.toNat_false]
      split <;> split <;> omega
  · have hFlag : (r.advance rendering).isAt vblankLine 1 = false := by
      rw [hNext] at hAt
      exact Bool.eq_false_iff.2 fun h => by simpa using hAt.1 h
    have hLate : 82182 ≤ r.place := by
      have hOne := Bool.toNat_le (r.skipsDot rendering)
      unfold frameDots at hEnd
      omega
    rw [hFrames, hNext, hFlag, if_pos hLate, if_neg (by decide), Bool.toNat_false]

end Famicom.Ppu.Raster
