import Famicom.Proofs.Ppu.Raster

/-!
# Sweeps of the beam

A sweep is a list of places that the beam visits one after another.  What grows by one at certain
places, and nowhere else, counts these places in every sweep.  Dot 280 of the visible lines and of
the pre-render line is visited 241 times in each frame, and no sweep past one of them misses it:
the dot that a frame may drop comes later.
-/

namespace Famicom.Ppu.Raster

/-- The beam moves from the first place through the listed ones to the last. -/
def Sweeps (first : Raster) : List Raster → Raster → Prop
  | [], last => last = first
  | next :: rest, last => (∃ rendering, next = first.advance rendering) ∧ Sweeps next rest last

theorem Sweeps.append {first middle last : Raster} {before later : List Raster}
    (h : Sweeps first before middle) (h' : Sweeps middle later last) :
    Sweeps first (before ++ later) last := by
  induction before generalizing first with
  | nil =>
    obtain rfl : middle = first := h
    exact h'
  | cons next rest ih => exact ⟨h.1, ih h.2⟩

theorem Sweeps.countP (count : Raster → Nat) (here : Raster → Bool)
    (hMove : ∀ (r : Raster) (rendering : Bool),
      count (r.advance rendering) = count r + (here (r.advance rendering)).toNat)
    {first last : Raster} {visited : List Raster} (h : Sweeps first visited last) :
    count first + visited.countP here = count last := by
  induction visited generalizing first with
  | nil =>
    obtain rfl : last = first := h
    rfl
  | cons next rest ih =>
    obtain ⟨⟨rendering, rfl⟩, hRest⟩ := h
    rw [← ih hRest, hMove, List.countP_cons]
    cases here (first.advance rendering) with
    | false => rfl
    | true =>
      simp only [Bool.toNat_true, ↓reduceIte]
      omega

/-! ### Lines -/

/-- The beam is on dot 280 of a visible line or of the pre-render line. -/
def onLineDot (r : Raster) : Bool :=
  r.dot.val == 280 && (decide (r.scanline.val < 240) || r.scanline.val == 261)

/-- How often the beam has been there, from the first frame on. -/
def lines (r : Raster) : Nat :=
  241 * r.frames + (min 240 ((r.place + 61) / 341) + if 89281 ≤ r.place then 1 else 0)

theorem lines_bounds (r : Raster) :
    241 * r.frames ≤ r.lines ∧ r.lines ≤ 241 * (r.frames + 1) := by
  unfold lines
  split <;> omega

theorem onLineDot_iff (r : Raster) :
    r.onLineDot = true ↔ r.dot.val = 280 ∧ (r.scanline.val < 240 ∨ r.scanline.val = 261) := by
  simp [onLineDot]

theorem lt_lines (r : Raster) (h : r.onLineDot = true) : 241 * r.frames < r.lines := by
  have hDot := (r.onLineDot_iff.1 h).1
  have hPlace : 280 ≤ r.place := by
    unfold place
    omega
  unfold lines
  omega

theorem lines_advance (r : Raster) (rendering : Bool) :
    (r.advance rendering).lines = r.lines + (r.advance rendering).onLineDot.toNat := by
  have hHere := (r.advance rendering).onLineDot_iff
  have hDot := (r.advance rendering).dot_lt
  have hPlace : (r.advance rendering).place =
      341 * (r.advance rendering).scanline.val + (r.advance rendering).dot.val := rfl
  have hEnd := r.place_lt_frameDots
  unfold lines
  rcases r.advance_cases rendering with ⟨-, hFrames, -, hNext⟩ | ⟨hLast, hFrames, -, hNext⟩
  · rw [hFrames, hNext]
    rw [hNext] at hPlace
    cases hFlag : (r.advance rendering).onLineDot with
    | true =>
      obtain ⟨hColumn, hLine⟩ := hHere.1 hFlag
      rw [Bool.toNat_true]
      split <;> split <;> omega
    | false =>
      have hNot : ¬((r.advance rendering).dot.val = 280 ∧
          ((r.advance rendering).scanline.val < 240 ∨ (r.advance rendering).scanline.val = 261)) :=
        fun h => by simp [hHere.2 h] at hFlag
      rw [Bool.toNat_false]
      unfold frameDots at hEnd
      split <;> split <;> omega
  · -- the first dot of a frame: all lines of the frame before it have been counted
    have hFlag : (r.advance rendering).onLineDot = false := by
      refine Bool.eq_false_iff.2 fun h => ?_
      have hColumn := (hHere.1 h).1
      omega
    have hOne := Bool.toNat_le (r.skipsDot rendering)
    unfold frameDots at hLast
    rw [hFrames, hNext, hFlag, Bool.toNat_false, if_neg (by decide), if_pos (by omega)]
    omega

/-- The clock tells on which visible line the beam was there last. -/
theorem le_lines_iff (r : Raster) (frame : Nat) {n : Nat} (hPos : 1 ≤ n) (hLast : n ≤ 240) :
    241 * frame + n ≤ r.lines ↔ 89342 * frame + (341 * (n - 1) + 280) ≤ r.clock := by
  have hPlace := r.place_lt_frameDots
  unfold lines clock
  unfold frameDots at hPlace ⊢
  split <;> omega

theorem lines_of_blank {r : Raster} (hFirst : 240 ≤ r.scanline.val) (hLast : r.scanline.val ≤ 260) :
    r.lines = 241 * r.frames + 240 := by
  have hDot := r.dot_lt
  unfold lines place
  split <;> omega

/-- How often the beam has been there in one frame. -/
def linesIn (frame : Nat) (r : Raster) : Nat :=
  min (r.lines - 241 * frame) 241

theorem linesIn_advance (frame : Nat) (r : Raster) (rendering : Bool) :
    (r.advance rendering).linesIn frame = r.linesIn frame +
      ((r.advance rendering).onLineDot && (r.advance rendering).frames == frame).toNat := by
  have hLines := r.lines_advance rendering
  have hBounds := (r.advance rendering).lines_bounds
  unfold linesIn
  cases hFlag : (r.advance rendering).onLineDot with
  | false =>
    rw [hFlag, Bool.toNat_false, Nat.add_zero] at hLines
    rw [Bool.false_and, Bool.toNat_false, hLines, Nat.add_zero]
  | true =>
    have hSome := (r.advance rendering).lt_lines hFlag
    rw [hFlag, Bool.toNat_true] at hLines
    rw [Bool.true_and]
    by_cases hFrame : (r.advance rendering).frames = frame
    · rw [beq_iff_eq.2 hFrame, Bool.toNat_true]
      omega
    · rw [beq_eq_false_iff_ne.2 hFrame, Bool.toNat_false]
      omega

theorem Sweeps.countP_frame {first last : Raster} {visited : List Raster}
    (h : Sweeps first visited last) {frame : Nat} (hFirst : first.clock ≤ 89342 * frame)
    (hLast : 89342 * (frame + 1) ≤ last.clock) :
    visited.countP (fun r => r.onLineDot && r.frames == frame) = 241 := by
  have hCount := h.countP (linesIn frame) (fun r => r.onLineDot && r.frames == frame)
    (linesIn_advance frame)
  have hBefore : first.linesIn frame = 0 := by
    unfold linesIn lines
    unfold clock frameDots at hFirst
    split <;> omega
  have hAfter : last.linesIn frame = 241 := by
    have hPlace := last.place_lt_frameDots
    have hBounds := last.lines_bounds
    unfold linesIn
    unfold clock at hLast
    unfold frameDots at hLast hPlace
    omega
  omega

theorem Sweeps.clock_le {first last : Raster} {visited : List Raster}
    (h : Sweeps first visited last) :
    first.clock ≤ last.clock ∧ ∀ r ∈ visited, first.clock ≤ r.clock ∧ r.clock ≤ last.clock := by
  induction visited generalizing first with
  | nil =>
    obtain rfl : last = first := h
    exact ⟨Nat.le_refl _, nofun⟩
  | cons next rest ih =>
    obtain ⟨⟨rendering, rfl⟩, hRest⟩ := h
    have hMove := first.clock_advance rendering
    obtain ⟨hWhole, hParts⟩ := ih hRest
    refine ⟨by omega, List.forall_mem_cons.2 ⟨by omega, fun r hr => ?_⟩⟩
    have hPart := hParts r hr
    omega

theorem Sweeps.length_le {first last : Raster} {visited : List Raster}
    (h : Sweeps first visited last) : first.clock + visited.length ≤ last.clock := by
  induction visited generalizing first with
  | nil =>
    obtain rfl : last = first := h
    exact Nat.le_refl _
  | cons next rest ih =>
    obtain ⟨⟨rendering, rfl⟩, hRest⟩ := h
    have hMove := first.clock_advance rendering
    have hLength := ih hRest
    rw [List.length_cons]
    omega

theorem Sweeps.exists_at {first last : Raster} {visited : List Raster}
    (h : Sweeps first visited last) {frame place : Nat} (hPos : 0 < place)
    (hPlace : place < 89340) (hFirst : first.clock < 89342 * frame + place)
    (hLast : 89342 * frame + place ≤ last.clock) :
    ∃ before r later, visited = before ++ r :: later ∧ r.frames = frame ∧ r.place = place ∧
      ∀ e ∈ before, e.clock < 89342 * frame + place := by
  induction visited generalizing first with
  | nil =>
    obtain rfl : last = first := h
    omega
  | cons next rest ih =>
    obtain ⟨⟨rendering, rfl⟩, hRest⟩ := h
    by_cases hEarly : (first.advance rendering).clock < 89342 * frame + place
    · obtain ⟨before, r, later, hSplit, hFrame, hThere, hBefore⟩ := ih hRest hEarly
      exact ⟨_ :: before, r, later, congrArg _ hSplit, hFrame, hThere,
        List.forall_mem_cons.2 ⟨hEarly, hBefore⟩⟩
    · have hThere : (first.advance rendering).frames = frame ∧
          (first.advance rendering).place = place := by
        have hHere := first.place_lt_frameDots
        unfold clock at hFirst hEarly
        unfold frameDots at hFirst hEarly hHere
        rcases first.advance_cases rendering with
          ⟨-, hFrames, -, hNext⟩ | ⟨hEnd, hFrames, -, hNext⟩
        · rw [hFrames, hNext] at hEarly
          omega
        · have hOne := Bool.toNat_le (first.skipsDot rendering)
          unfold frameDots at hEnd
          rw [hFrames, hNext] at hEarly
          omega
      exact ⟨[], _, rest, rfl, hThere.1, hThere.2, nofun⟩

end Famicom.Ppu.Raster
