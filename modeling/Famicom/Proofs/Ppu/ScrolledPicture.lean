import Famicom.Proofs.Ppu.Dot
import Famicom.Proofs.Ppu.Plane

/-!
# The scrolled picture

With nametable and scroll position set between two pictures, and no access after that, the next
picture shows the part of the plane that begins at the scroll position.  The beam carries the
invariant: past the copies on the pre-render line the address in use is the prepared one, and on
a visible line it has moved down by the lines composed so far, all of which show the plane.
-/

namespace Famicom.Ppu

variable {β : Type} [PatternBus β]

/-! ### Pictures -/

def pointAt (picture : Picture) (x : Fin pictureWidth) (y : Fin pictureHeight) : UInt32 :=
  picture.get ⟨y.val * pictureWidth + x.val, Frame.index_lt x.isLt y.isLt⟩

theorem pixel?_frame (ppu : Ppu) (x : Fin pictureWidth) (y : Fin pictureHeight) :
    ppu.frame.pixel? x.val y.val = some (pointAt ppu.picture x y) :=
  dif_pos ⟨x.isLt, y.isLt⟩

theorem pointAt_set (picture : Picture) (x column : Fin pictureWidth) (y row : Fin pictureHeight)
    (colour : UInt32) :
    pointAt (picture.set (y.val * pictureWidth + column.val) colour
      (Frame.index_lt column.isLt y.isLt)) x row =
      if row = y ∧ x = column then colour else pointAt picture x row := by
  have hx : x.val < 256 := x.isLt
  have hColumn : column.val < 256 := column.isLt
  have hSame : y.val * pictureWidth + column.val = row.val * pictureWidth + x.val ↔
      row = y ∧ x = column := by
    simp only [Fin.ext_iff, pictureWidth]
    omega
  simp only [← hSame]
  exact Vector.getElem_set (Frame.index_lt column.isLt y.isLt) (Frame.index_lt x.isLt row.isLt)

section PutLine

variable (picture : Picture) (y : Fin pictureHeight) (line : Vector UInt32 pictureWidth)
  (x : Fin pictureWidth)

/-- Points of a line that were put, or were there before, are there. -/
theorem pointAt_foldl_set (columns : List (Fin pictureWidth))
    (h : pointAt picture x y = line.get x ∨ x ∈ columns) :
    pointAt (columns.foldl (fun picture column =>
      picture.set (y.val * pictureWidth + column.val) (line.get column)
        (Frame.index_lt column.isLt y.isLt)) picture) x y = line.get x := by
  induction columns generalizing picture with
  | nil =>
    rcases h with hThere | hMem
    · exact hThere
    · cases hMem
  | cons column rest ih =>
    rw [List.foldl_cons]
    refine ih _ ?_
    rw [pointAt_set]
    by_cases hHere : x = column
    · rw [if_pos ⟨rfl, hHere⟩, hHere]
      exact .inl rfl
    · rw [if_neg fun hBoth => hHere hBoth.2]
      rcases h with hThere | hMem
      · exact .inl hThere
      · exact .inr (List.mem_of_ne_of_mem hHere hMem)

theorem pointAt_foldl_set_of_ne {row : Fin pictureHeight} (h : row ≠ y)
    (columns : List (Fin pictureWidth)) :
    pointAt (columns.foldl (fun picture column =>
      picture.set (y.val * pictureWidth + column.val) (line.get column)
        (Frame.index_lt column.isLt y.isLt)) picture) x row = pointAt picture x row := by
  induction columns generalizing picture with
  | nil => rfl
  | cons column rest ih => rw [List.foldl_cons, ih, pointAt_set, if_neg fun hBoth => h hBoth.1]

theorem pointAt_putLine : pointAt (putLine picture y line) x y = line.get x := by
  rw [putLine, Fin.foldl_eq_finRange_foldl]
  exact pointAt_foldl_set picture y line x _ (.inr (List.mem_finRange x))

theorem pointAt_putLine_of_ne {row : Fin pictureHeight} (h : row ≠ y) :
    pointAt (putLine picture y line) x row = pointAt picture x row := by
  rw [putLine, Fin.foldl_eq_finRange_foldl]
  exact pointAt_foldl_set_of_ne picture y line x h _

end PutLine

/-! ### Ticks -/

def ticked (ppu : Ppu) (bus : β) : Nat → Ppu × β
  | 0 => (ppu, bus)
  | n + 1 => (ppu.tick bus).2.1.ticked (ppu.tick bus).2.2 n

theorem renderLine_picture (ppu : Ppu) (bus : β) (y : Fin pictureHeight) :
    (ppu.renderLine bus y).1.picture =
        putLine ppu.picture y (ppu.composeLine (ppu.fetchLine bus y.val).1) ∧
      (ppu.renderLine bus y).2 = (ppu.fetchLine bus y.val).2 := by
  unfold renderLine
  generalize ppu.fetchLine bus y.val = fetched
  obtain ⟨line, bus'⟩ := fetched
  dsimp only
  exact ⟨rfl, rfl⟩

/-- A tick that arrives at the end of a visible line composes it and moves to the next row. -/
theorem tick_render (ppu : Ppu) (bus : β) (hMask : ppu.mask.PlainBackground)
    (hLine : ppu.moved.raster.scanline.val < pictureHeight)
    (hDot : ppu.moved.raster.dot.val = renderDot) :
    let y : Fin pictureHeight := ⟨ppu.moved.raster.scanline.val, hLine⟩
    let line := ppu.moved.fetchLine bus y.val
    (ppu.tick bus).2.1.picture = putLine ppu.picture y (ppu.moved.composeLine line.1) ∧
      (ppu.tick bus).2.1.scroll.current = ppu.scroll.current.nextRow ∧
      (ppu.tick bus).2.2 = line.2 := by
  intro y line
  have hOn : ppu.moved.mask.rendering = true := hMask.rendering
  obtain ⟨hPicture, hBus⟩ := ppu.moved.renderLine_picture bus y
  rw [ppu.tick_visible bus hLine, ppu.moved.visibleDot_render bus y hDot, hOn, if_pos rfl]
  dsimp only [rendered]
  exact ⟨hPicture, rfl, hBus⟩

theorem tick_line (ppu : Ppu) (bus : β) (hMask : ppu.mask.PlainBackground)
    (hLine : ppu.moved.raster.scanline.val < pictureHeight)
    (hDot : ppu.moved.raster.dot.val ≠ renderDot) :
    (ppu.tick bus).2.1.picture = ppu.picture ∧
      (ppu.tick bus).2.1.scroll.current =
        (if ppu.moved.raster.dot.val = 257 then
          ppu.scroll.current.withColumnOf ppu.scroll.pending else ppu.scroll.current) ∧
      (ppu.tick bus).2.2 = bus := by
  have hOn : ppu.moved.mask.rendering = true := hMask.rendering
  rw [ppu.tick_visible bus hLine, ppu.moved.visibleDot_other bus _ hDot, hOn, Bool.and_true]
  refine ⟨rfl, ?_, rfl⟩
  by_cases hCopy : ppu.moved.raster.dot.val = 257
  · simp only [hCopy, decide_true, ↓reduceIte]
    rfl
  · simp only [hCopy, decide_false, ↓reduceIte, Bool.false_eq_true]
    rfl

theorem preRenderDot_current (ppu : Ppu) (hOn : ppu.mask.rendering = true) :
    ppu.preRenderDot.picture = ppu.picture ∧
      ppu.preRenderDot.scroll.current =
        if ppu.raster.dot.val = 257 then ppu.scroll.current.withColumnOf ppu.scroll.pending
        else if 280 ≤ ppu.raster.dot.val ∧ ppu.raster.dot.val ≤ 304 then
          ppu.scroll.current.withRowOf ppu.scroll.pending
        else ppu.scroll.current := by
  simp only [preRenderDot, hOn, Bool.not_true, Bool.false_eq_true, ↓reduceIte]
  split
  · rename_i hFirst
    rw [hFirst]
    exact ⟨rfl, rfl⟩
  · split
    · exact ⟨rfl, rfl⟩
    · split <;> exact ⟨rfl, rfl⟩

theorem tick_blank (ppu : Ppu) (bus : β) (hMask : ppu.mask.PlainBackground)
    (hLine : ¬ppu.moved.raster.scanline.val < pictureHeight) :
    (ppu.tick bus).2.1.picture = ppu.picture ∧
      (ppu.tick bus).2.1.scroll.current =
        (if ppu.moved.raster.place = 89258 then
          ppu.scroll.current.withColumnOf ppu.scroll.pending
        else if 89281 ≤ ppu.moved.raster.place ∧ ppu.moved.raster.place ≤ 89305 then
          ppu.scroll.current.withRowOf ppu.scroll.pending
        else ppu.scroll.current) ∧
      (ppu.tick bus).2.2 = bus := by
  have hOn : ppu.moved.mask.rendering = true := hMask.rendering
  have hPlace : ppu.moved.raster.place =
    341 * ppu.moved.raster.scanline.val + ppu.moved.raster.dot.val := rfl
  have hDotLt := ppu.moved.raster.dot_lt
  have hLineLt := ppu.moved.raster.scanline_lt
  rw [ppu.tick_hidden bus hLine]
  by_cases hStart : ppu.moved.raster.isAt vblankLine 1 = true
  · have hEarly : ppu.moved.raster.place = 82182 := (Raster.isAt_iff _ (by decide)).1 hStart
    rw [if_pos hStart, if_neg (by omega), if_neg (by omega)]
    exact ⟨rfl, rfl, rfl⟩
  · rw [if_neg hStart]
    by_cases hPre : ppu.moved.raster.scanline.val = preRenderLine
    · rw [if_pos hPre]
      unfold preRenderLine at hPre
      obtain ⟨hPicture, hCurrent⟩ := ppu.moved.preRenderDot_current hOn
      have hColumn : ppu.moved.raster.place = 89258 ↔ ppu.moved.raster.dot.val = 257 := by omega
      have hRow : 89281 ≤ ppu.moved.raster.place ∧ ppu.moved.raster.place ≤ 89305 ↔
        280 ≤ ppu.moved.raster.dot.val ∧ ppu.moved.raster.dot.val ≤ 304 := by omega
      refine ⟨hPicture, ?_, rfl⟩
      simp only [hColumn, hRow]
      exact hCurrent
    · rw [if_neg hPre]
      unfold preRenderLine at hPre
      rw [if_neg (by omega), if_neg (by omega)]
      exact ⟨rfl, rfl, rfl⟩

/-! ### The picture while it is drawn -/

theorem moved_place (ppu : Ppu) : ppu.moved.raster.place = ppu.raster.place + 1 ∨
    89340 ≤ ppu.raster.place ∧ ppu.moved.raster.place = 0 :=
  ppu.raster.place_advance ppu.mask.rendering

theorem Raster.place_eq (r : Raster) : r.place = 341 * r.scanline.val + r.dot.val :=
  rfl

/-- The visible lines of the frame that the beam is through with. -/
def Raster.linesDone (r : Raster) : Nat :=
  if r.dot.val < renderDot then r.scanline.val else r.scanline.val + 1

theorem Raster.linesDone_top {r : Raster} (h : r.place = 0) : r.linesDone = 0 := by
  have hPlace := r.place_eq
  unfold linesDone renderDot
  split <;> omega

theorem linesDone_moved (ppu : Ppu) (hLine : ppu.moved.raster.scanline.val < pictureHeight)
    (hDot : ppu.moved.raster.dot.val ≠ renderDot)
    (hNext : ppu.moved.raster.place = ppu.raster.place + 1) :
    ppu.raster.scanline.val < pictureHeight ∧
      ppu.moved.raster.linesDone = ppu.raster.linesDone := by
  have hBefore := ppu.raster.place_eq
  have hAfter := ppu.moved.raster.place_eq
  have hDotLt := ppu.raster.dot_lt
  have hDotLt' := ppu.moved.raster.dot_lt
  unfold Raster.linesDone
  unfold pictureHeight renderDot at *
  refine ⟨by omega, ?_⟩
  split <;> split <;> omega

theorem plane_of_sameSetup {a b : Ppu} (h : SameSetup a b) (pattern : UInt16 → UInt8)
    (mirroring : Mirroring) : b.plane pattern mirroring = a.plane pattern mirroring := by
  simp only [plane, h.nametables, h.palette, h.control]

/-- The picture processor draws the part of the plane that begins at a point, from what was
prepared: past the copies on the pre-render line the address in use is the prepared one, and the
visible lines done show the plane. -/
structure Drawing (base : Ppu) (pattern : UInt16 → UInt8) (mirroring : Mirroring) (x y : Nat)
    (ppu : Ppu) (bus : β) : Prop where
  setup : SameSetup base ppu
  steady : Steady bus pattern mirroring
  column : 89258 ≤ ppu.raster.place →
    ppu.scroll.current.coarseX = base.scroll.pending.coarseX ∧
      ppu.scroll.current.tableX = base.scroll.pending.tableX
  row : 89281 ≤ ppu.raster.place →
    ppu.scroll.current.coarseY = base.scroll.pending.coarseY ∧
      ppu.scroll.current.tableY = base.scroll.pending.tableY ∧
      ppu.scroll.current.fineY = base.scroll.pending.fineY
  aimed : ppu.raster.scanline.val < pictureHeight →
    Aimed ppu.scroll.current x ((y + ppu.raster.linesDone) % 480)
  drawn : ppu.raster.scanline.val < pictureHeight →
    ∀ (i : Fin pictureWidth) (j : Fin pictureHeight), j.val < ppu.raster.linesDone →
      pointAt ppu.picture i j = (base.plane pattern mirroring).colour
        (.ofNat 512 (x + base.scroll.fineX.val + i.val)) (.ofNat 480 (y + j.val))

namespace Drawing

variable {base ppu : Ppu} {bus : β} {pattern : UInt16 → UInt8} {mirroring : Mirroring} {x y : Nat}

theorem start (hBus : Steady bus pattern mirroring) (hAbove : 81840 ≤ base.raster.place)
    (hBelow : base.raster.place ≤ 89257) : Drawing base pattern mirroring x y base bus := by
  have hDot := base.raster.dot_lt
  have hPlace := base.raster.place_eq
  have hHidden : ¬base.raster.scanline.val < pictureHeight := by
    unfold pictureHeight
    omega
  refine ⟨.refl base, hBus, ?_, ?_, fun h => absurd h hHidden, fun h => absurd h hHidden⟩
  · intro hLate
    omega
  · intro hLate
    omega

theorem of_line (hSetup : SameSetup base ppu) (hBus : Steady bus pattern mirroring)
    (hLine : ppu.raster.scanline.val < pictureHeight)
    (hAim : Aimed ppu.scroll.current x ((y + ppu.raster.linesDone) % 480))
    (hDrawn : ∀ (i : Fin pictureWidth) (j : Fin pictureHeight), j.val < ppu.raster.linesDone →
      pointAt ppu.picture i j = (base.plane pattern mirroring).colour
        (.ofNat 512 (x + base.scroll.fineX.val + i.val)) (.ofNat 480 (y + j.val))) :
    Drawing base pattern mirroring x y ppu bus := by
  have hPlace := ppu.raster.place_eq
  have hDot := ppu.raster.dot_lt
  have hLow : ppu.raster.scanline.val < 240 := hLine
  refine ⟨hSetup, hBus, ?_, ?_, fun _ => hAim, fun _ => hDrawn⟩
  · intro hLate
    omega
  · intro hLate
    omega

theorem plain (h : Drawing base pattern mirroring x y ppu bus)
    (hMask : base.mask.PlainBackground) : ppu.mask.PlainBackground := by
  rw [h.setup.mask]
  exact hMask

theorem tick_blank (h : Drawing base pattern mirroring x y ppu bus)
    (hMask : base.mask.PlainBackground)
    (hLine : ¬ppu.moved.raster.scanline.val < pictureHeight) :
    Drawing base pattern mirroring x y (ppu.tick bus).2.1 (ppu.tick bus).2.2 := by
  have hTicked := ppu.tick_ticked bus
  have hRaster : (ppu.tick bus).2.1.raster = ppu.moved.raster := hTicked.raster
  obtain ⟨-, hCurrent, hBus⟩ := ppu.tick_blank bus (h.plain hMask) hLine
  have hBefore := ppu.raster.place_eq
  have hAfter := ppu.moved.raster.place_eq
  have hNext : ppu.moved.raster.place = ppu.raster.place + 1 := by
    have hPlace := ppu.moved_place
    unfold pictureHeight at hLine
    omega
  refine ⟨h.setup.trans hTicked.setup, ?_, ?_, ?_, ?_, ?_⟩
  · rw [hBus]
    exact h.steady
  · rw [hRaster, hCurrent, h.setup.pending]
    intro hLate
    split
    · exact ⟨rfl, rfl⟩
    · split
      · exact h.column (by omega)
      · exact h.column (by omega)
  · rw [hRaster, hCurrent, h.setup.pending]
    intro hLate
    rw [if_neg (by omega)]
    split
    · exact ⟨rfl, rfl, rfl⟩
    · exact h.row (by omega)
  · rw [hRaster]
    exact fun hVisible => absurd hVisible hLine
  · rw [hRaster]
    exact fun hVisible => absurd hVisible hLine

theorem tick_render (h : Drawing base pattern mirroring x y ppu bus)
    (hMask : base.mask.PlainBackground)
    (hLine : ppu.moved.raster.scanline.val < pictureHeight)
    (hDot : ppu.moved.raster.dot.val = renderDot) :
    Drawing base pattern mirroring x y (ppu.tick bus).2.1 (ppu.tick bus).2.2 := by
  have hTicked := ppu.tick_ticked bus
  have hRaster : (ppu.tick bus).2.1.raster = ppu.moved.raster := hTicked.raster
  obtain ⟨hPicture, hCurrent, hBus⟩ := ppu.tick_render bus (h.plain hMask) hLine hDot
  have hBefore := ppu.raster.place_eq
  have hAfter := ppu.moved.raster.place_eq
  have hDotLt := ppu.raster.dot_lt
  have hPlace := ppu.moved_place
  have hSame : ppu.raster.scanline.val = ppu.moved.raster.scanline.val ∧
      ppu.raster.dot.val = 255 := by
    unfold renderDot at hDot
    omega
  have hDone : ppu.raster.linesDone = ppu.moved.raster.scanline.val := by
    rw [Raster.linesDone, if_pos (by rw [hSame.2]; decide), hSame.1]
  have hDone' : ppu.moved.raster.linesDone = ppu.moved.raster.scanline.val + 1 := by
    rw [Raster.linesDone, if_neg (by rw [hDot]; decide)]
  have hAim := h.aimed (by rw [hSame.1]; exact hLine)
  have hDrawn := h.drawn (by rw [hSame.1]; exact hLine)
  have hPlain : ppu.moved.mask.PlainBackground := h.plain hMask
  rw [hDone] at hAim hDrawn
  have hBus' : Steady (ppu.tick bus).2.2 pattern mirroring := by
    rw [hBus]
    exact ppu.moved.fetchLine_steady hPlain h.steady _
  refine of_line (h.setup.trans hTicked.setup) hBus' (by rw [hRaster]; exact hLine) ?_ ?_
  · have hNext := hAim.nextRow
    rw [Nat.mod_add_mod, Nat.add_assoc] at hNext
    rw [hRaster, hCurrent, hDone']
    exact hNext
  · intro i j hj
    rw [hRaster, hDone'] at hj
    rw [hPicture]
    by_cases hRow : j = ⟨ppu.moved.raster.scanline.val, hLine⟩
    · subst hRow
      rw [pointAt_putLine]
      have hPoint := ppu.moved.composeLine_get hPlain h.steady hAim
        ppu.moved.raster.scanline.val i
      have hWrap : Fin.ofNat 480 ((y + ppu.moved.raster.scanline.val) % 480) =
        .ofNat 480 (y + ppu.moved.raster.scanline.val) := Fin.ext (Nat.mod_mod _ _)
      have hPlane : ppu.moved.plane pattern mirroring = base.plane pattern mirroring :=
        plane_of_sameSetup h.setup pattern mirroring
      have hFine : ppu.moved.scroll.fineX = base.scroll.fineX := h.setup.fineX
      rw [hWrap, hPlane, hFine] at hPoint
      exact hPoint
    · rw [pointAt_putLine_of_ne _ _ _ _ hRow]
      refine hDrawn i j ?_
      have hOther : j.val ≠ ppu.moved.raster.scanline.val := fun hEq => hRow (Fin.ext hEq)
      omega

theorem aimed_top (h : Drawing base pattern mirroring x y ppu bus)
    (hAim : Aimed base.scroll.pending x y) (hLate : 89281 ≤ ppu.raster.place) :
    Aimed ppu.scroll.current x y := by
  obtain ⟨hCoarseX, hTableX⟩ := h.column (by omega)
  obtain ⟨hCoarseY, hTableY, hFineY⟩ := h.row hLate
  obtain ⟨hColumn, hRow, hTile⟩ := hAim
  rw [← hCoarseX, ← hTableX] at hColumn
  rw [← hCoarseY, ← hTableY, ← hFineY] at hRow
  rw [← hCoarseY] at hTile
  exact ⟨hColumn, hRow, hTile⟩

theorem tick_line (h : Drawing base pattern mirroring x y ppu bus)
    (hMask : base.mask.PlainBackground) (hAim : Aimed base.scroll.pending x y)
    (hLine : ppu.moved.raster.scanline.val < pictureHeight)
    (hDot : ppu.moved.raster.dot.val ≠ renderDot) :
    Drawing base pattern mirroring x y (ppu.tick bus).2.1 (ppu.tick bus).2.2 := by
  have hTicked := ppu.tick_ticked bus
  have hRaster : (ppu.tick bus).2.1.raster = ppu.moved.raster := hTicked.raster
  obtain ⟨hPicture, hCurrent, hBus⟩ := ppu.tick_line bus (h.plain hMask) hLine hDot
  have hBefore := ppu.raster.place_eq
  have hAfter := ppu.moved.raster.place_eq
  have hDotLt := ppu.raster.dot_lt
  have hDotLt' := ppu.moved.raster.dot_lt
  have hLow : ppu.moved.raster.scanline.val < 240 := hLine
  have hBus' : Steady (ppu.tick bus).2.2 pattern mirroring := by
    rw [hBus]
    exact h.steady
  -- Either the beam stays in the frame, with the same lines done, or it enters at the top.
  refine of_line (h.setup.trans hTicked.setup) hBus' (by rw [hRaster]; exact hLine) ?_ ?_
  · rw [hRaster, hCurrent, h.setup.pending]
    rcases ppu.moved_place with hNext | ⟨hLate, hTop⟩
    · obtain ⟨hVisible, hDone⟩ := ppu.linesDone_moved hLine hDot hNext
      have hRow := h.aimed hVisible
      rw [hDone]
      split
      · exact hRow.withColumnOf hAim
      · exact hRow
    · have hFirst := h.aimed_top hAim (by omega)
      have hRow := hFirst.row
      have hTile := hFirst.tile
      have hWrap : (y + 0) % 480 = y := by omega
      rw [if_neg (by omega), Raster.linesDone_top hTop, hWrap]
      exact hFirst
  · rw [hRaster, hPicture]
    rcases ppu.moved_place with hNext | ⟨hLate, hTop⟩
    · obtain ⟨hVisible, hDone⟩ := ppu.linesDone_moved hLine hDot hNext
      rw [hDone]
      exact h.drawn hVisible
    · rw [Raster.linesDone_top hTop]
      exact fun i j hj => absurd hj (Nat.not_lt_zero j.val)

theorem tick (h : Drawing base pattern mirroring x y ppu bus) (hMask : base.mask.PlainBackground)
    (hAim : Aimed base.scroll.pending x y) :
    Drawing base pattern mirroring x y (ppu.tick bus).2.1 (ppu.tick bus).2.2 := by
  by_cases hLine : ppu.moved.raster.scanline.val < pictureHeight
  · by_cases hDot : ppu.moved.raster.dot.val = renderDot
    · exact h.tick_render hMask hLine hDot
    · exact h.tick_line hMask hAim hLine hDot
  · exact h.tick_blank hMask hLine

theorem ticked (h : Drawing base pattern mirroring x y ppu bus)
    (hMask : base.mask.PlainBackground) (hAim : Aimed base.scroll.pending x y) (n : Nat) :
    Drawing base pattern mirroring x y (ppu.ticked bus n).1 (ppu.ticked bus n).2 := by
  induction n generalizing ppu bus with
  | zero => exact h
  | succ n ih => exact ih (h.tick hMask hAim)

end Drawing

/-! ### The next picture -/

/-- Dots left until the last visible line is composed. -/
def Raster.remaining (r : Raster) : Nat :=
  if r.place ≤ 81755 then 81755 - r.place else 81755 + frameDots - r.place

theorem remaining_tick (ppu : Ppu) (bus : β) (h : ppu.raster.place ≠ 81755) :
    (ppu.tick bus).2.1.raster.remaining < ppu.raster.remaining := by
  have hRaster : (ppu.tick bus).2.1.raster = ppu.moved.raster := (ppu.tick_ticked bus).raster
  have hLt := ppu.raster.place_lt_frameDots
  have hPlace := ppu.moved_place
  rw [hRaster]
  unfold Raster.remaining
  unfold Raster.frameDots at *
  split <;> split <;> omega

theorem exists_first_tick (ppu : Ppu) (bus : β) :
    ∃ n, (ppu.ticked bus n).1.raster.isAt 239 256 = true ∧
      ∀ m < n, (ppu.ticked bus m).1.raster.isAt 239 256 = false := by
  -- Every tick leaves fewer dots, also where one is dropped.
  induction hLeft : ppu.raster.remaining using Nat.strongRecOn generalizing ppu bus with
  | ind left ih =>
    cases hHere : ppu.raster.isAt 239 256 with
    | true => exact ⟨0, hHere, fun m hm => absurd hm (Nat.not_lt_zero m)⟩
    | false =>
      have hPlace : ppu.raster.place ≠ 81755 := by
        intro hAt
        rw [(ppu.raster.isAt_iff (by decide)).2 hAt] at hHere
        cases hHere
      have hLess := ppu.remaining_tick bus hPlace
      rw [hLeft] at hLess
      obtain ⟨n, hAt, hBefore⟩ := ih _ hLess (ppu.tick bus).2.1 (ppu.tick bus).2.2 rfl
      refine ⟨n + 1, hAt, ?_⟩
      intro m hm
      cases m with
      | zero => exact hHere
      | succ m => exact hBefore m (Nat.lt_of_succ_lt_succ hm)

/-! ### Setting the scroll position -/

section SetScroll

variable {pattern : UInt16 → UInt8} {mirroring : Mirroring}

theorem tick_steady (ppu : Ppu) {bus : β} (hMask : ppu.mask.PlainBackground)
    (h : Steady bus pattern mirroring) : Steady (ppu.tick bus).2.2 pattern mirroring := by
  by_cases hLine : ppu.moved.raster.scanline.val < pictureHeight
  · by_cases hDot : ppu.moved.raster.dot.val = renderDot
    · rw [(ppu.tick_render bus hMask hLine hDot).2.2]
      exact ppu.moved.fetchLine_steady hMask h _
    · rw [(ppu.tick_line bus hMask hLine hDot).2.2]
      exact h
  · rw [(ppu.tick_blank bus hMask hLine).2.2]
    exact h

theorem ticked_keeps (ppu : Ppu) {bus : β} (hMask : ppu.mask.PlainBackground)
    (h : Steady bus pattern mirroring) (n : Nat) :
    SameSetup ppu (ppu.ticked bus n).1 ∧ Steady (ppu.ticked bus n).2 pattern mirroring := by
  induction n generalizing ppu bus with
  | zero => exact ⟨.refl ppu, h⟩
  | succ n ih =>
    have hTick := (ppu.tick_ticked bus).setup
    have hMask' : (ppu.tick bus).2.1.mask.PlainBackground := by
      rw [hTick.mask]
      exact hMask
    obtain ⟨hSetup, hBus⟩ := ih (ppu.tick bus).2.1 hMask' (ppu.tick_steady hMask h)
    exact ⟨hTick.trans hSetup, hBus⟩

/-- The processor reads the status register, chooses a nametable and sets column and row of the
scroll position, with some ticks in between. -/
def setScroll (ppu : Ppu) (bus : β) (table column row : UInt8) (a b c : Nat) : Ppu × β :=
  let (_, ppu, bus) := ppu.readRegister bus 0x2002
  let (ppu, bus) := ppu.ticked bus a
  let (ppu, bus) := ppu.writeRegister bus 0x2000 table
  let (ppu, bus) := ppu.ticked bus b
  let (ppu, bus) := ppu.writeRegister bus 0x2005 column
  let (ppu, bus) := ppu.ticked bus c
  ppu.writeRegister bus 0x2005 row

theorem writeScroll_column {s : Scroll} (h : s.second = false) (value : UInt8) :
    (s.writeScroll value).second = true ∧ (s.writeScroll value).fineX.val = value.toNat % 8 ∧
      (s.writeScroll value).pending.tableX = s.pending.tableX ∧
      (s.writeScroll value).pending.tableY = s.pending.tableY ∧
      (s.writeScroll value).pending.coarseX.val = value.toNat / 8 := by
  simp [Scroll.writeScroll, h]

theorem writeScroll_row {s : Scroll} (h : s.second = true) (value : UInt8) :
    (s.writeScroll value).fineX = s.fineX ∧
      (s.writeScroll value).pending.tableX = s.pending.tableX ∧
      (s.writeScroll value).pending.tableY = s.pending.tableY ∧
      (s.writeScroll value).pending.coarseX = s.pending.coarseX ∧
      (s.writeScroll value).pending.coarseY.val = value.toNat / 8 ∧
      (s.writeScroll value).pending.fineY.val = value.toNat % 8 := by
  simp [Scroll.writeScroll, h]

theorem setScroll_spec (ppu : Ppu) {bus : β} (hMask : ppu.mask.PlainBackground)
    (hBus : Steady bus pattern mirroring) (table column row : UInt8) (hRow : row.toNat < 240)
    (a b c : Nat) :
    let set := ppu.setScroll bus table column row a b c
    set.1.mask = ppu.mask ∧ set.1.nametables = ppu.nametables ∧ set.1.palette = ppu.palette ∧
      set.1.control = ⟨table⟩ ∧ set.1.scroll.fineX.val = column.toNat % 8 ∧
      Aimed set.1.scroll.pending (256 * (table.toNat % 2) + 8 * (column.toNat / 8))
        (240 * (table.toNat / 2 % 2) + row.toNat) ∧
      Steady set.2 pattern mirroring := by
  intro set
  -- Each access is followed by ticks, which keep what it set up.
  let read := { ppu.readStatus.2 with openBus := ppu.readStatus.1 }
  obtain ⟨hRead, hBus⟩ := read.ticked_keeps hMask hBus a
  let chosen := { (read.ticked bus a).1 with openBus := table }.writeControl table
  have hChosen : chosen.mask = ppu.mask := hRead.mask
  obtain ⟨hChoose, hBus⟩ := chosen.ticked_keeps (by rw [hChosen]; exact hMask) hBus b
  let first := chosen.ticked (read.ticked bus a).2 b
  have hFirst : first.1.scroll.second = false := hChoose.second.trans hRead.second
  let placed := { first.1 with openBus := column, scroll := first.1.scroll.writeScroll column }
  have hPlaced : placed.mask = ppu.mask := hChoose.mask.trans hChosen
  obtain ⟨hPlace, hBus⟩ := placed.ticked_keeps (by rw [hPlaced]; exact hMask) hBus c
  obtain ⟨hFlag, hFineX, hTableX, hTableY, hCoarseX⟩ := writeScroll_column hFirst column
  let second := placed.ticked first.2 c
  have hSecond : second.1.scroll.second = true := hPlace.second.trans hFlag
  obtain ⟨hFineX', hTableX', hTableY', hCoarseX', hCoarseY, hFineY⟩ := writeScroll_row hSecond row
  have hSet : set = ({ second.1 with openBus := row, scroll := second.1.scroll.writeScroll row },
      second.2) := rfl
  rw [hPlace.fineX] at hFineX'
  rw [hPlace.pending] at hTableX' hTableY' hCoarseX'
  have hChosenX : first.1.scroll.pending.tableX.val = table.toNat % 2 := by
    rw [hChoose.pending]
    rfl
  have hChosenY : first.1.scroll.pending.tableY.val = table.toNat / 2 % 2 := by
    rw [hChoose.pending]
    rfl
  rw [hSet]
  refine ⟨hPlace.mask.trans hPlaced, ?_, ?_, ?_, ?_, ⟨?_, ?_, ?_⟩, hBus⟩
  · exact hPlace.nametables.trans (hChoose.nametables.trans hRead.nametables)
  · exact hPlace.palette.trans (hChoose.palette.trans hRead.palette)
  · exact hPlace.control.trans hChoose.control
  · exact (congrArg Fin.val hFineX').trans hFineX
  · show 256 * (second.1.scroll.writeScroll row).pending.tableX.val +
      8 * (second.1.scroll.writeScroll row).pending.coarseX.val = _
    rw [hTableX', hCoarseX']
    show 256 * (first.1.scroll.writeScroll column).pending.tableX.val +
      8 * (first.1.scroll.writeScroll column).pending.coarseX.val = _
    rw [hTableX, hChosenX, hCoarseX]
  · show 240 * (second.1.scroll.writeScroll row).pending.tableY.val +
      8 * (second.1.scroll.writeScroll row).pending.coarseY.val +
      (second.1.scroll.writeScroll row).pending.fineY.val = _
    rw [hTableY', hCoarseY, hFineY]
    show 240 * (first.1.scroll.writeScroll column).pending.tableY.val + _ + _ = _
    rw [hTableY, hChosenY]
    omega
  · show (second.1.scroll.writeScroll row).pending.coarseY.val < 30
    omega

end SetScroll

/-! ### The scroll contract -/

/-- The beam is between two pictures: past the visible lines, and before the prepared column is
taken over on the pre-render line. -/
def Raster.BetweenPictures (r : Raster) : Prop :=
  240 ≤ r.scanline.val ∧ (r.scanline.val = 261 → r.dot.val ≤ 256)

theorem Raster.BetweenPictures.place {r : Raster} (h : r.BetweenPictures) :
    81840 ≤ r.place ∧ r.place ≤ 89257 := by
  obtain ⟨hLine, hDot⟩ := h
  have hPlace := r.place_eq
  have hLineLt := r.scanline_lt
  have hDotLt := r.dot_lt
  omega

theorem Raster.linesDone_last {r : Raster} (h : r.isAt 239 256 = true) :
    r.scanline.val < pictureHeight ∧ r.linesDone = 240 := by
  obtain ⟨hLine, hDot⟩ : r.scanline.val = 239 ∧ r.dot.val = 256 := by
    simpa only [isAt, Bool.and_eq_true, beq_iff_eq] using h
  rw [linesDone, hLine, hDot]
  decide

theorem steady_board (board : Board) : Steady board board.chrRead board.mirroring := by
  refine ⟨?_, ?_⟩
  · intro next hNext address
    rw [eq_of_reads hNext]
    rfl
  · intro next hNext
    rw [eq_of_reads hNext]
    rfl

/-- With the whole background shown and nothing else, patterns that are fixed, and nametable,
column and row set between two pictures, ticks reach the end of the last visible line, and when
they first do the picture shows the plane of the four nametables from the scroll position on,
around its edges. -/
theorem picture_shows_plane (ppu : Ppu) (bus : β) (pattern : UInt16 → UInt8)
    (mirroring : Mirroring) (table column row : UInt8) (a b c : Nat)
    (hMask : ppu.mask.PlainBackground) (hBus : Steady bus pattern mirroring)
    (hRow : row.toNat < 240)
    (hBeam : (ppu.setScroll bus table column row a b c).1.raster.BetweenPictures) :
    let set := ppu.setScroll bus table column row a b c
    let plane : Plane := ⟨ppu.nametables, ppu.palette, mirroring, pattern,
      .ofNat 2 (table.toNat / 16)⟩
    ∃ n, (set.1.ticked set.2 n).1.raster.isAt 239 256 = true ∧
      (∀ m < n, (set.1.ticked set.2 m).1.raster.isAt 239 256 = false) ∧
      ∀ (x : Fin 256) (y : Fin 240), (set.1.ticked set.2 n).1.frame.pixel? x.val y.val =
        some (plane.colour (.ofNat 512 (256 * (table.toNat % 2) + column.toNat + x.val))
          (.ofNat 480 (240 * (table.toNat / 2 % 2) + row.toNat + y.val))) := by
  intro set plane
  obtain ⟨hMask', hNametables, hPalette, hControl, hFineX, hAim, hBus'⟩ :=
    ppu.setScroll_spec hMask hBus table column row hRow a b c
  rw [← hMask'] at hMask
  obtain ⟨n, hAt, hFirst⟩ := set.1.exists_first_tick set.2
  refine ⟨n, hAt, hFirst, ?_⟩
  intro x y
  obtain ⟨hAbove, hBelow⟩ := hBeam.place
  have hDrawing := (Drawing.start hBus' hAbove hBelow).ticked hMask hAim n
  obtain ⟨hLine, hDone⟩ := Raster.linesDone_last hAt
  have hPoint := hDrawing.drawn hLine x y (by rw [hDone]; exact y.isLt)
  have hPlane : set.1.plane pattern mirroring = plane := by
    simp only [Ppu.plane, set, hNametables, hPalette, hControl]
    rfl
  have hColumn : 256 * (table.toNat % 2) + 8 * (column.toNat / 8) + column.toNat % 8 + x.val =
      256 * (table.toNat % 2) + column.toNat + x.val := by omega
  rw [hPlane, hFineX, hColumn] at hPoint
  rw [← hPoint]
  exact pixel?_frame _ x y

/-- The plane is shown around its corner: in the last nametable, from its last row and column on. -/
theorem picture_shows_plane_corner :
    let ppu : Ppu :=
      { Ppu.powerOn with mask := ⟨0x0A⟩, raster := ⟨⟨241, by decide⟩, ⟨1, by decide⟩, 0, false⟩ }
    let board := Board.powerOn ⟨#[0], #[0xF0, 0x0F], .nrom, .vertical, false, none, by decide⟩
    let set := ppu.setScroll board 0x13 0xFF 0xEF 5 7 11
    let plane : Plane := ⟨ppu.nametables, ppu.palette, board.mirroring, board.chrRead, .ofNat 2 1⟩
    ppu.mask.PlainBackground ∧ Steady board board.chrRead board.mirroring ∧
      set.1.raster.BetweenPictures ∧
      ∃ n, (set.1.ticked set.2 n).1.raster.isAt 239 256 = true ∧
        (∀ m < n, (set.1.ticked set.2 m).1.raster.isAt 239 256 = false) ∧
        ∀ (x : Fin 256) (y : Fin 240), (set.1.ticked set.2 n).1.frame.pixel? x.val y.val =
          some (plane.colour (.ofNat 512 (511 + x.val)) (.ofNat 480 (479 + y.val))) := by
  intro ppu board set plane
  have hMask : ppu.mask.PlainBackground := ⟨by decide, by decide, by decide, by decide⟩
  have hBeam : set.1.raster.BetweenPictures := by
    show 240 ≤ set.1.raster.scanline.val ∧ (set.1.raster.scanline.val = 261 → _)
    decide +kernel
  exact ⟨hMask, steady_board board, hBeam, picture_shows_plane ppu board board.chrRead
    board.mirroring 0x13 0xFF 0xEF 5 7 11 hMask (steady_board board) (by decide) hBeam⟩

end Famicom.Ppu
