import Famicom.Capture

/-!
# Checked frames

A canvas is a frame as it lies in memory: a width, a height and a buffer of pixels, with nothing
that ties the size of the buffer to the other two.  Access is refused outside the buffer, and so is
a copy between buffers of different sizes.  Whatever is drawn, the canvases are those of frames, so
that taking a canvas into the buffer of the last one is never refused.
-/

namespace Famicom

structure Canvas where
  width : Nat
  height : Nat
  pixels : Array UInt32

namespace Canvas

def blank (width height : Nat) : Canvas :=
  ⟨width, height, Array.replicate (width * height) 0xFF000000⟩

def write? (c : Canvas) (i : Nat) (colour : UInt32) : Option Canvas :=
  if h : i < c.pixels.size then some { c with pixels := c.pixels.set i colour h } else none

/-- Replaces a pixel in the part of the buffer that is a row. -/
def writeRow? (c : Canvas) (x y : Nat) (colour : UInt32) : Option Canvas :=
  if x < c.width ∧ y * c.width + c.width ≤ c.pixels.size then
    c.write? (y * c.width + x) colour
  else none

def copy? (c : Canvas) (pixels : Array UInt32) : Option Canvas :=
  if c.pixels.size = pixels.size then some { c with pixels := pixels } else none

/-- What can be made of blank canvases. -/
inductive Drawn : Canvas → Prop
  | blank (width height : Nat) : Drawn (blank width height)
  | write {c c' : Canvas} {i : Nat} {colour : UInt32} (drawn : Drawn c)
      (written : c.write? i colour = some c') : Drawn c'
  | writeRow {c c' : Canvas} {x y : Nat} {colour : UInt32} (drawn : Drawn c)
      (written : c.writeRow? x y colour = some c') : Drawn c'
  | copy {c c' : Canvas} {pixels : Array UInt32} (drawn : Drawn c)
      (copied : c.copy? pixels = some c') : Drawn c'

/-- The buffer has a place for each pixel and no other. -/
def Fits (c : Canvas) : Prop :=
  c.pixels.size = c.width * c.height

theorem Fits.write {c c' : Canvas} {i : Nat} {colour : UInt32} (hFits : c.Fits)
    (h : c.write? i colour = some c') : c'.Fits := by
  obtain ⟨_, hWritten⟩ := Option.dite_none_right_eq_some.1 h
  cases hWritten
  rw [Fits, Array.size_set]
  exact hFits

theorem Fits.copy {c c' : Canvas} {pixels : Array UInt32} (hFits : c.Fits)
    (h : c.copy? pixels = some c') : c'.Fits := by
  obtain ⟨hSize, hCopied⟩ := Option.ite_none_right_eq_some.1 h
  cases hCopied
  exact hSize.symm.trans hFits

theorem Drawn.fits {c : Canvas} (h : c.Drawn) : c.Fits := by
  induction h with
  | blank width height => exact Array.size_replicate
  | write _ written ih => exact ih.write written
  | writeRow _ written ih => exact ih.write (Option.ite_none_right_eq_some.1 written).2
  | copy _ copied ih => exact ih.copy copied

theorem Fits.drawn {c : Canvas} (hFits : c.Fits) : c.Drawn := by
  -- One copy into a blank canvas of the same width and height draws it all.
  have hCopied : (blank c.width c.height).copy? c.pixels = some c :=
    if_pos (Array.size_replicate.trans hFits.symm)
  exact (Drawn.blank c.width c.height).copy hCopied

end Canvas

namespace Frame

def canvas (f : Frame) : Canvas :=
  ⟨f.width, f.height, f.pixels.toArray⟩

theorem canvas_fits (f : Frame) : f.canvas.Fits :=
  f.pixels.size_toArray

theorem drawn_iff (c : Canvas) : c.Drawn ↔ ∃ f : Frame, f.canvas = c := by
  constructor
  · intro h
    exact ⟨⟨c.width, c.height, ⟨c.pixels, h.fits⟩⟩, rfl⟩
  · rintro ⟨f, rfl⟩
    exact f.canvas_fits.drawn

theorem copy?_canvas {target source : Frame}
    (h : target.width = source.width ∧ target.height = source.height) :
    target.canvas.copy? source.canvas.pixels = some source.canvas := by
  have hSize : target.canvas.pixels.size = source.canvas.pixels.size := by
    rw [target.canvas_fits, source.canvas_fits]
    simp only [canvas, h]
  rw [Canvas.copy?, if_pos hSize]
  -- The target keeps its own width and height, which are those of the source.
  simp only [canvas, h]

end Frame

structure CanvasCapture where
  latest : Option Canvas
  presented : Nat

/-- The canvas to keep after another is presented: a copy of it in the buffer of the last one where
width and height agree. -/
def CanvasCapture.renew? (latest : Option Canvas) (canvas : Canvas) : Option Canvas :=
  match latest with
  | none => some canvas
  | some last =>
    if last.width = canvas.width ∧ last.height = canvas.height then last.copy? canvas.pixels
    else some canvas

def CanvasCapture.present? (c : CanvasCapture) (canvas : Canvas) : Option CanvasCapture := do
  let latest ← renew? c.latest canvas
  return ⟨some latest, c.presented + 1⟩

namespace Capture

def onCanvas (c : Capture) : CanvasCapture :=
  ⟨c.latest.map Frame.canvas, c.presented⟩

theorem present_eq (c : Capture) (frame : Frame) :
    c.present frame = ⟨some frame, c.presented + 1⟩ :=
  congrArg (Capture.mk · _) (latest_present c frame)

theorem renew?_canvas (latest : Option Frame) (frame : Frame) :
    CanvasCapture.renew? (latest.map Frame.canvas) frame.canvas = some frame.canvas := by
  cases latest with
  | none => rfl
  | some last =>
    show (if last.width = frame.width ∧ last.height = frame.height then
      last.canvas.copy? frame.canvas.pixels else some frame.canvas) = some frame.canvas
    split
    · exact Frame.copy?_canvas ‹_›
    · rfl

/-- No copy is refused, and the canvas kept is that of the frame. -/
theorem present?_onCanvas (c : Capture) (frame : Frame) :
    c.onCanvas.present? frame.canvas = some (c.present frame).onCanvas := by
  have hLatest : CanvasCapture.renew? c.onCanvas.latest frame.canvas = some frame.canvas :=
    renew?_canvas c.latest frame
  rw [CanvasCapture.present?, hLatest, present_eq]
  rfl

end Capture

end Famicom
