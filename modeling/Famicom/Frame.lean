/-!
# Frames

A frame is a rectangle of pixels, row by row, each with alpha, red, green and blue in a word.
-/

namespace Famicom

structure Frame where
  width : Nat
  height : Nat
  pixels : Vector UInt32 (width * height)

namespace Frame

def uniform (width height : Nat) (colour : UInt32) : Frame :=
  ⟨width, height, Vector.replicate _ colour⟩

def black (width height : Nat) : Frame :=
  uniform width height 0xFF000000

theorem index_lt {width height x y : Nat} (hx : x < width) (hy : y < height) :
    y * width + x < width * height :=
  calc y * width + x < y * width + width := Nat.add_lt_add_left hx _
    _ = width * (y + 1) := by rw [Nat.mul_add, Nat.mul_one, Nat.mul_comm]
    _ ≤ width * height := Nat.mul_le_mul_left _ hy

def pixel? (f : Frame) (x y : Nat) : Option UInt32 :=
  if h : x < f.width ∧ y < f.height then
    some (f.pixels.get ⟨y * f.width + x, index_lt h.1 h.2⟩)
  else none

def setIndex? (f : Frame) (i : Nat) (colour : UInt32) : Option Frame :=
  if h : i < f.width * f.height then some { f with pixels := f.pixels.set i colour } else none

/-- The frame has a row: one without columns has every row. -/
def hasRow (f : Frame) (y : Nat) : Bool :=
  y * f.width + f.width ≤ f.width * f.height

def row? (f : Frame) (y : Nat) : Option (Array UInt32) :=
  if f.hasRow y then
    some (f.pixels.toArray.extract (y * f.width) (y * f.width + f.width))
  else none

def set? (f : Frame) (x y : Nat) (colour : UInt32) : Option Frame :=
  if x < f.width ∧ f.hasRow y then f.setIndex? (y * f.width + x) colour else none

def fillRow? (f : Frame) (y : Nat) (colour : UInt32) : Option Frame :=
  if f.hasRow y then
    (List.range f.width).foldlM (fun f x => f.set? x y colour) f
  else none

/-- The frame with the pixels of another copied over its own, if both have one size. -/
def overwrite? (target source : Frame) : Option Frame :=
  if h : source.width = target.width ∧ source.height = target.height then
    some { target with pixels := source.pixels.cast (by rw [h.1, h.2]) }
  else none

theorem eq_of_overwrite? {target source f : Frame} (h : target.overwrite? source = some f) :
    f = source := by
  obtain ⟨width, height, pixels⟩ := source
  obtain ⟨width', height', pixels'⟩ := target
  simp only [overwrite?] at h
  split at h
  · rename_i hSize
    obtain ⟨rfl, rfl⟩ := hSize
    simpa using h.symm
  · simp at h

/-- The pixels as red, green, blue and an opaque alpha, a byte each. -/
def rgba (f : Frame) : Array UInt8 :=
  f.pixels.foldl
    (fun (out : Array UInt8) (p : UInt32) =>
      (((out.push (p >>> 16).toUInt8).push (p >>> 8).toUInt8).push p.toUInt8).push 0xFF) #[]

end Frame

end Famicom
