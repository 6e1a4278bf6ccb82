import Famicom.Frame

/-!
# The bytes of a frame

A frame is written as four bytes a pixel: red, green, blue and an opaque alpha.  The alpha of the
pixel itself is dropped, so that two frames of one size have the same bytes exactly when their
pixels agree in the lower 24 bits.
-/

namespace Famicom.Frame

def bytesOf (p : UInt32) : List UInt8 :=
  [(p >>> 16).toUInt8, (p >>> 8).toUInt8, p.toUInt8, 0xFF]

def red (p : UInt32) : UInt8 :=
  .ofNat (p.toNat / 0x10000)

def green (p : UInt32) : UInt8 :=
  .ofNat (p.toNat / 0x100)

def blue (p : UInt32) : UInt8 :=
  .ofNat p.toNat

theorem bytesOf_eq (p : UInt32) : bytesOf p = [red p, green p, blue p, 0xFF] := by
  have hByte (w : UInt32) : w.toUInt8 = .ofNat w.toNat := by
    apply UInt8.toNat_inj.1
    simp
  rw [bytesOf, hByte, hByte, hByte, UInt32.toNat_shiftRight, UInt32.toNat_shiftRight]
  simp only [UInt32.reduceToNat, Nat.shiftRight_eq_div_pow, red, green, blue, Nat.reducePow,
    Nat.reduceMod]

theorem bytesOf_eq_iff (p q : UInt32) :
    bytesOf p = bytesOf q ↔ p.toNat % 0x1000000 = q.toNat % 0x1000000 := by
  simp only [bytesOf_eq, red, green, blue, List.cons.injEq, ← UInt8.toNat_inj,
    UInt8.toNat_ofNat', and_true]
  omega

theorem toList_rgba (f : Frame) : f.rgba.toList = f.pixels.toList.flatMap bytesOf := by
  have hFold (pixels : List UInt32) (out : Array UInt8) :
      (pixels.foldl (fun (out : Array UInt8) (p : UInt32) =>
        (((out.push (p >>> 16).toUInt8).push (p >>> 8).toUInt8).push p.toUInt8).push 0xFF)
          out).toList = out.toList ++ pixels.flatMap bytesOf := by
    induction pixels generalizing out with
    | nil => simp
    | cons p rest ih =>
      rw [List.foldl_cons, ih]
      simp [bytesOf]
  rw [rgba, ← Vector.foldl_toList, hFold]
  rfl

theorem length_flatMap_bytesOf (pixels : List UInt32) :
    (pixels.flatMap bytesOf).length = 4 * pixels.length := by
  induction pixels with
  | nil => rfl
  | cons p rest ih =>
    rw [List.flatMap_cons, List.length_append, ih, List.length_cons]
    show 4 + 4 * rest.length = _
    omega

theorem flatMap_bytesOf_get (pixels : List UInt32) (k : Nat) {j : Nat} (h : j < 4) :
    (pixels.flatMap bytesOf)[4 * k + j]? = pixels[k]?.bind fun p => (bytesOf p)[j]? := by
  induction pixels generalizing k with
  | nil => rfl
  | cons p rest ih =>
    have hLength : (bytesOf p).length = 4 := rfl
    cases k with
    | zero =>
      rw [List.flatMap_cons, Nat.mul_zero, Nat.zero_add, List.getElem?_append_left (by omega)]
      rfl
    | succ k =>
      have hPlace : 4 * (k + 1) + j - (bytesOf p).length = 4 * k + j := by omega
      rw [List.flatMap_cons, List.getElem?_append_right (by omega), hPlace, ih]
      rfl

theorem size_rgba (f : Frame) : f.rgba.size = 4 * (f.width * f.height) := by
  rw [← Array.length_toList, toList_rgba, length_flatMap_bytesOf, Vector.length_toList]

theorem rgba_get (f : Frame) (k : Nat) {j : Nat} (h : j < 4) :
    f.rgba[4 * k + j]? = f.pixels[k]?.bind fun p => (bytesOf p)[j]? := by
  rw [← Array.getElem?_toList, toList_rgba, flatMap_bytesOf_get f.pixels.toList k h,
    Vector.getElem?_toList]

theorem rgba_pixel (f : Frame) (k : Nat) :
    f.rgba[4 * k]? = f.pixels[k]?.map red ∧ f.rgba[4 * k + 1]? = f.pixels[k]?.map green ∧
      f.rgba[4 * k + 2]? = f.pixels[k]?.map blue ∧
      f.rgba[4 * k + 3]? = f.pixels[k]?.map fun _ => 0xFF := by
  have hFirst := f.rgba_get k (j := 0) (by omega)
  rw [Nat.add_zero] at hFirst
  rw [hFirst, f.rgba_get k (by omega), f.rgba_get k (by omega), f.rgba_get k (by omega)]
  simp only [bytesOf_eq, List.getElem?_cons_zero, List.getElem?_cons_succ]
  cases f.pixels[k]? with
  | none => exact ⟨rfl, rfl, rfl, rfl⟩
  | some p => exact ⟨rfl, rfl, rfl, rfl⟩

/-- The part of a pixel that is written. -/
def colour? (f : Frame) (k : Nat) : Option Nat :=
  f.pixels[k]?.map (·.toNat % 0x1000000)

theorem bytesOf_get_eq_iff (p q : Option UInt32) :
    (∀ j < 4, (p.bind fun p => (bytesOf p)[j]?) = q.bind fun q => (bytesOf q)[j]?) ↔
      p.map (·.toNat % 0x1000000) = q.map (·.toNat % 0x1000000) := by
  have hLength (p : UInt32) : (bytesOf p).length = 4 := rfl
  cases p with
  | none =>
    cases q with
    | none => simp
    | some q => simpa using ⟨0, by omega, by simp [bytesOf]⟩
  | some p =>
    cases q with
    | none => simpa using ⟨0, by omega, by simp [bytesOf]⟩
    | some q =>
      rw [Option.map_some, Option.map_some, Option.some_inj, ← bytesOf_eq_iff]
      constructor
      · intro h
        apply List.ext_getElem?
        intro j
        by_cases hj : j < 4
        · exact h j hj
        · rw [List.getElem?_eq_none (by rw [hLength]; omega),
            List.getElem?_eq_none (by rw [hLength]; omega)]
      · intro h j _
        rw [Option.bind_some, Option.bind_some, h]

theorem rgba_eq_iff (f g : Frame) : f.rgba = g.rgba ↔ ∀ k, f.colour? k = g.colour? k := by
  constructor
  · intro h k
    apply (bytesOf_get_eq_iff _ _).1
    intro j hj
    rw [← rgba_get f k hj, ← rgba_get g k hj, h]
  · intro h
    apply Array.ext_getElem?
    intro i
    have hPlace : i = 4 * (i / 4) + i % 4 := by omega
    have hByte : i % 4 < 4 := by omega
    rw [hPlace, rgba_get f _ hByte, rgba_get g _ hByte]
    exact (bytesOf_get_eq_iff _ _).2 (h (i / 4)) _ hByte

end Famicom.Frame
