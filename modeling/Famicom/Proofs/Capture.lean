import Famicom.Proofs.Checked.Arithmetic
import Famicom.Proofs.Checked.Frame
import Famicom.Proofs.Frame

/-!
# Handles on captures

A capture is reached through handles, and the clones of a handle reach the same capture.  Whatever
is presented through any of them, each shows the frame presented last to its capture and the number
of frames presented to it, and so do handles on captures whose frames are canvases in memory.
-/

namespace Famicom.Capture

open Checked

/-- What is done with handles.  They are numbered in the order in which they are made, and nothing
is done with a handle that does not exist. -/
inductive Operation where
  | create
  | clone (handle : Nat)
  | present (handle : Nat) (frame : Frame)

structure Handles (κ : Type) where
  captures : Nat → κ
  pointers : List Nat

namespace Operation

/-- The pointers after an operation.  A capture has the number of the first handle on it. -/
def point (pointers : List Nat) : Operation → List Nat
  | .create => pointers ++ [pointers.length]
  | .clone handle => pointers ++ pointers[handle]?.toList
  | .present _ _ => pointers

def frameTo? (capture : Nat) (pointers : List Nat) : Operation → Option Frame
  | .present handle frame => if pointers[handle]? = some capture then some frame else none
  | _ => none

end Operation

def pointersAfter (operations : List Operation) : List Nat :=
  operations.foldl Operation.point []

def framesTo (capture : Nat) : List Nat → List Operation → List Frame
  | _, [] => []
  | pointers, operation :: rest =>
    (operation.frameTo? capture pointers).toList ++
      framesTo capture (operation.point pointers) rest

namespace Handles

variable {κ : Type}

def start (blank : κ) : Handles κ :=
  ⟨fun _ => blank, []⟩

def store (s : Handles κ) (capture : Nat) (contents : κ) : Handles κ :=
  { s with captures := fun other => if other = capture then contents else s.captures other }

def shown? (s : Handles κ) (handle : Nat) : Option κ :=
  s.pointers[handle]?.map s.captures

section

variable (blank : κ) (take? : κ → Frame → Option κ)

def perform? (s : Handles κ) (operation : Operation) : Option (Handles κ) :=
  match operation with
  | .create => some { s.store s.pointers.length blank with pointers := operation.point s.pointers }
  | .clone _ => some { s with pointers := operation.point s.pointers }
  | .present handle frame =>
    match s.pointers[handle]? with
    | none => some s
    | some capture => (take? (s.captures capture) frame).map (s.store capture)

def performAll? (operations : List Operation) : Option (Handles κ) :=
  operations.foldlM (perform? blank take?) (start blank)

end

/-- Each capture holds what is to be held after the frames presented to it. -/
structure Recalls (holds : List Frame → κ) (before : Nat → List Frame) (s : Handles κ) : Prop where
  captures : ∀ capture, s.captures capture = holds (before capture)
  fresh : ∀ capture, s.pointers.length ≤ capture → before capture = []
  pointed : ∀ capture ∈ s.pointers, capture < s.pointers.length

variable {holds : List Frame → κ} {before : Nat → List Frame} {s : Handles κ}

theorem recalls_start : Recalls holds (fun _ => []) (start (holds [])) :=
  ⟨fun _ => rfl, fun _ _ => rfl, fun _ h => nomatch h⟩

theorem Recalls.extend (h : Recalls holds before s) {added : List Nat}
    (hAdded : ∀ capture ∈ added, capture < (s.pointers ++ added).length) :
    Recalls holds before { s with pointers := s.pointers ++ added } where
  captures := h.captures
  fresh capture hCapture := by
    rw [List.length_append] at hCapture
    exact h.fresh capture (by omega)
  pointed capture hCapture := by
    obtain hOld | hNew := List.mem_append.1 hCapture
    · rw [List.length_append]
      exact Nat.lt_add_right _ (h.pointed capture hOld)
    · exact hAdded capture hNew

theorem Recalls.store (h : Recalls holds before s) {capture : Nat} {frames : List Frame}
    (hPlace : capture < s.pointers.length) :
    Recalls holds (fun other => if other = capture then frames else before other)
      (s.store capture (holds frames)) where
  captures other := by
    rw [apply_ite holds, ← h.captures other]
    rfl
  fresh other hOther := by
    have hOther : s.pointers.length ≤ other := hOther
    rw [if_neg (by omega), h.fresh other hOther]
  pointed := h.pointed

theorem Recalls.store_fresh (h : Recalls holds before s) :
    Recalls holds before (s.store s.pointers.length (holds [])) where
  captures other := by
    by_cases hOther : other = s.pointers.length
    · rw [h.fresh other (Nat.le_of_eq hOther.symm)]
      exact if_pos hOther
    · rw [← h.captures other]
      exact if_neg hOther
  fresh := h.fresh
  pointed := h.pointed

variable {take? : κ → Frame → Option κ}

section

variable (hTake : ∀ frames frame, take? (holds frames) frame = some (holds (frames ++ [frame])))

include hTake

theorem Recalls.perform (h : Recalls holds before s) (operation : Operation) :
    ∃ s', perform? (holds []) take? s operation = some s' ∧
      s'.pointers = operation.point s.pointers ∧
      Recalls holds
        (fun capture => before capture ++ (operation.frameTo? capture s.pointers).toList) s' := by
  cases operation with
  | create =>
    refine ⟨_, rfl, rfl, ?_⟩
    simp only [Operation.frameTo?, Option.toList_none, List.append_nil]
    apply h.store_fresh.extend
    intro capture hNew
    rw [List.mem_singleton.1 hNew, List.length_append]
    exact Nat.lt_succ_self _
  | clone handle =>
    refine ⟨_, rfl, rfl, ?_⟩
    simp only [Operation.frameTo?, Option.toList_none, List.append_nil]
    apply h.extend
    intro capture hNew
    rw [List.length_append]
    exact Nat.lt_add_right _
      (h.pointed capture (List.mem_of_getElem? (Option.mem_toList.1 hNew)))
  | present handle frame =>
    cases hPointer : s.pointers[handle]? with
    | none =>
      refine ⟨s, by simp only [perform?, hPointer], rfl, ?_⟩
      simpa only [Operation.frameTo?, hPointer, reduceCtorEq, if_false, Option.toList_none,
        List.append_nil] using h
    | some capture =>
      -- The history of one capture grows at its end, those of the others stay.
      have hTaken := hTake (before capture) frame
      rw [← h.captures capture] at hTaken
      refine ⟨s.store capture (holds (before capture ++ [frame])), ?_, rfl, ?_⟩
      · simp only [perform?, hPointer, hTaken, Option.map_some]
      · have hFrames : (fun other => before other ++
            ((Operation.present handle frame).frameTo? other s.pointers).toList) =
              fun other => if other = capture then before capture ++ [frame] else before other := by
          funext other
          simp only [Operation.frameTo?, hPointer, Option.some_inj, eq_comm (a := capture)]
          split
          · rename_i hSame
            rw [hSame, Option.toList_some]
          · rw [Option.toList_none, List.append_nil]
        rw [hFrames]
        exact h.store (h.pointed capture (List.mem_of_getElem? hPointer))

theorem Recalls.performAll (h : Recalls holds before s) (operations : List Operation) :
    ∃ s', operations.foldlM (perform? (holds []) take?) s = some s' ∧
      s'.pointers = operations.foldl Operation.point s.pointers ∧
      Recalls holds (fun capture => before capture ++ framesTo capture s.pointers operations)
        s' := by
  -- What the first operation presents belongs to the history that the others find.
  induction operations generalizing before s with
  | nil =>
    refine ⟨s, rfl, rfl, ?_⟩
    simpa only [framesTo, List.append_nil] using h
  | cons operation rest ih =>
    obtain ⟨s', hOne, hPointers, hKept⟩ := h.perform hTake operation
    obtain ⟨s'', hRest, hPointers', hKept'⟩ := ih hKept
    refine ⟨s'', ?_, ?_, ?_⟩
    · rw [List.foldlM_cons, bind_eq hOne, hRest]
    · rw [List.foldl_cons, hPointers', hPointers]
    · simpa only [framesTo, List.append_assoc, hPointers] using hKept'

end

/-- Every handle shows what its capture holds after the frames presented through its clones. -/
theorem performAll_shown (holds : List Frame → κ) (take? : κ → Frame → Option κ)
    (hTake : ∀ frames frame, take? (holds frames) frame = some (holds (frames ++ [frame])))
    (operations : List Operation) :
    ∃ s, performAll? (holds []) take? operations = some s ∧
      ∀ handle, s.shown? handle =
        (pointersAfter operations)[handle]?.map fun capture =>
          holds (framesTo capture [] operations) := by
  obtain ⟨s, hRun, hPointers, hKept⟩ := recalls_start.performAll hTake operations
  refine ⟨s, hRun, ?_⟩
  intro handle
  rw [shown?, hPointers]
  congr 1
  funext capture
  exact hKept.captures capture

end Handles

def after (frames : List Frame) : Capture :=
  ⟨frames.getLast?, frames.length⟩

theorem present_after (frames : List Frame) (frame : Frame) :
    (after frames).present frame = after (frames ++ [frame]) := by
  rw [present_eq, after, after, List.getLast?_concat, List.length_append]
  rfl

/-- However frames of any sizes are presented through the clones of captures, each clone shows the
last one and how many there were.  In memory no copy into the buffer of the last frame is refused,
where the canvases that can be drawn are those of the frames.  The bytes of a frame are the red,
green and blue of its pixels and an opaque alpha, and tell frames apart by their colours. -/
theorem shows_last_frame :
    (∀ operations : List Operation, ∃ plain checked,
      Handles.performAll? empty (fun c frame => some (c.present frame)) operations = some plain ∧
        Handles.performAll? empty.onCanvas (fun c frame => c.present? frame.canvas) operations =
          some checked ∧
        ∀ handle,
          (plain.shown? handle = (pointersAfter operations)[handle]?.map fun capture =>
            ⟨(framesTo capture [] operations).getLast?,
              (framesTo capture [] operations).length⟩) ∧
          checked.shown? handle = (plain.shown? handle).map onCanvas) ∧
      (∀ canvas : Canvas, canvas.Drawn ↔ ∃ frame : Frame, frame.canvas = canvas) ∧
      (∀ frame : Frame, frame.rgba.size = 4 * (frame.width * frame.height) ∧ ∀ k,
        frame.rgba[4 * k]? = frame.pixels[k]?.map Frame.red ∧
          frame.rgba[4 * k + 1]? = frame.pixels[k]?.map Frame.green ∧
          frame.rgba[4 * k + 2]? = frame.pixels[k]?.map Frame.blue ∧
          frame.rgba[4 * k + 3]? = frame.pixels[k]?.map fun _ => 0xFF) ∧
      ∀ frame other : Frame,
        frame.rgba = other.rgba ↔ ∀ k, frame.colour? k = other.colour? k := by
  refine ⟨?_, Frame.drawn_iff, fun frame => ⟨frame.size_rgba, frame.rgba_pixel⟩,
    Frame.rgba_eq_iff⟩
  intro operations
  obtain ⟨plain, hPlain, hShown⟩ := Handles.performAll_shown after
    (fun c frame => some (c.present frame))
    (fun frames frame => congrArg some (present_after frames frame)) operations
  obtain ⟨checked, hChecked, hShown'⟩ := Handles.performAll_shown
    (fun frames => (after frames).onCanvas) (fun c frame => c.present? frame.canvas)
    (fun frames frame => by rw [present?_onCanvas, present_after]) operations
  refine ⟨plain, checked, hPlain, hChecked, ?_⟩
  intro handle
  refine ⟨hShown handle, ?_⟩
  rw [hShown, hShown', Option.map_map]
  rfl

end Famicom.Capture
