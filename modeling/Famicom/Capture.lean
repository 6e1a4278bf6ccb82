import Famicom.Console.Event
import Famicom.Frame

/-!
# Frame capture

Keeps the frame presented last and counts the frames presented.  The buffer of the frame before
is used again as long as the size stays the same.
-/

namespace Famicom

structure Capture where
  latest : Option Frame
  presented : Nat

namespace Capture

def empty : Capture :=
  ⟨none, 0⟩

/-- Takes a frame, into the buffer of the last one if it fits. -/
def present (c : Capture) (frame : Frame) : Capture :=
  ⟨some ((c.latest.bind (·.overwrite? frame)).getD frame), c.presented + 1⟩

theorem latest_present (c : Capture) (frame : Frame) : (c.present frame).latest = some frame := by
  simp only [present]
  cases h : c.latest.bind (·.overwrite? frame) with
  | none => rfl
  | some f =>
    obtain ⟨last, _, hf⟩ := Option.bind_eq_some_iff.1 h
    simp [Frame.eq_of_overwrite? hf]

def observe (c : Capture) : Console.Event → Capture
  | .frame frame => c.present frame
  | _ => c

end Capture

end Famicom
