/-!
# Memory blocks

A memory block is a vector of bytes of fixed size.  The size is part of the type, so every
access carries the proof that it is in range, and the laws of reading after writing are those
of vectors.
-/

namespace Famicom

abbrev Memory (n : Nat) : Type :=
  Vector UInt8 n

def Memory.zeroed (n : Nat) : Memory n :=
  Vector.replicate n 0

theorem Memory.getElem_zeroed (n i : Nat) (h : i < n) : (Memory.zeroed n)[i] = 0 := by
  simp [Memory.zeroed]

end Famicom
