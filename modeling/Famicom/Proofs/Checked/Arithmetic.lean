import Mathlib.Algebra.Group.Nat.Defs

/-!
# Checked arithmetic

Unsigned arithmetic of fixed width that refuses what does not fit: sums and products that reach the
limit of their width, differences below zero, divisors of zero, shifts by the width or more, and
places outside a block.  Numbers are natural numbers, and each operation names the width it is made
in.  An operation that fits gives the plain result.
-/

namespace Famicom.Checked

/-- The widths of numbers: bytes, words, double words, and sizes of memory. -/
inductive Width where
  | byte
  | word
  | double
  | size
  deriving DecidableEq

def Width.bits : Width → Nat
  | .byte => 8
  | .word => 16
  | .double => 32
  | .size => 64

/-- The first number that a width cannot hold. -/
def Width.limit (w : Width) : Nat :=
  2 ^ w.bits

/-! ### Operations -/

def add (w : Width) (a b : Nat) : Option Nat :=
  if a + b < w.limit then some (a + b) else none

def mul (w : Width) (a b : Nat) : Option Nat :=
  if a * b < w.limit then some (a * b) else none

def sub (a b : Nat) : Option Nat :=
  if b ≤ a then some (a - b) else none

def div (a b : Nat) : Option Nat :=
  if 0 < b then some (a / b) else none

def rem (a b : Nat) : Option Nat :=
  if 0 < b then some (a % b) else none

/-- The number moved up by fewer bits than the width has; bits that leave the width are lost. -/
def shl (w : Width) (a n : Nat) : Option Nat :=
  if n < w.bits then some (a * 2 ^ n % w.limit) else none

def shr (w : Width) (a n : Nat) : Option Nat :=
  if n < w.bits then some (a / 2 ^ n) else none

def shiftUp (a : UInt8) (n : Nat) : Option UInt8 :=
  if n < Width.byte.bits then some (a <<< n.toUInt8) else none

def shiftDown (a : UInt8) (n : Nat) : Option UInt8 :=
  if n < Width.byte.bits then some (a >>> n.toUInt8) else none

/-- The difference, counted from the limit of the width when it is negative. -/
def wrappingSub (w : Width) (a b : Nat) : Nat :=
  (a + (w.limit - b)) % w.limit

def put {α : Type} {n : Nat} (v : Vector α n) (i : Nat) (value : α) : Option (Vector α n) :=
  if h : i < n then some (v.set i value h) else none

def fill {α : Type} {n : Nat} (v : Vector α n) (value : Nat → Option α) : Option (Vector α n) :=
  (List.range n).foldlM (fun v i => do put v i (← value i)) v

theorem bind_eq {α γ : Type} {x : Option α} {a : α} (h : x = some a) (f : α → Option γ) :
    (x >>= f) = f a := by
  rw [h]
  rfl

/-! ### What fits

The limits are written out, so that the conditions are linear arithmetic. -/

section

variable {a b n : Nat}

theorem add_byte (h : a + b < 0x100) : add .byte a b = some (a + b) := if_pos h

theorem add_word (h : a + b < 0x10000) : add .word a b = some (a + b) := if_pos h

theorem add_double (h : a + b < 2 ^ 32) : add .double a b = some (a + b) := if_pos h

theorem add_size (h : a + b < 2 ^ 64) : add .size a b = some (a + b) := if_pos h

theorem mul_word (h : a * b < 0x10000) : mul .word a b = some (a * b) := if_pos h

theorem mul_double (h : a * b < 2 ^ 32) : mul .double a b = some (a * b) := if_pos h

theorem mul_size (h : a * b < 2 ^ 64) : mul .size a b = some (a * b) := if_pos h

theorem sub_eq (h : b ≤ a) : sub a b = some (a - b) := if_pos h

theorem div_eq (h : 0 < b) : div a b = some (a / b) := if_pos h

theorem rem_eq (h : 0 < b) : rem a b = some (a % b) := if_pos h

theorem shl_word (h : n < 16) : shl .word a n = some (a * 2 ^ n % 0x10000) := if_pos h

theorem shr_word (h : n < 16) : shr .word a n = some (a / 2 ^ n) := if_pos h

theorem shiftUp_eq (x : UInt8) (h : n < 8) : shiftUp x n = some (x <<< n.toUInt8) := if_pos h

theorem shiftDown_eq (x : UInt8) (h : n < 8) : shiftDown x n = some (x >>> n.toUInt8) := if_pos h

theorem wrappingSub_of_le (h : b ≤ a) (ha : a < 2 ^ 64) : wrappingSub .size a b = a - b := by
  show (a + (2 ^ 64 - b)) % 2 ^ 64 = a - b
  omega

theorem wrappingSub_of_lt (h : a < b) (hb : b < 2 ^ 64) :
    wrappingSub .size a b = a + 2 ^ 64 - b := by
  show (a + (2 ^ 64 - b)) % 2 ^ 64 = a + 2 ^ 64 - b
  omega

end

section

variable {α : Type} {n : Nat}

theorem get_eq (v : Vector α n) {i : Nat} (h : i < n) : v[i]? = some (v.get ⟨i, h⟩) :=
  Vector.getElem?_eq_getElem h

theorem put_eq (v : Vector α n) {i : Nat} (value : α) (h : i < n) :
    put v i value = some (v.set i value h) :=
  dif_pos h

/-- A loop whose rounds all succeed succeeds, and its invariant holds at the end. -/
theorem foldlM_range {σ : Type} {f : σ → Nat → Option σ} (Inv : Nat → σ → Prop) {n : Nat} {s : σ}
    (hStart : Inv 0 s)
    (hStep : ∀ i t, i < n → Inv i t → ∃ t', f t i = some t' ∧ Inv (i + 1) t') :
    ∃ t, (List.range n).foldlM f s = some t ∧ Inv n t := by
  induction n with
  | zero => exact ⟨s, rfl, hStart⟩
  | succ n ih =>
    obtain ⟨t, hRun, hInv⟩ := ih fun i t hi => hStep i t (Nat.lt_succ_of_lt hi)
    obtain ⟨t', hNext, hInv'⟩ := hStep n t (Nat.lt_succ_self n) hInv
    refine ⟨t', ?_, hInv'⟩
    rw [List.range_succ, List.foldlM_append, hRun]
    simpa using hNext

/-- A loop over a list whose rounds all succeed gives what the plain loop gives, and keeps what its
rounds keep. -/
theorem foldlM_keeps {σ β : Type} {f : σ → β → Option σ} {g : σ → β → σ} (Inv : σ → Prop)
    {l : List β} {s : σ} (hStart : Inv s)
    (hStep : ∀ t, Inv t → ∀ x ∈ l, f t x = some (g t x) ∧ Inv (g t x)) :
    l.foldlM f s = some (l.foldl g s) ∧ Inv (l.foldl g s) := by
  induction l generalizing s with
  | nil => exact ⟨rfl, hStart⟩
  | cons x rest ih =>
    obtain ⟨hRound, hKept⟩ := hStep s hStart x List.mem_cons_self
    rw [List.foldlM_cons, bind_eq hRound]
    exact ih hKept fun t ht y hy => hStep t ht y (List.mem_cons_of_mem x hy)

theorem get_set (v : Vector α n) {i : Nat} (hi : i < n) (value : α) (j : Fin n) :
    (v.set i value hi).get j = if i = j.val then value else v.get j :=
  Vector.getElem_set hi j.isLt

theorem eq_ofFn {v : Vector α n} {f : Fin n → α} (h : ∀ i, v.get i = f i) : v = Vector.ofFn f := by
  apply Vector.ext
  intro i hi
  rw [Vector.getElem_ofFn]
  exact h ⟨i, hi⟩

theorem fill_eq (v : Vector α n) {value : Nat → Option α} {f : Fin n → α}
    (h : ∀ i : Fin n, value i.val = some (f i)) : fill v value = some (Vector.ofFn f) := by
  have hLoop : ∃ w, fill v value = some w ∧ ∀ i : Fin n, i.val < n → w.get i = f i := by
    refine foldlM_range (fun k (w : Vector α n) => ∀ i : Fin n, i.val < k → w.get i = f i)
      (fun i hi => absurd hi (Nat.not_lt_zero _)) ?_
    intro i w hi hInv
    refine ⟨w.set i (f ⟨i, hi⟩) hi, ?_, ?_⟩
    · rw [bind_eq (h ⟨i, hi⟩), put_eq w _ hi]
    · intro j hj
      rw [get_set]
      split
      · rename_i hSame
        exact congrArg f (Fin.ext hSame)
      · exact hInv j (by omega)
  obtain ⟨w, hRun, hAll⟩ := hLoop
  rw [hRun, eq_ofFn fun i => hAll i i.isLt]

end

end Famicom.Checked
