import Famicom.Proofs.Cpu.Rules

/-!
# The stack in flat memory

Pushing changes the slots below the stack pointer and nothing else, and pulling as many bytes as
were pushed gives them back in reverse, for every stack pointer: the slots wrap around within
their page.
-/

namespace Famicom.Cpu

/-- The slots that the next pushes go to, from a stack pointer down. -/
def freeSlots : UInt8 → Nat → List UInt16
  | _, 0 => []
  | s, count + 1 => Registers.stackSlot s :: freeSlots (s - 1) count

def FlatMemory.pushed (memory : FlatMemory) (s : UInt8) (values : List UInt8) : FlatMemory :=
  (pushes s values).foldl FlatMemory.afterAccess memory

/-! ### Slots -/

theorem onStack_of_mem_freeSlots {s : UInt8} {count : Nat} {address : UInt16}
    (h : address ∈ freeSlots s count) : OnStack address := by
  induction count generalizing s with
  | zero => cases h
  | succ count ih =>
    rcases List.mem_cons.1 h with rfl | hRest
    · exact onStack_stackSlot s
    · exact ih hRest

theorem stackSlot_inj {s t : UInt8} (h : Registers.stackSlot s = Registers.stackSlot t) :
    s = t := by
  have hs := s.toNat_lt
  have ht := t.toNat_lt
  have hNat := congrArg UInt16.toNat h
  simp only [Registers.stackSlot, UInt16.toNat_add, UInt8.toNat_toUInt16,
    UInt16.reduceToNat] at hNat
  apply UInt8.toNat_inj.1
  omega

theorem exists_of_mem_freeSlots {s : UInt8} {count : Nat} {address : UInt16}
    (h : address ∈ freeSlots s count) :
    ∃ i < count, address = Registers.stackSlot (s - UInt8.ofNat i) := by
  induction count generalizing s with
  | zero => cases h
  | succ count ih =>
    rcases List.mem_cons.1 h with rfl | hRest
    · exact ⟨0, Nat.zero_lt_succ count, congrArg Registers.stackSlot (UInt8.sub_zero s).symm⟩
    · obtain ⟨i, hi, rfl⟩ := ih hRest
      refine ⟨i + 1, Nat.succ_lt_succ hi, congrArg Registers.stackSlot ?_⟩
      rw [UInt8.ofNat_add]
      grind

theorem stackSlot_notMem_freeSlots (s : UInt8) {count : Nat} (h : count < 256) :
    Registers.stackSlot s ∉ freeSlots (s - 1) count := by
  intro hMem
  obtain ⟨i, hi, hSlot⟩ := exists_of_mem_freeSlots hMem
  have hEq := congrArg UInt8.toNat (stackSlot_inj hSlot)
  have hs := s.toNat_lt
  simp only [UInt8.toNat_sub, UInt8.toNat_ofNat', UInt8.reduceToNat] at hEq
  omega

/-! ### Pushing -/

theorem byteAt_pushed (memory : FlatMemory) {s : UInt8} {values : List UInt8} {address : UInt16}
    (h : address ∉ freeSlots s values.length) :
    (memory.pushed s values).byteAt address = memory.byteAt address := by
  induction values generalizing s memory with
  | nil => rfl
  | cons value rest ih =>
    obtain ⟨hHead, hRest⟩ := not_or.1 fun hEither => h (List.mem_cons.2 hEither)
    refine (ih _ hRest).trans ?_
    exact (FlatMemory.byteAt_write memory _ address value).trans (if_neg hHead)

theorem byteAt_pushed_offStack (memory : FlatMemory) {s : UInt8} {values : List UInt8}
    {address : UInt16} (h : ¬OnStack address) :
    (memory.pushed s values).byteAt address = memory.byteAt address :=
  byteAt_pushed memory fun hMem => h (onStack_of_mem_freeSlots hMem)

/-! ### Pulling -/

theorem pulls_two (s a b : UInt8) : pulls s [a, b] =
    [.read (Registers.stackSlot (s + 1)) a, .read (Registers.stackSlot (s + 2)) b] := by
  have hUp : s + 1 + 1 = s + 2 := by grind
  rw [← hUp]
  rfl

theorem pulls_three (s a b c : UInt8) : pulls s [a, b, c] =
    [.read (Registers.stackSlot (s + 1)) a, .read (Registers.stackSlot (s + 2)) b,
      .read (Registers.stackSlot (s + 3)) c] := by
  have hTwo : s + 1 + 1 = s + 2 := by grind
  have hThree : s + 1 + 1 + 1 = s + 3 := by grind
  rw [← hThree, ← hTwo]
  rfl

theorem pulls_concat (s : UInt8) (values : List UInt8) (last : UInt8) :
    pulls s (values ++ [last]) =
      pulls s values ++ [.read (Registers.stackSlot (s + UInt8.ofNat values.length + 1)) last] := by
  induction values generalizing s with
  | nil =>
    show pulls s [last] = [.read (Registers.stackSlot (s + 0 + 1)) last]
    rw [UInt8.add_zero]
    rfl
  | cons value rest ih =>
    have hPlace : s + 1 + UInt8.ofNat rest.length + 1 =
        s + UInt8.ofNat (rest.length + 1) + 1 := by
      rw [UInt8.ofNat_add]
      grind
    show Access.read _ value :: pulls (s + 1) (rest ++ [last]) = _
    rw [ih, hPlace]
    rfl

theorem foldl_pulls (memory : FlatMemory) (s : UInt8) (values : List UInt8) :
    (pulls s values).foldl FlatMemory.afterAccess memory = memory := by
  induction values generalizing s with
  | nil => rfl
  | cons value rest ih => exact ih (s + 1)

/-- The stack is last in, first out: pulling as many bytes as were pushed gives them in reverse. -/
theorem reverse_of_pulls {memory : FlatMemory} {s : UInt8} {values pulled : List UInt8}
    (hLength : pulled.length = values.length) (hFits : values.length ≤ 256)
    (h : (memory.pushed s values).Answers (pulls (s - UInt8.ofNat values.length) pulled)) :
    pulled = values.reverse := by
  induction values generalizing s memory pulled with
  | nil => exact List.length_eq_zero_iff.1 hLength
  | cons value rest ih =>
    obtain ⟨front, last, rfl⟩ : ∃ front last, pulled = front ++ [last] := by
      refine ⟨pulled.dropLast, pulled.getLast ?_, (List.dropLast_concat_getLast _).symm⟩
      exact List.ne_nil_of_length_pos (hLength ▸ Nat.zero_lt_succ _)
    have hFront : front.length = rest.length := by
      simpa only [List.length_append, List.length_cons, List.length_nil, Nat.zero_add,
        Nat.add_right_cancel_iff] using hLength
    have hDown : s - UInt8.ofNat (value :: rest).length = s - 1 - UInt8.ofNat rest.length := by
      rw [List.length_cons, UInt8.ofNat_add]
      grind
    have hTop : s - 1 - UInt8.ofNat rest.length + UInt8.ofNat front.length + 1 = s := by
      rw [hFront]
      grind
    rw [hDown, pulls_concat, hTop, FlatMemory.answers_append, foldl_pulls] at h
    obtain ⟨hRest, hLast, -⟩ := h
    have hRoom : rest.length < 256 := hFits
    -- What was pushed first lies at `s` itself, where the later pushes do not reach.
    have hValue : last = value := by
      refine hLast.trans ((byteAt_pushed _ (stackSlot_notMem_freeSlots s hRoom)).trans ?_)
      exact (FlatMemory.byteAt_write memory _ _ value).trans (if_pos rfl)
    rw [ih hFront (Nat.le_of_lt hRoom) hRest, hValue, List.reverse_cons]

/-! ### Vectors -/

/-- An interrupt loads its vector as it was before the pushes. -/
theorem vector_bytes {memory : FlatMemory} {s : UInt8} {values : List UInt8} {vector : UInt16}
    {low high : UInt8} (hLow : ¬OnStack vector) (hHigh : ¬OnStack (vector + 1))
    (h : memory.Answers (pushes s values ++ [.read vector low, .read (vector + 1) high])) :
    low = memory.byteAt vector ∧ high = memory.byteAt (vector + 1) := by
  obtain ⟨-, rfl, rfl, -⟩ := (FlatMemory.answers_append _ _ _).1 h
  exact ⟨byteAt_pushed_offStack memory hLow, byteAt_pushed_offStack memory hHigh⟩

theorem irqVector_offStack : ¬OnStack irqVector ∧ ¬OnStack (irqVector + 1) := by
  show pageOf irqVector ≠ 1 ∧ pageOf (irqVector + 1) ≠ 1
  decide

theorem nmiVector_offStack : ¬OnStack nmiVector ∧ ¬OnStack (nmiVector + 1) := by
  show pageOf nmiVector ≠ 1 ∧ pageOf (nmiVector + 1) ≠ 1
  decide

end Famicom.Cpu
