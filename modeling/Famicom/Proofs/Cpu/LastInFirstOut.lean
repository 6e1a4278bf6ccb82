import Famicom.Proofs.Cpu.Stack

/-!
# Last in, first out

Pushing some values and pulling as many gives them back in reverse, wherever the stack pointer
stands: for bytes until the page is full, for words until half as many fill it.  The slots below
the stack pointer hold what was pushed and nothing else changes.
-/

namespace Famicom.Cpu

variable {α : Type}

def pullEach (pull : Registers → BusM (α × Registers)) :
    Nat → Registers → BusM (List α × Registers)
  | 0, r => return ([], r)
  | count + 1, r => do
    let (value, r) ← pull r
    let (rest, r) ← pullEach pull count r
    return (value :: rest, r)

def pushedBytes (words : List UInt16) : List UInt8 :=
  words.flatMap fun w => [highByte w, lowByte w]

/-- Words read from bytes, low byte first. -/
def joinedWords : List UInt8 → List UInt16
  | low :: high :: rest => wordOf low high :: joinedWords rest
  | _ => []

/-- The bytes above a stack pointer, in the order in which they are pulled. -/
def FlatMemory.above (memory : FlatMemory) : UInt8 → Nat → List UInt8
  | _, 0 => []
  | s, count + 1 => memory.byteAt (Registers.stackSlot (s + 1)) :: memory.above (s + 1) count

/-! ### Pushing -/

theorem sub_ofNat_succ (s : UInt8) (count : Nat) :
    s - UInt8.ofNat (count + 1) = s - 1 - UInt8.ofNat count := by
  rw [UInt8.ofNat_add]
  grind

theorem run_foldlM_push (values : List UInt8) (r : Registers) (memory : FlatMemory) :
    (values.foldlM push r).run memory =
      ({ r with s := r.s - UInt8.ofNat values.length }, memory.pushed r.s values) := by
  induction values generalizing r memory with
  | nil =>
    show (r, memory) = ({ r with s := r.s - 0 }, memory)
    rw [UInt8.sub_zero]
  | cons value rest ih =>
    rw [List.foldlM_cons, List.length_cons, sub_ofNat_succ]
    exact ih { r with s := r.s - 1 } _

theorem foldlM_pushWord (words : List UInt16) (r : Registers) :
    words.foldlM pushWord r = (pushedBytes words).foldlM push r := by
  induction words generalizing r with
  | nil => rfl
  | cons w rest ih =>
    have hBytes : pushedBytes (w :: rest) = highByte w :: lowByte w :: pushedBytes rest := rfl
    simp only [hBytes, List.foldlM_cons, pushWord, bind_assoc, ih]

theorem nodup_freeSlots (s : UInt8) {count : Nat} (hFits : count ≤ 256) :
    (freeSlots s count).Nodup := by
  induction count generalizing s with
  | zero => exact List.nodup_nil
  | succ count ih =>
    exact List.nodup_cons.2 ⟨stackSlot_notMem_freeSlots s hFits, ih (s - 1) (Nat.le_of_lt hFits)⟩

theorem map_byteAt_pushed (memory : FlatMemory) (s : UInt8) {values : List UInt8}
    (hFits : values.length ≤ 256) :
    (freeSlots s values.length).map (memory.pushed s values).byteAt = values := by
  induction values generalizing s memory with
  | nil => rfl
  | cons value rest ih =>
    have hRoom : rest.length < 256 := hFits
    have hRest := ih (Bus.write memory (Registers.stackSlot s) value) (s - 1) (Nat.le_of_lt hRoom)
    have hHead : (memory.pushed s (value :: rest)).byteAt (Registers.stackSlot s) = value := by
      refine (byteAt_pushed _ (stackSlot_notMem_freeSlots s hRoom)).trans ?_
      exact (FlatMemory.byteAt_write memory _ _ value).trans (if_pos rfl)
    rw [List.length_cons, freeSlots, List.map_cons, hHead]
    exact congrArg (value :: ·) hRest

/-! ### Pulling -/

theorem run_pullEach_succ {β : Type} [Bus β] (pull : Registers → BusM (α × Registers))
    (count : Nat) (r : Registers) (bus : β) :
    (pullEach pull (count + 1) r).run bus =
      let first := (pull r).run bus
      let rest := (pullEach pull count first.1.2).run first.2
      ((first.1.1 :: rest.1.1, rest.1.2), rest.2) := by
  refine (BusM.run_bind _ _ bus).trans ?_
  exact BusM.run_bind _ _ _

theorem add_ofNat_succ (s : UInt8) (count : Nat) :
    s + UInt8.ofNat (count + 1) = s + 1 + UInt8.ofNat count := by
  rw [UInt8.ofNat_add]
  grind

theorem run_pullEach_pull (count : Nat) (r : Registers) (memory : FlatMemory) :
    (pullEach pull count r).run memory =
      ((memory.above r.s count, { r with s := r.s + UInt8.ofNat count }), memory) := by
  induction count generalizing r with
  | zero =>
    show (([], r), memory) = (([], { r with s := r.s + 0 }), memory)
    rw [UInt8.add_zero]
  | succ count ih =>
    have hFirst : (pull r).run memory =
        ((memory.byteAt (Registers.stackSlot (r.s + 1)), { r with s := r.s + 1 }), memory) := rfl
    rw [run_pullEach_succ, hFirst, add_ofNat_succ]
    simp only [ih]
    rfl

theorem run_pullEach_pullWord (count : Nat) (r : Registers) (memory : FlatMemory) :
    (pullEach pullWord count r).run memory =
      ((joinedWords (memory.above r.s (2 * count)),
        { r with s := r.s + UInt8.ofNat (2 * count) }), memory) := by
  induction count generalizing r with
  | zero =>
    show (([], r), memory) = (([], { r with s := r.s + 0 }), memory)
    rw [UInt8.add_zero]
  | succ count ih =>
    have hFirst : (pullWord r).run memory =
        ((wordOf (memory.byteAt (Registers.stackSlot (r.s + 1)))
          (memory.byteAt (Registers.stackSlot (r.s + 1 + 1))),
          { r with s := r.s + 1 + 1 }), memory) := rfl
    rw [run_pullEach_succ, hFirst, Nat.mul_succ, add_ofNat_succ, add_ofNat_succ]
    simp only [ih]
    rfl

theorem answers_above (memory : FlatMemory) (s : UInt8) (count : Nat) :
    memory.Answers (pulls s (memory.above s count)) := by
  induction count generalizing s with
  | zero => trivial
  | succ count ih => exact ⟨rfl, ih (s + 1)⟩

theorem length_above (memory : FlatMemory) (s : UInt8) (count : Nat) :
    (memory.above s count).length = count := by
  induction count generalizing s with
  | zero => rfl
  | succ count ih => exact congrArg (· + 1) (ih (s + 1))

theorem above_pushed (memory : FlatMemory) (s : UInt8) {values : List UInt8}
    (hFits : values.length ≤ 256) :
    (memory.pushed s values).above (s - UInt8.ofNat values.length) values.length =
      values.reverse :=
  reverse_of_pulls (length_above _ _ _) hFits (answers_above _ _ _)

/-! ### Words -/

theorem length_pushedBytes (words : List UInt16) :
    (pushedBytes words).length = 2 * words.length := by
  induction words with
  | nil => rfl
  | cons w rest ih =>
    show (pushedBytes rest).length + 2 = 2 * (rest.length + 1)
    omega

theorem joinedWords_flatMap (words : List UInt16) :
    joinedWords (words.flatMap fun w => [lowByte w, highByte w]) = words := by
  induction words with
  | nil => rfl
  | cons w rest ih =>
    show wordOf (lowByte w) (highByte w) :: joinedWords (rest.flatMap _) = w :: rest
    rw [wordOf_lowByte_highByte, ih]

theorem joinedWords_reverse (words : List UInt16) :
    joinedWords (pushedBytes words).reverse = words.reverse := by
  rw [pushedBytes, List.reverse_flatMap]
  exact joinedWords_flatMap words.reverse

/-! ### Pushing and pulling -/

def pushThenPull (push : Registers → α → BusM Registers)
    (pull : Registers → BusM (α × Registers)) (values : List α) (r : Registers) :
    BusM (List α × Registers) := do
  let r ← values.foldlM push r
  pullEach pull values.length r

/-- What pushing some values as bytes and pulling as many does to flat memory: they come back in
reverse and all registers are as they were, the slots below the stack pointer, all different and on
page one, hold the bytes in the order of the pushes, and no other byte has changed. -/
structure Unstacks (push : Registers → α → BusM Registers)
    (pull : Registers → BusM (α × Registers)) (r : Registers) (memory : FlatMemory)
    (values : List α) (bytes : List UInt8) : Prop where
  pulled : ((pushThenPull push pull values r).run memory).1 = (values.reverse, r)
  slots : (freeSlots r.s bytes.length).map
    (FlatMemory.byteAt ((pushThenPull push pull values r).run memory).2) = bytes
  onPage : ∀ address ∈ freeSlots r.s bytes.length, OnStack address
  apart : (freeSlots r.s bytes.length).Nodup
  frame : ∀ address ∉ freeSlots r.s bytes.length,
    FlatMemory.byteAt ((pushThenPull push pull values r).run memory).2 address =
      memory.byteAt address

theorem Unstacks.of_run {push : Registers → α → BusM Registers}
    {pull : Registers → BusM (α × Registers)} {r : Registers} {memory : FlatMemory}
    {values : List α} {bytes : List UInt8} (hFits : bytes.length ≤ 256)
    (hRun : (pushThenPull push pull values r).run memory =
      ((values.reverse, r), memory.pushed r.s bytes)) :
    Unstacks push pull r memory values bytes where
  pulled := congrArg Prod.fst hRun
  slots := by
    rw [hRun]
    exact map_byteAt_pushed memory r.s hFits
  onPage := fun _ => onStack_of_mem_freeSlots
  apart := nodup_freeSlots r.s hFits
  frame := by
    intro address hOutside
    rw [hRun]
    exact byteAt_pushed memory hOutside

theorem sub_add_ofNat (r : Registers) (count : Nat) :
    { r with s := r.s - UInt8.ofNat count + UInt8.ofNat count } = r := by
  rw [UInt8.sub_add_cancel]

theorem run_pushThenPull_bytes {values : List UInt8} (hFits : values.length ≤ 256)
    (r : Registers) (memory : FlatMemory) :
    (pushThenPull push pull values r).run memory =
      ((values.reverse, r), memory.pushed r.s values) := by
  refine (BusM.run_bind _ _ memory).trans ?_
  rw [run_foldlM_push, run_pullEach_pull]
  dsimp only
  rw [above_pushed memory r.s hFits, sub_add_ofNat]

theorem run_pushThenPull_words {words : List UInt16} (hFits : words.length ≤ 128)
    (r : Registers) (memory : FlatMemory) :
    (pushThenPull pushWord pullWord words r).run memory =
      ((words.reverse, r), memory.pushed r.s (pushedBytes words)) := by
  have hBytes : (pushedBytes words).length ≤ 256 := by
    rw [length_pushedBytes]
    omega
  refine (BusM.run_bind _ _ memory).trans ?_
  rw [foldlM_pushWord, run_foldlM_push, run_pullEach_pullWord, ← length_pushedBytes]
  dsimp only
  rw [above_pushed memory r.s hBytes, joinedWords_reverse, sub_add_ofNat]

/-- The stack is a wrapping last in, first out store on page one: of bytes until the page is full,
of words until half as many fill it, whatever the stack pointer. -/
theorem stack_unwinds (r : Registers) (memory : FlatMemory) :
    (∀ values : List UInt8, values.length ≤ 256 → Unstacks push pull r memory values values) ∧
      ∀ words : List UInt16, words.length ≤ 128 →
        Unstacks pushWord pullWord r memory words (pushedBytes words) := by
  constructor
  · intro values hFits
    exact .of_run hFits (run_pushThenPull_bytes hFits r memory)
  · intro words hFits
    have hBytes : (pushedBytes words).length ≤ 256 := by
      rw [length_pushedBytes]
      omega
    exact .of_run hBytes (run_pushThenPull_words hFits r memory)

/-- The first word lies at both ends of the page, and a full page of bytes unwinds as well. -/
theorem stack_unwinds_across_page_end :
    let r := { Registers.initial with s := 0 }
    let memory := FlatMemory.filled 0xEA
    let words : List UInt16 := [0x1234, 0xABCD]
    let values := List.replicate 256 0x77
    words.length ≤ 128 ∧
      freeSlots r.s (pushedBytes words).length = [0x0100, 0x01FF, 0x01FE, 0x01FD] ∧
      ((pushThenPull pushWord pullWord words r).run memory).1 = ([0xABCD, 0x1234], r) ∧
      values.length ≤ 256 ∧ Unstacks push pull r memory values values := by
  intro r memory words values
  have hUnwinds := stack_unwinds r memory
  have hFull : values.length ≤ 256 := Nat.le_of_eq List.length_replicate
  have hWords : words.length ≤ 128 := by decide
  exact ⟨hWords, by decide, (hUnwinds.2 words hWords).pulled, hFull, hUnwinds.1 values hFull⟩

end Famicom.Cpu
