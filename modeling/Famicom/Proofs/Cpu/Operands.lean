import Famicom.Proofs.Cpu.Stack
import Famicom.Proofs.Cpu.Writes

/-!
# Operands and the program counter

Which bytes an instruction is read from, where each mode finds its operand and where the program
goes on, written down as arithmetic on plain numbers.  On flat memory a step makes these accesses,
in this order and no others, and continues there.
-/

namespace Famicom.Cpu

/-! ### Addresses as numbers -/

namespace FlatMemory

/-- The byte at an address; addresses count modulo the size of memory. -/
def byte (memory : FlatMemory) (n : Nat) : Nat :=
  (memory.byteAt (UInt16.ofNat n)).toNat

def word (memory : FlatMemory) (low high : Nat) : Nat :=
  memory.byte low + 256 * memory.byte high

def reading (memory : FlatMemory) (n : Nat) : Access :=
  .read (UInt16.ofNat n) (memory.byteAt (UInt16.ofNat n))

def readings (memory : FlatMemory) (start count : Nat) : List Access :=
  (List.range count).map fun i => memory.reading (start + i)

end FlatMemory

def slotAbove (s : UInt8) (places : Nat) : Nat :=
  256 + (s.toNat + places) % 256

/-! ### The documented operands -/

/-- The pointer in page zero that a mode goes through. -/
def Mode.pointer? (memory : FlatMemory) (r : Registers) : Mode → Option Nat
  | .indexedIndirect => some ((memory.byte (r.pc.toNat + 1) + r.x.toNat) % 256)
  | .indirectIndexed => some (memory.byte (r.pc.toNat + 1))
  | _ => none

/-- The reads of the pointer: its second byte follows the first within page zero. -/
def Mode.pointerReads (memory : FlatMemory) (r : Registers) (mode : Mode) : List Access :=
  match mode.pointer? memory r with
  | some pointer => [memory.reading pointer, memory.reading ((pointer + 1) % 256)]
  | none => []

def Mode.address (memory : FlatMemory) (r : Registers) : Mode → Nat
  | .immediate => (r.pc.toNat + 1) % 65536
  | .zeroPage => memory.byte (r.pc.toNat + 1)
  | .zeroPageX => (memory.byte (r.pc.toNat + 1) + r.x.toNat) % 256
  | .zeroPageY => (memory.byte (r.pc.toNat + 1) + r.y.toNat) % 256
  | .absolute => memory.word (r.pc.toNat + 1) (r.pc.toNat + 2)
  | .absoluteX => (memory.word (r.pc.toNat + 1) (r.pc.toNat + 2) + r.x.toNat) % 65536
  | .absoluteY => (memory.word (r.pc.toNat + 1) (r.pc.toNat + 2) + r.y.toNat) % 65536
  | .indexedIndirect =>
    let pointer := (memory.byte (r.pc.toNat + 1) + r.x.toNat) % 256
    memory.word pointer ((pointer + 1) % 256)
  | .indirectIndexed =>
    let pointer := memory.byte (r.pc.toNat + 1)
    (memory.word pointer ((pointer + 1) % 256) + r.y.toNat) % 65536

/-! ### The documented instructions -/

def Instruction.size : Instruction → Nat
  | .read _ mode | .store _ mode | .modify _ mode => mode.size
  | .branch _ _ => 2
  | .jump | .jumpIndirect | .call => 3
  | _ => 1

def Registers.jumpPointer (memory : FlatMemory) (r : Registers) : Nat :=
  memory.word (r.pc.toNat + 1) (r.pc.toNat + 2)

/-- Where the second byte of an indirect jump's target lies: within the page of the first. -/
def Registers.jumpPointerHigh (memory : FlatMemory) (r : Registers) : Nat :=
  r.jumpPointer memory / 256 * 256 + (r.jumpPointer memory + 1) % 256

/-- What an instruction accesses apart from its own bytes, in order. -/
def Instruction.dataAccesses (memory : FlatMemory) (r : Registers) : Instruction → List Access
  | .read _ mode =>
    if mode = .immediate then []
    else mode.pointerReads memory r ++ [memory.reading (mode.address memory r)]
  | .store register mode => mode.pointerReads memory r ++
      [.write (UInt16.ofNat (mode.address memory r)) (r.get register)]
  | .modify op mode => mode.pointerReads memory r ++
      [memory.reading (mode.address memory r),
        .write (UInt16.ofNat (mode.address memory r)) (op.result
          (memory.byteAt (UInt16.ofNat (mode.address memory r))) (r.flag .carry))]
  | .pushAccumulator => pushes r.s [r.a]
  | .pushStatus => pushes r.s [r.pushedStatus true]
  | .pullAccumulator | .pullStatus => [memory.reading (slotAbove r.s 1)]
  | .jumpIndirect =>
    [memory.reading (r.jumpPointer memory), memory.reading (r.jumpPointerHigh memory)]
  | .call => pushes r.s [highByte (r.pc + 2), lowByte (r.pc + 2)]
  | .subroutineReturn => [memory.reading (slotAbove r.s 1), memory.reading (slotAbove r.s 2)]
  | .interruptReturn => [memory.reading (slotAbove r.s 1), memory.reading (slotAbove r.s 2),
      memory.reading (slotAbove r.s 3)]
  | .softwareInterrupt =>
    pushes r.s [highByte (r.pc + 2), lowByte (r.pc + 2), r.pushedStatus true] ++
      [memory.reading 0xFFFE, memory.reading 0xFFFF]
  | .modifyAccumulator _ | .internal _ | .branch _ _ | .jump => []

def Instruction.nextPc (memory : FlatMemory) (r : Registers) (instruction : Instruction) : Nat :=
  match instruction with
  | .branch flag on =>
    if r.flag flag = on then
      ((r.pc.toNat + 2 + Int.bmod (memory.byte (r.pc.toNat + 1)) 256) % 65536).toNat
    else (r.pc.toNat + 2) % 65536
  | .jump | .call => memory.word (r.pc.toNat + 1) (r.pc.toNat + 2)
  | .jumpIndirect => memory.word (r.jumpPointer memory) (r.jumpPointerHigh memory)
  | .subroutineReturn => (memory.word (slotAbove r.s 1) (slotAbove r.s 2) + 1) % 65536
  | .interruptReturn => memory.word (slotAbove r.s 2) (slotAbove r.s 3)
  | .softwareInterrupt => memory.word 0xFFFE 0xFFFF
  | instruction => (r.pc.toNat + instruction.size) % 65536

/-! ### From words to numbers -/

theorem ofNat_pc (pc : UInt16) (k : Nat) :
    UInt16.ofNat (pc.toNat + k) = pc + UInt16.ofNat k := by
  rw [UInt16.ofNat_add, UInt16.ofNat_toNat]

theorem ofNat_byte (b : UInt8) : UInt16.ofNat b.toNat = b.toUInt16 := by
  simp

theorem toNat_byte_add (b index : UInt8) : (b.toNat + index.toNat) % 256 = (b + index).toNat :=
  (UInt8.toNat_add b index).symm

theorem ofNat_byte_succ (b : UInt8) : UInt16.ofNat ((b.toNat + 1) % 256) = (b + 1).toUInt16 := by
  rw [← ofNat_byte, UInt8.toNat_add]
  rfl

theorem ofNat_word (low high : UInt8) :
    UInt16.ofNat (low.toNat + 256 * high.toNat) = wordOf low high := by
  rw [← wordOf_toNat, UInt16.ofNat_toNat]

theorem ofNat_word_add (low high index : UInt8) :
    UInt16.ofNat ((low.toNat + 256 * high.toNat + index.toNat) % 65536) =
      wordOf low high + index.toUInt16 := by
  rw [← wordOf_toNat, ← ofNat_byte]
  apply UInt16.toNat_inj.1
  simp

theorem ofNat_slotAbove (s : UInt8) (places : Nat) :
    UInt16.ofNat (slotAbove s places) = Registers.stackSlot (s + UInt8.ofNat places) := by
  apply UInt16.toNat_inj.1
  simp [slotAbove, Registers.stackSlot]

theorem Mode.Finds.address_eq {mode : Mode} {r : Registers} {reads : List Access}
    {base address : UInt16} {memory : FlatMemory} (found : mode.Finds r reads base address)
    (answers : memory.Answers reads) : UInt16.ofNat (mode.address memory r) = address := by
  cases found with
  | immediate =>
    apply UInt16.toNat_inj.1
    simp [Mode.address]
  | zeroPage low =>
    obtain ⟨rfl, -⟩ := answers
    simp only [Mode.address, FlatMemory.byte, ofNat_pc, ofNat_byte]
    rfl
  | zeroPageX low | zeroPageY low =>
    obtain ⟨rfl, -⟩ := answers
    simp only [Mode.address, FlatMemory.byte, ofNat_pc, toNat_byte_add, ofNat_byte]
    rfl
  | absolute low high =>
    obtain ⟨rfl, rfl, -⟩ := answers
    simp only [Mode.address, FlatMemory.word, FlatMemory.byte, ofNat_pc, ofNat_word]
    rfl
  | absoluteX low high | absoluteY low high =>
    obtain ⟨rfl, rfl, -⟩ := answers
    simp only [Mode.address, FlatMemory.word, FlatMemory.byte, ofNat_pc, ofNat_word_add]
    rfl
  | indexedIndirect pointer low high =>
    obtain ⟨rfl, rfl, rfl, -⟩ := answers
    simp only [Mode.address, FlatMemory.word, FlatMemory.byte, ofNat_pc, toNat_byte_add,
      ofNat_byte, ofNat_byte_succ, ofNat_word]
    rfl
  | indirectIndexed pointer low high =>
    obtain ⟨rfl, rfl, rfl, -⟩ := answers
    simp only [Mode.address, FlatMemory.word, FlatMemory.byte, ofNat_pc, ofNat_byte,
      ofNat_byte_succ, ofNat_word_add]
    rfl

theorem reading_pc (memory : FlatMemory) (pc : UInt16) (k : Nat) :
    memory.reading (pc.toNat + k) =
      .read (pc + UInt16.ofNat k) (memory.byteAt (pc + UInt16.ofNat k)) := by
  rw [FlatMemory.reading, ofNat_pc]

theorem readings_one (memory : FlatMemory) (pc : UInt16) :
    memory.readings pc.toNat 1 = [.read pc (memory.byteAt pc)] := by
  show [memory.reading pc.toNat] = _
  rw [FlatMemory.reading, UInt16.ofNat_toNat]

theorem readings_two (memory : FlatMemory) (pc : UInt16) :
    memory.readings pc.toNat 2 =
      [.read pc (memory.byteAt pc), .read (pc + 1) (memory.byteAt (pc + 1))] := by
  show memory.readings pc.toNat 1 ++ [memory.reading (pc.toNat + 1)] = _
  rw [readings_one, reading_pc]
  rfl

theorem readings_three (memory : FlatMemory) (pc : UInt16) :
    memory.readings pc.toNat 3 =
      [.read pc (memory.byteAt pc), .read (pc + 1) (memory.byteAt (pc + 1)),
        .read (pc + 2) (memory.byteAt (pc + 2))] := by
  show memory.readings pc.toNat 2 ++ [memory.reading (pc.toNat + 2)] = _
  rw [readings_two, reading_pc]
  rfl

/-- The reads on the way to an operand are those of the instruction's own bytes, then those of its
pointer. -/
theorem Mode.Finds.reads_eq {mode : Mode} {r : Registers} {reads : List Access}
    {base address : UInt16} {memory : FlatMemory} (found : mode.Finds r reads base address)
    (answers : memory.Answers reads) (hMode : mode ≠ .immediate) :
    .read r.pc (memory.byteAt r.pc) :: reads =
      memory.readings r.pc.toNat mode.size ++ mode.pointerReads memory r := by
  have hTwo := readings_two memory r.pc
  have hThree := readings_three memory r.pc
  cases found with
  | immediate => exact absurd rfl hMode
  | zeroPage low | zeroPageX low | zeroPageY low =>
    obtain ⟨rfl, -⟩ := answers
    exact hTwo.symm
  | absolute low high | absoluteX low high | absoluteY low high =>
    obtain ⟨rfl, rfl, -⟩ := answers
    exact hThree.symm
  | indexedIndirect pointer low high =>
    obtain ⟨rfl, rfl, rfl, -⟩ := answers
    simp only [Mode.size, hTwo, Mode.pointerReads, Mode.pointer?, FlatMemory.reading,
      FlatMemory.byte, ofNat_pc, toNat_byte_add, ofNat_byte, ofNat_byte_succ]
    rfl
  | indirectIndexed pointer low high =>
    obtain ⟨rfl, rfl, rfl, -⟩ := answers
    simp only [Mode.size, hTwo, Mode.pointerReads, Mode.pointer?, FlatMemory.reading,
      FlatMemory.byte, ofNat_pc, ofNat_byte, ofNat_byte_succ]
    rfl

theorem Mode.Finds.foldl_eq {mode : Mode} {r : Registers} {reads : List Access}
    {base address : UInt16} (found : mode.Finds r reads base address) (memory : FlatMemory) :
    reads.foldl FlatMemory.afterAccess memory = memory := by
  cases found <;> rfl

/-! ### Instructions on flat memory -/

/-- The instruction keeps its result in memory proper, not in its own operand. -/
def Instruction.storesProperly : Instruction → Bool
  | .store _ mode | .modify _ mode => mode != .immediate
  | _ => true

theorem signExtend_toNat (offset : UInt8) :
    (signExtend offset).toNat =
      if offset.toNat < 128 then offset.toNat else offset.toNat + 65280 := by
  have hOffset := offset.toNat_lt
  unfold signExtend
  by_cases hSmall : offset.toNat < 128
  · rw [if_pos (UInt8.lt_iff_toNat_lt.2 hSmall), if_pos hSmall, UInt8.toNat_toUInt16]
  · have hLarge : ¬offset < 0x80 := fun h => hSmall (UInt8.lt_iff_toNat_lt.1 h)
    rw [if_neg hLarge, if_neg hSmall, UInt16.toNat_sub, UInt8.toNat_toUInt16]
    simp only [UInt16.reduceToNat]
    omega

theorem branchTarget_toNat (r : Registers) (offset : UInt8) :
    (r.branchTarget offset).toNat =
      ((r.pc.toNat + 2 + Int.bmod offset.toNat 256) % 65536).toNat := by
  have hOffset := offset.toNat_lt
  unfold Registers.branchTarget
  rw [Int.bmod_def, UInt16.toNat_add, UInt16.toNat_add, signExtend_toNat]
  simp only [UInt16.reduceToNat]
  split <;> omega

theorem past_pc_toNat (r : Registers) (bytes : Nat) :
    (r.past bytes).pc.toNat = (r.pc.toNat + bytes) % 65536 := by
  simp [Registers.past]

theorem ofNat_jumpPointer (memory : FlatMemory) (r : Registers) :
    UInt16.ofNat (r.jumpPointer memory) =
      wordOf (memory.byteAt (r.pc + 1)) (memory.byteAt (r.pc + 2)) := by
  simp only [Registers.jumpPointer, FlatMemory.word, FlatMemory.byte, ofNat_pc, ofNat_word]
  rfl

theorem ofNat_jumpPointerHigh (memory : FlatMemory) (r : Registers) :
    UInt16.ofNat (r.jumpPointerHigh memory) =
      nextInPage (wordOf (memory.byteAt (r.pc + 1)) (memory.byteAt (r.pc + 2))) := by
  have hPointer : (wordOf (memory.byteAt (r.pc + 1)) (memory.byteAt (r.pc + 2))).toNat =
      r.jumpPointer memory := by
    rw [wordOf_toNat]
    simp only [Registers.jumpPointer, FlatMemory.word, FlatMemory.byte, ofNat_pc]
    rfl
  have hBound := UInt16.toNat_lt (wordOf (memory.byteAt (r.pc + 1)) (memory.byteAt (r.pc + 2)))
  apply UInt16.toNat_inj.1
  rw [nextInPage, wordOf_toNat, UInt16.toNat_ofNat', Registers.jumpPointerHigh, ← hPointer]
  simp [lowByte, highByte]
  omega

theorem Instruction.Runs.accesses_eq {instruction : Instruction} {r next : Registers}
    {log : List Access} {extra : Nat} {memory : FlatMemory}
    (runs : instruction.Runs r log extra next) (answers : memory.Answers log)
    (hStores : instruction.storesProperly = true) :
    .read r.pc (memory.byteAt r.pc) :: log =
      memory.readings r.pc.toNat instruction.size ++ instruction.dataAccesses memory r := by
  have hOne := readings_one memory r.pc
  have hTwo := readings_two memory r.pc
  have hThree := readings_three memory r.pc
  cases runs with
  | @read mode reads base address op value found =>
    obtain ⟨hReads, rfl, -⟩ := (FlatMemory.answers_append _ _ _).1 answers
    rw [found.foldl_eq]
    -- An immediate operand is one of the instruction's own bytes and is not read again.
    by_cases hMode : mode = .immediate
    · subst hMode
      cases found
      exact hTwo.symm
    · rw [← List.cons_append, found.reads_eq hReads hMode, List.append_assoc]
      simp only [Instruction.size, Instruction.dataAccesses, if_neg hMode, FlatMemory.reading,
        found.address_eq hReads]
  | @store mode reads base address register found =>
    have hMode : mode ≠ .immediate := bne_iff_ne.1 hStores
    have hReads := ((FlatMemory.answers_append _ _ _).1 answers).1
    rw [← List.cons_append, found.reads_eq hReads hMode, List.append_assoc]
    simp only [Instruction.size, Instruction.dataAccesses, found.address_eq hReads]
  | @modify mode reads base address op value found =>
    have hMode : mode ≠ .immediate := bne_iff_ne.1 hStores
    obtain ⟨hReads, rfl, -⟩ := (FlatMemory.answers_append _ _ _).1 answers
    rw [found.foldl_eq, ← List.cons_append, found.reads_eq hReads hMode, List.append_assoc]
    simp only [Instruction.size, Instruction.dataAccesses, FlatMemory.reading,
      found.address_eq hReads]
  | modifyAccumulator op => exact hOne.symm
  | internal op => exact hOne.symm
  | pushAccumulator => exact congrArg (· ++ pushes r.s [r.a]) hOne.symm
  | pushStatus => exact congrArg (· ++ pushes r.s [r.pushedStatus true]) hOne.symm
  | pullAccumulator value | pullStatus value =>
    obtain ⟨rfl, -⟩ := answers
    simp only [Instruction.size, Instruction.dataAccesses, FlatMemory.reading, hOne,
      ofNat_slotAbove]
    rfl
  | branchTaken offset | branchPassed offset =>
    obtain ⟨rfl, -⟩ := answers
    exact hTwo.symm
  | jump low high =>
    obtain ⟨rfl, rfl, -⟩ := answers
    exact hThree.symm
  | jumpIndirect low high targetLow targetHigh =>
    obtain ⟨rfl, rfl, rfl, rfl, -⟩ := answers
    simp only [Instruction.size, Instruction.dataAccesses, FlatMemory.reading, hThree,
      ofNat_jumpPointer, ofNat_jumpPointerHigh]
    rfl
  | call low high =>
    obtain ⟨rfl, rfl, -⟩ := answers
    exact congrArg (· ++ pushes r.s [highByte (r.pc + 2), lowByte (r.pc + 2)]) hThree.symm
  | subroutineReturn low high =>
    rw [pulls_two] at answers ⊢
    obtain ⟨rfl, rfl, -⟩ := answers
    simp only [Instruction.size, Instruction.dataAccesses, FlatMemory.reading, hOne,
      ofNat_slotAbove]
    rfl
  | interruptReturn status low high =>
    rw [pulls_three] at answers ⊢
    obtain ⟨rfl, rfl, rfl, -⟩ := answers
    simp only [Instruction.size, Instruction.dataAccesses, FlatMemory.reading, hOne,
      ofNat_slotAbove]
    rfl
  | softwareInterrupt low high =>
    obtain ⟨rfl, rfl⟩ := vector_bytes irqVector_offStack.1 irqVector_offStack.2 answers
    simp only [Instruction.size, Instruction.dataAccesses, FlatMemory.reading, hOne]
    rfl

theorem word_toNat (memory : FlatMemory) {low high : Nat} {lowAt highAt : UInt16}
    (hLow : UInt16.ofNat low = lowAt) (hHigh : UInt16.ofNat high = highAt) :
    (wordOf (memory.byteAt lowAt) (memory.byteAt highAt)).toNat = memory.word low high := by
  rw [wordOf_toNat, ← hLow, ← hHigh]
  rfl

theorem Instruction.Runs.pc_eq {instruction : Instruction} {r next : Registers}
    {log : List Access} {extra : Nat} {memory : FlatMemory}
    (runs : instruction.Runs r log extra next) (answers : memory.Answers log) :
    next.pc.toNat = instruction.nextPc memory r := by
  have hNear (k : Nat) := ofNat_pc r.pc k
  have hAbove (k : Nat) := ofNat_slotAbove r.s k
  cases runs with
  | read op value found =>
    rw [op.apply_pc]
    exact past_pc_toNat r _
  | store register found => exact past_pc_toNat r _
  | modify op value found =>
    rw [op.apply_pc]
    exact past_pc_toNat r _
  | modifyAccumulator op =>
    show (op.apply r.a (r.past 1)).2.pc.toNat = _
    rw [op.apply_pc]
    exact past_pc_toNat r 1
  | internal op =>
    rw [op.apply_pc]
    exact past_pc_toNat r 1
  | pushAccumulator => exact past_pc_toNat r 1
  | pushStatus => exact past_pc_toNat r 1
  | pullAccumulator value => exact past_pc_toNat r 1
  | pullStatus value => exact past_pc_toNat r 1
  | branchTaken offset taken =>
    obtain ⟨rfl, -⟩ := answers
    simp only [Instruction.nextPc, if_pos taken, FlatMemory.byte, hNear]
    exact branchTarget_toNat r _
  | branchPassed offset passed =>
    simp only [Instruction.nextPc, if_neg passed]
    exact past_pc_toNat r 2
  | jump low high =>
    obtain ⟨rfl, rfl, -⟩ := answers
    exact word_toNat memory (hNear 1) (hNear 2)
  | jumpIndirect low high targetLow targetHigh =>
    obtain ⟨rfl, rfl, rfl, rfl, -⟩ := answers
    exact word_toNat memory (ofNat_jumpPointer memory r) (ofNat_jumpPointerHigh memory r)
  | call low high =>
    obtain ⟨rfl, rfl, -⟩ := answers
    exact word_toNat memory (hNear 1) (hNear 2)
  | subroutineReturn low high =>
    rw [pulls_two] at answers
    obtain ⟨rfl, rfl, -⟩ := answers
    have hWord := word_toNat memory (hAbove 1) (hAbove 2)
    exact (UInt16.toNat_add _ 1).trans (congrArg (fun n => (n + 1) % 65536) hWord)
  | interruptReturn status low high =>
    rw [pulls_three] at answers
    obtain ⟨-, rfl, rfl, -⟩ := answers
    exact word_toNat memory (hAbove 2) (hAbove 3)
  | softwareInterrupt low high =>
    obtain ⟨rfl, rfl⟩ := vector_bytes irqVector_offStack.1 irqVector_offStack.2 answers
    exact word_toNat memory rfl rfl

/-! ### Steps on flat memory -/

def Opcode.storesProperly : Opcode → Bool
  | .timed instruction _ => instruction.storesProperly
  | .jam => true
  | .unsupported => true

theorem storesProperly_matrix (high low : Fin 16) :
    ((Opcode.matrix.get high).get low).storesProperly = true := by
  revert high low
  decide +kernel

theorem storesProperly_of_ofByte {code : UInt8} {instruction : Instruction} {base : Nat}
    (h : Opcode.ofByte code = .timed instruction base) : instruction.storesProperly = true := by
  have hProper : (Opcode.ofByte code).storesProperly = true := storesProperly_matrix _ _
  rw [h] at hProper
  exact hProper

/-- A step on flat memory without an interrupt reads the bytes of its instruction, each once and
one after another, makes the accesses of its operand and no others, and goes on where the
instruction says. -/
theorem step_operands (cpu : Cpu) (memory : FlatMemory) {instruction : Instruction} {base : Nat}
    (hFree : cpu.pending? = none)
    (hCode : Opcode.ofByte (memory.byteAt cpu.registers.pc) = .timed instruction base) :
    cpu.step.accesses memory =
        memory.readings cpu.registers.pc.toNat instruction.size ++
          instruction.dataAccesses memory cpu.registers ∧
      ∃ cycles next, (cpu.step.run memory).1 = .ok (cycles, next) ∧
        next.registers.pc.toNat = instruction.nextPc memory cpu.registers := by
  obtain ⟨log, extra, next, hExecutes⟩ := exists_executes hFree hCode
  refine ⟨?_, _, _, hExecutes.result, hExecutes.runs.pc_eq hExecutes.answers⟩
  rw [hExecutes.accesses]
  exact hExecutes.runs.accesses_eq hExecutes.answers (storesProperly_of_ofByte hCode)

/-- Memory that is `$FF` throughout but for the opcode of `LDA ($nn),Y` in its last byte. -/
def lastByteProgram : FlatMemory :=
  Bus.write (FlatMemory.filled 0xFF) 0xFFFF 0xB1

theorem byteAt_lastByteProgram (address : UInt16) :
    lastByteProgram.byteAt address = if address = 0xFFFF then 0xB1 else 0xFF := by
  rw [lastByteProgram, FlatMemory.byteAt_write, FlatMemory.byteAt_filled]

def atLastByte : Cpu :=
  { powerOn with registers := { Registers.initial with pc := 0xFFFF, y := 1 } }

/-- The operand byte, the pointer and the operand all wrap around. -/
theorem step_operands_last_byte :
    atLastByte.step.accesses lastByteProgram =
        [.read 0xFFFF 0xB1, .read 0 0xFF, .read 0xFF 0xFF, .read 0 0xFF, .read 0 0xFF] ∧
      ∃ cycles next, (atLastByte.step.run lastByteProgram).1 = .ok (cycles, next) ∧
        next.registers.pc.toNat = 1 := by
  have hCode : Opcode.ofByte (lastByteProgram.byteAt atLastByte.registers.pc) =
      .timed (.read (.load .a) .indirectIndexed) 5 := by
    rw [byteAt_lastByteProgram]
    rfl
  have hStep := step_operands atLastByte lastByteProgram (by decide) hCode
  simp only [Instruction.size, Mode.size, readings_two, Instruction.dataAccesses,
    Mode.pointerReads, Mode.pointer?, Mode.address, FlatMemory.word, FlatMemory.reading,
    FlatMemory.byte, Instruction.nextPc, byteAt_lastByteProgram] at hStep
  exact hStep

end Famicom.Cpu
