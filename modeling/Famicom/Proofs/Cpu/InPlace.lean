import Famicom.Proofs.Cpu.Chains
import Famicom.Proofs.Cpu.Writes

/-!
# Shifts in memory

Shifts and rotations of bytes that lie in flat memory, one instruction to a byte.  The bytes may
lie anywhere outside the code, as long as no two of them have the same address.
-/

namespace Famicom.Cpu

/-! ### Code in flat memory -/

def Avoids (address pc : UInt16) (code : List UInt8) : Prop :=
  ∀ k < code.length, pc + UInt16.ofNat k ≠ address

theorem Avoids.head {address pc : UInt16} {byte : UInt8} {rest : List UInt8}
    (h : Avoids address pc (byte :: rest)) : address ≠ pc := by
  have hFirst : pc + 0 ≠ address := h 0 (Nat.zero_lt_succ _)
  rw [UInt16.add_zero] at hFirst
  exact hFirst.symm

theorem Avoids.append_right {address pc : UInt16} (first : List UInt8) {second : List UInt8}
    (h : Avoids address pc (first ++ second)) :
    Avoids address (pc + UInt16.ofNat first.length) second := by
  intro k hk
  have hPlace := h (first.length + k) (by rw [List.length_append]; omega)
  rwa [UInt16.ofNat_add, ← UInt16.add_assoc] at hPlace

theorem reads_write {memory : FlatMemory} {address pc : UInt16} {code : List UInt8}
    (h : Reads memory pc code) (hAvoids : Avoids address pc code) (value : UInt8) :
    Reads (Bus.write memory address value : FlatMemory) pc code := by
  induction code generalizing pc with
  | nil => trivial
  | cons byte rest ih =>
    obtain ⟨hByte, hRest⟩ := h
    refine ⟨?_, ih hRest (Avoids.append_right [byte] hAvoids)⟩
    exact (FlatMemory.byteAt_write memory address pc value).trans
      ((if_neg hAvoids.head.symm).trans hByte)

theorem reads_append_right {memory : FlatMemory} {pc : UInt16} (first : List UInt8)
    {second : List UInt8} (h : Reads memory pc (first ++ second)) :
    Reads memory (pc + UInt16.ofNat first.length) second := by
  induction first generalizing pc with
  | nil =>
    show Reads memory (pc + 0) second
    rwa [UInt16.add_zero]
  | cons byte rest ih =>
    have hPlace : pc + UInt16.ofNat (rest.length + 1) = pc + 1 + UInt16.ofNat rest.length := by
      rw [Nat.add_comm, UInt16.ofNat_add, ← UInt16.add_assoc]
      rfl
    rw [List.length_cons, hPlace]
    exact ih h.2

def FlatMemory.load (memory : FlatMemory) : UInt16 → List UInt8 → FlatMemory
  | _, [] => memory
  | pc, byte :: rest => Bus.write (memory.load (pc + 1) rest) pc byte

theorem byteAt_load (memory : FlatMemory) {address pc : UInt16} {code : List UInt8}
    (h : Avoids address pc code) :
    (memory.load pc code).byteAt address = memory.byteAt address := by
  induction code generalizing pc with
  | nil => rfl
  | cons byte rest ih =>
    rw [FlatMemory.load, FlatMemory.byteAt_write, if_neg h.head]
    exact ih (Avoids.append_right [byte] h)

theorem reads_load (memory : FlatMemory) {pc : UInt16} {code : List UInt8}
    (h : code.length ≤ 65536) : Reads (memory.load pc code) pc code := by
  induction code generalizing pc with
  | nil => trivial
  | cons byte rest ih =>
    refine ⟨?_, reads_write (ih (Nat.le_of_succ_le h)) ?_ byte⟩
    · exact (FlatMemory.byteAt_write _ pc pc byte).trans (if_pos rfl)
    · -- The code does not come round to its first byte again.
      intro k hk hSame
      have hNat := congrArg UInt16.toNat hSame
      have hPc := pc.toNat_lt
      rw [List.length_cons] at h
      simp only [UInt16.toNat_add, UInt16.toNat_ofNat', UInt16.reduceToNat] at hNat
      omega

/-! ### Places -/

/-- How an instruction names a byte of memory that it works on. -/
inductive Place where
  | zeroPage (low : UInt8)
  | zeroPageX (low : UInt8)
  | absolute (low high : UInt8)
  | absoluteX (low high : UInt8)

/-- The opcodes of a shift lie in two rows of the matrix. -/
def Shift.row : Shift → UInt8
  | .left => 0x00
  | .leftThrough => 0x20
  | .right => 0x40
  | .rightThrough => 0x60

namespace Place

def mode : Place → Mode
  | .zeroPage _ => .zeroPage
  | .zeroPageX _ => .zeroPageX
  | .absolute _ _ => .absolute
  | .absoluteX _ _ => .absoluteX

def address (x : UInt8) : Place → UInt16
  | .zeroPage low => low.toUInt16
  | .zeroPageX low => (low + x).toUInt16
  | .absolute low high => wordOf low high
  | .absoluteX low high => wordOf low high + x.toUInt16

def code (s : Shift) : Place → List UInt8
  | .zeroPage low => [s.row + 0x06, low]
  | .zeroPageX low => [s.row + 0x16, low]
  | .absolute low high => [s.row + 0x0E, low, high]
  | .absoluteX low high => [s.row + 0x1E, low, high]

theorem length_code (s : Shift) (place : Place) : (place.code s).length = place.mode.size := by
  cases place <;> rfl

theorem decodes (s : Shift) (place : Place) {memory : FlatMemory} {pc : UInt16} {rest : List UInt8}
    (h : Reads memory pc (place.code s ++ rest)) :
    ∃ base, Opcode.ofByte (Bus.read memory pc).1 = .timed (.modify s.op place.mode) base := by
  have hZeroPage : Opcode.ofByte (s.row + 0x06) = .timed (.modify s.op .zeroPage) 5 := by
    cases s <;> rfl
  have hZeroPageX : Opcode.ofByte (s.row + 0x16) = .timed (.modify s.op .zeroPageX) 6 := by
    cases s <;> rfl
  have hAbsolute : Opcode.ofByte (s.row + 0x0E) = .timed (.modify s.op .absolute) 6 := by
    cases s <;> rfl
  have hAbsoluteX : Opcode.ofByte (s.row + 0x1E) = .timed (.modify s.op .absoluteX) 7 := by
    cases s <;> rfl
  cases place with
  | zeroPage low => exact ⟨5, h.1 ▸ hZeroPage⟩
  | zeroPageX low => exact ⟨6, h.1 ▸ hZeroPageX⟩
  | absolute low high => exact ⟨6, h.1 ▸ hAbsolute⟩
  | absoluteX low high => exact ⟨7, h.1 ▸ hAbsoluteX⟩

theorem execute_run (s : Shift) (place : Place) (r : Registers) {memory : FlatMemory}
    {rest : List UInt8} (h : Reads memory r.pc (place.code s ++ rest)) :
    ((Instruction.modify s.op place.mode).execute (r.past 1)).run memory =
      ((0, (s.op.apply (memory.byteAt (place.address r.x)) (r.past place.mode.size)).2),
        Bus.write memory (place.address r.x)
          (s.op.result (memory.byteAt (place.address r.x)) (r.flag .carry))) := by
  have hTwo : { r with pc := r.pc + 1 + 1 } = r.past 2 := by rw [add_two]; rfl
  have hThree : { r with pc := r.pc + 1 + 1 + 1 } = r.past 3 := by rw [add_three]; rfl
  cases place with
  | zeroPage low =>
    obtain ⟨-, hLow, -⟩ := h
    cases hLow
    show _ = ((0, (s.op.apply _ (r.past 2)).2), _)
    rw [← hTwo]
    rfl
  | zeroPageX low =>
    obtain ⟨-, hLow, -⟩ := h
    cases hLow
    show _ = ((0, (s.op.apply _ (r.past 2)).2), _)
    rw [← hTwo]
    rfl
  | absolute low high =>
    obtain ⟨-, hLow, hHigh, -⟩ := h
    cases hLow
    cases hHigh
    show _ = ((0, (s.op.apply _ (r.past 3)).2), _)
    rw [← hThree]
    rfl
  | absoluteX low high =>
    obtain ⟨-, hLow, hHigh, -⟩ := h
    cases hLow
    cases hHigh
    show _ = ((0, (s.op.apply _ (r.past 3)).2), _)
    rw [← hThree]
    rfl

end Place

/-! ### One byte -/

/-- A step shifts the byte, and the code behind it is executed next unless the byte is part of
it. -/
theorem Ready.shift {cpu : Cpu} {memory : FlatMemory} {s : Shift} {place : Place}
    {rest : List UInt8} (h : Ready (cpu, memory) (place.code s ++ rest))
    (hAvoids : Avoids (place.address cpu.registers.x) cpu.registers.pc (place.code s ++ rest)) :
    ∃ next after, advance? (cpu, memory) = some (next, after) ∧ Ready (next, after) rest ∧
      next.registers = (s.op.apply (memory.byteAt (place.address cpu.registers.x))
        (cpu.registers.past place.mode.size)).2 ∧
      ∀ address, after.byteAt address =
        if address = place.address cpu.registers.x then
          s.op.result (memory.byteAt address) (cpu.registers.flag .carry)
        else memory.byteAt address := by
  obtain ⟨base, hDecodes⟩ := place.decodes s h.code
  refine ⟨_, _, advance?_of_execute h.free hDecodes (place.execute_run s cpu.registers h.code),
    ⟨?_, ?_⟩, rfl, ?_⟩
  · have hFree : cpu.pending? = none := h.free
    rw [← hFree]
    exact pending?_of_masked rfl rfl (masked_modifyOp s.op _ _)
  · have hCode := reads_write (reads_append_right _ h.code) (hAvoids.append_right _)
      (s.op.result (memory.byteAt (place.address cpu.registers.x)) (cpu.registers.flag .carry))
    rw [place.length_code] at hCode
    show Reads _ (s.op.apply _ (cpu.registers.past place.mode.size)).2.pc rest
    rw [ModifyOp.apply_pc]
    exact hCode
  · intro address
    refine (FlatMemory.byteAt_write memory _ address _).trans ?_
    split
    · rename_i hSame
      rw [hSame]
      rfl
    · rfl

/-! ### Byte after byte -/

def shiftCode (shifts : Nat → Shift) (places : Nat → Place) (n : Nat) : List UInt8 :=
  (List.range n).flatMap fun i => (places i).code (shifts i)

theorem shiftCode_succ (shifts : Nat → Shift) (places : Nat → Place) (n : Nat) :
    shiftCode shifts places (n + 1) = (places 0).code (shifts 0) ++
      shiftCode (fun i => shifts (i + 1)) (fun i => places (i + 1)) n := by
  rw [shiftCode, List.range_succ_eq_map, List.flatMap_cons, List.flatMap_map]
  rfl

/-- The bytes of a number have different addresses, none of them in the code. -/
structure Spread (n : Nat) (addresses : Nat → UInt16) (pc : UInt16) (code : List UInt8) :
    Prop where
  apart : ∀ i < n, ∀ j < n, addresses i = addresses j → i = j
  avoids : ∀ i < n, Avoids (addresses i) pc code

/-- Memory in which the first bytes of a number have been replaced and nothing else. -/
structure Replaced (n : Nat) (addresses : Nat → UInt16) (values : Nat → UInt8)
    (memory after : FlatMemory) : Prop where
  values : ∀ i < n, after.byteAt (addresses i) = values i
  others : ∀ address, (∀ i < n, address ≠ addresses i) →
    after.byteAt address = memory.byteAt address

theorem Spread.tail {n : Nat} {addresses : Nat → UInt16} {pc : UInt16} {first rest : List UInt8}
    (h : Spread (n + 1) addresses pc (first ++ rest)) :
    Spread n (fun i => addresses (i + 1)) (pc + UInt16.ofNat first.length) rest where
  apart i hi j hj hSame :=
    Nat.succ.inj (h.apart (i + 1) (Nat.succ_lt_succ hi) (j + 1) (Nat.succ_lt_succ hj) hSame)
  avoids i hi := (h.avoids (i + 1) (Nat.succ_lt_succ hi)).append_right first

theorem Replaced.cons {n : Nat} {addresses : Nat → UInt16} {values : Nat → UInt8}
    {memory middle after : FlatMemory}
    (hApart : ∀ i < n, addresses (i + 1) ≠ addresses 0)
    (hFirst : ∀ address, middle.byteAt address =
      if address = addresses 0 then values 0 else memory.byteAt address)
    (h : Replaced n (fun i => addresses (i + 1)) (fun i => values (i + 1)) middle after) :
    Replaced (n + 1) addresses values memory after where
  values i hi := by
    cases i with
    | zero =>
      rw [h.others _ fun i hi => (hApart i hi).symm, hFirst, if_pos rfl]
    | succ i => exact h.values i (Nat.lt_of_succ_lt_succ hi)
  others address hAddress := by
    rw [h.others address fun i hi => hAddress (i + 1) (Nat.succ_lt_succ hi), hFirst,
      if_neg (hAddress 0 (Nat.zero_lt_succ n))]

theorem shifted_succ (values : Nat → UInt8) (shifts : Nat → Shift) (start : Bool) (i : Nat) :
    shifted values shifts start (i + 1) =
      shifted (fun i => values (i + 1)) (fun i => shifts (i + 1)) ((shifts 0).out (values 0))
        i := by
  cases i <;> rfl

theorem Ready.shifts {n : Nat} {shifts : Nat → Shift} {places : Nat → Place} {cpu : Cpu}
    {memory : FlatMemory} {values : Nat → UInt8}
    (h : Ready (cpu, memory) (shiftCode shifts places n))
    (hSpread : Spread n (fun i => (places i).address cpu.registers.x) cpu.registers.pc
      (shiftCode shifts places n))
    (hValues : ∀ i < n, memory.byteAt ((places i).address cpu.registers.x) = values i) :
    ∃ last after, advanceBy? n (cpu, memory) = some (last, after) ∧
      Replaced n (fun i => (places i).address cpu.registers.x)
        (shifted values shifts (cpu.registers.flag .carry)) memory after ∧
      last.registers.flag .carry = carryBefore values shifts (cpu.registers.flag .carry) n ∧
      ∀ i, i + 1 = n → (last.registers.flag .negative = true ↔
        128 ≤ (shifted values shifts (cpu.registers.flag .carry) i).toNat) := by
  -- The first byte is shifted, and the rest is the same for the bytes behind it.
  induction n generalizing cpu memory shifts places values with
  | zero => exact ⟨cpu, memory, rfl, ⟨fun _ hi => absurd hi (Nat.not_lt_zero _), fun _ _ => rfl⟩,
      rfl, fun i hi => absurd hi (Nat.succ_ne_zero i)⟩
  | succ n ih =>
    rw [shiftCode_succ] at h hSpread
    obtain ⟨next, middle, hStep, hReady, hRegisters, hMiddle⟩ :=
      h.shift (hSpread.avoids 0 (Nat.zero_lt_succ n))
    have hFirst := hValues 0 (Nat.zero_lt_succ n)
    have hX : next.registers.x = cpu.registers.x := by
      rw [hRegisters, ModifyOp.apply_x]
      rfl
    have hPc : next.registers.pc =
        cpu.registers.pc + UInt16.ofNat ((places 0).code (shifts 0)).length := by
      rw [hRegisters, ModifyOp.apply_pc, Place.length_code]
      rfl
    have hCarry : next.registers.flag .carry = (shifts 0).out (values 0) := by
      rw [hRegisters, Shift.carry_apply, hFirst]
    -- The byte just shifted is none of the others.
    have hOther : ∀ i < n, (places (i + 1)).address cpu.registers.x ≠
        (places 0).address cpu.registers.x := by
      intro i hi hSame
      exact absurd (hSpread.apart (i + 1) (Nat.succ_lt_succ hi) 0 (Nat.zero_lt_succ n) hSame)
        (Nat.succ_ne_zero i)
    have hRest : ∀ i < n, middle.byteAt ((places (i + 1)).address next.registers.x) =
        values (i + 1) := by
      intro i hi
      rw [hX, hMiddle, if_neg (hOther i hi)]
      exact hValues (i + 1) (Nat.succ_lt_succ hi)
    have hChanged (address : UInt16) : middle.byteAt address =
        if address = (places 0).address cpu.registers.x then
          shifted values shifts (cpu.registers.flag .carry) 0
        else memory.byteAt address := by
      rw [hMiddle]
      split
      · rename_i hHere
        rw [hHere, hFirst]
        rfl
      · rfl
    have hTail := hSpread.tail
    rw [← hPc, ← hX] at hTail
    obtain ⟨last, after, hSteps, hReplaced, hLast, hNegative⟩ := ih hReady hTail hRest
    rw [hCarry, hX] at hReplaced
    rw [hCarry] at hLast hNegative
    refine ⟨last, after, ?_, ?_, ?_, ?_⟩
    · rw [advanceBy?, hStep]
      exact hSteps
    · refine Replaced.cons hOther hChanged ?_
      simpa only [shifted_succ] using hReplaced
    · rw [hLast]
      cases n <;> rfl
    · intro i hi
      obtain rfl : i = n := Nat.succ.inj hi
      cases i with
      | zero =>
        cases hSteps
        rw [hRegisters, Shift.negative_apply, hFirst]
        rfl
      | succ i => rw [hNegative i rfl, shifted_succ]

/-! ### Numbers in memory -/

theorem Spread.reverse {n : Nat} {addresses : Nat → UInt16} {pc : UInt16} {code : List UInt8}
    (h : Spread n addresses pc code) : Spread n (fun i => addresses (n - 1 - i)) pc code where
  apart i hi j hj hSame := by
    have hPlace := h.apart (n - 1 - i) (by omega) (n - 1 - j) (by omega) hSame
    omega
  avoids i hi := h.avoids (n - 1 - i) (by omega)

theorem Replaced.reverse {n : Nat} {addresses : Nat → UInt16} {values : Nat → UInt8}
    {memory after : FlatMemory}
    (h : Replaced n (fun i => addresses (n - 1 - i)) (fun i => values (n - 1 - i)) memory after) :
    Replaced n addresses values memory after where
  values i hi := by
    have hBack : n - 1 - (n - 1 - i) = i := by omega
    have hValue := h.values (n - 1 - i) (by omega)
    rwa [hBack] at hValue
  others address hAddress := h.others address fun i hi => hAddress (n - 1 - i) (by omega)

theorem Replaced.congr {n : Nat} {addresses : Nat → UInt16} {values values' : Nat → UInt8}
    {memory after : FlatMemory} (hValues : ∀ i < n, values i = values' i)
    (h : Replaced n addresses values memory after) : Replaced n addresses values' memory after where
  values i hi := (h.values i hi).trans (hValues i hi)
  others := h.others

/-- What the instructions leave of a number in flat memory and in the flags.  The bytes of the
number lie in some places, apart from each other and from the code. -/
structure ChainsInMemory (cpu : Cpu) (memory : FlatMemory) : Prop where
  double : ∀ (n a : Nat) (places : Nat → Place), 0 < n → a < 256 ^ n →
    Ready (cpu, memory) (shiftCode leftward places n) →
    Spread n (fun i => (places i).address cpu.registers.x) cpu.registers.pc
      (shiftCode leftward places n) →
    (∀ i < n, memory.byteAt ((places i).address cpu.registers.x) = digit a i) →
    ∃ last after, advanceBy? n (cpu, memory) = some (last, after) ∧
      Replaced n (fun i => (places i).address cpu.registers.x) (digit (2 * a % 256 ^ n))
        memory after ∧
      (last.registers.flag .carry = true ↔ 256 ^ n ≤ 2 * a) ∧
      (last.registers.flag .negative = true ↔ 128 ≤ (digit (2 * a % 256 ^ n) (n - 1)).toNat)
  half : ∀ (n a : Nat) (places : Nat → Place), 0 < n → a < 256 ^ n →
    Ready (cpu, memory) (shiftCode rightward (fun i => places (n - 1 - i)) n) →
    Spread n (fun i => (places i).address cpu.registers.x) cpu.registers.pc
      (shiftCode rightward (fun i => places (n - 1 - i)) n) →
    (∀ i < n, memory.byteAt ((places i).address cpu.registers.x) = digit a i) →
    ∃ last after, advanceBy? n (cpu, memory) = some (last, after) ∧
      Replaced n (fun i => (places i).address cpu.registers.x) (digit (a / 2)) memory after ∧
      (last.registers.flag .carry = true ↔ a % 2 = 1) ∧
      (last.registers.flag .negative = true ↔ 128 ≤ (digit (a / 2) 0).toNat)

theorem chains_in_memory (cpu : Cpu) (memory : FlatMemory) : ChainsInMemory cpu memory where
  double n a places hn ha h hSpread hValues := by
    obtain ⟨last, after, hSteps, hReplaced, hCarry, hNegative⟩ := h.shifts hSpread hValues
    obtain ⟨k, rfl⟩ := Nat.exists_eq_succ_of_ne_zero (Nat.ne_of_gt hn)
    refine ⟨last, after, hSteps, hReplaced.congr ?_, ?_, ?_⟩
    · intro i hi
      rw [shifted_leftward, digit_mod _ hi]
    · rw [hCarry, carryBefore, out_leftward]
      exact Shift.top_double ha
    · rw [hNegative k rfl, shifted_leftward, digit_mod _ (by omega)]
      rfl
  half n a places hn ha h hSpread hValues := by
    have hReversed : ∀ i < n, memory.byteAt ((places (n - 1 - i)).address cpu.registers.x) =
        digit a (n - 1 - i) := fun i hi => hValues (n - 1 - i) (by omega)
    obtain ⟨last, after, hSteps, hReplaced, hCarry, hNegative⟩ :=
      h.shifts hSpread.reverse hReversed
    obtain ⟨k, rfl⟩ := Nat.exists_eq_succ_of_ne_zero (Nat.ne_of_gt hn)
    have hLowest : k + 1 - 1 - k = 0 := by omega
    refine ⟨last, after, hSteps, (hReplaced.congr ?_).reverse, ?_, ?_⟩
    · intro i hi
      exact shifted_rightward ha _ hi
    · rw [hCarry, carryBefore, out_rightward, hLowest]
      exact Shift.low_half a
    · rw [hNegative k rfl, shifted_rightward ha _ (Nat.lt_succ_self k), hLowest]

/-- Sums, differences, doubles and halves of numbers of any length, on any bus that answers with the
code, and doubles and halves of numbers in flat memory. -/
theorem carry_chains :
    (∀ {β : Type} [Bus β] (state : Cpu × β), ChainsInAccumulator state) ∧
      ∀ (cpu : Cpu) (memory : FlatMemory), ChainsInMemory cpu memory :=
  ⟨chains_in_accumulator, chains_in_memory⟩

/-- A processor in decimal mode, about to execute the code at `$8000`. -/
def atCode : Cpu :=
  { powerOn with registers := { Registers.initial with pc := 0x8000, p := Flag.decimal.mask } }

theorem ready_atCode (memory : FlatMemory) {code : List UInt8} (h : code.length ≤ 65536) :
    Ready (atCode, memory.load 0x8000 code) code :=
  ⟨rfl, reads_load memory h⟩

def wordPlaces (i : Nat) : Place :=
  .zeroPage (0x10 + UInt8.ofNat i)

theorem carry_chains_words :
    Yields (atCode, (FlatMemory.filled 0).load 0x8000 ((addition 2 0x7FFF 1).flatMap Line.code)) 5
        0x80 (fun last => last.flag .carry = false ∧ last.flag .overflow = true) ∧
      ∃ last after, advanceBy? 2 (atCode, ((FlatMemory.filled 0).load 0x10 [0xC1, 0x80]).load 0x8000
          (shiftCode leftward wordPlaces 2)) = some (last, after) ∧
        after.byteAt 0x10 = 0x82 ∧ after.byteAt 0x11 = 0x01 ∧
        last.registers.flag .carry = true ∧ last.registers.flag .negative = false := by
  obtain ⟨hAccumulator, hMemory⟩ := carry_chains
  constructor
  · have hSum := (hAccumulator (atCode, (FlatMemory.filled 0).load 0x8000
      ((addition 2 0x7FFF 1).flatMap Line.code))).sum 2 0x7FFF 1 1 (by decide) (by decide)
      (ready_atCode _ (by decide)) (by decide)
    refine hSum.mono ?_
    intro last hFlags
    obtain ⟨hCarry, hOverflow⟩ := hFlags rfl
    refine ⟨?_, hOverflow.2 (by unfold FitsSigned; decide)⟩
    rw [← Bool.not_eq_true, hCarry]
    decide
  · have hSpread : Spread 2 (fun i => (wordPlaces i).address atCode.registers.x)
        atCode.registers.pc (shiftCode leftward wordPlaces 2) :=
      ⟨by decide, by unfold Avoids; decide⟩
    obtain ⟨hLow, hHigh, -⟩ : Reads ((FlatMemory.filled 0).load 0x10 [0xC1, 0x80]) 0x10
      [0xC1, 0x80] := reads_load _ (by decide)
    have hValues : ∀ i < 2, (((FlatMemory.filled 0).load 0x10 [0xC1, 0x80]).load 0x8000
        (shiftCode leftward wordPlaces 2)).byteAt ((wordPlaces i).address atCode.registers.x) =
          digit 0x80C1 i := by
      intro i hi
      refine (byteAt_load _ (hSpread.avoids i hi)).trans ?_
      match i, hi with
      | 0, _ => exact hLow
      | 1, _ => exact hHigh
    obtain ⟨last, after, hSteps, hReplaced, hCarry, hNegative⟩ := (hMemory _ _).double 2 0x80C1
      wordPlaces (by decide) (by decide) (ready_atCode _ (by decide)) hSpread hValues
    refine ⟨last, after, hSteps, hReplaced.values 0 (by decide), hReplaced.values 1 (by decide),
      hCarry.2 (by decide), ?_⟩
    rw [← Bool.not_eq_true, hNegative]
    decide

end Famicom.Cpu
