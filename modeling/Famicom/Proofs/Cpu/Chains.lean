import Famicom.Proofs.Cpu.StraightLine

/-!
# Carry chains

Sums, differences, doubles and halves of numbers of any length, worked out in the accumulator byte
by byte: what is left over passes from one byte to the next in the carry flag.
-/

namespace Famicom.Cpu

variable {β : Type} [Bus β]

/-! ### Programs -/

def rounds (round : Nat → List Line) (n : Nat) : List Line :=
  (List.range n).flatMap round

def addition (n a b : Nat) : List Line :=
  .carry false :: rounds (fun i => [.load (digit a i), .add (digit b i)]) n

def subtraction (n a b : Nat) : List Line :=
  .carry true :: rounds (fun i => [.load (digit a i), .subtract (digit b i)]) n

def leftward (i : Nat) : Shift :=
  if i = 0 then .left else .leftThrough

def rightward (i : Nat) : Shift :=
  if i = 0 then .right else .rightThrough

/-- From the lowest byte up. -/
def doubling (n a : Nat) : List Line :=
  rounds (fun i => [.load (digit a i), .shift (leftward i)]) n

/-- From the highest byte down. -/
def halving (n a : Nat) : List Line :=
  rounds (fun i => [.load (digit a (n - 1 - i)), .shift (rightward i)]) n

theorem rounds_succ (round : Nat → List Line) (k : Nat) :
    rounds round (k + 1) = rounds round k ++ round k := by
  rw [rounds, rounds, List.range_succ, List.flatMap_append]
  simp

theorem length_rounds {round : Nat → List Line} (hTwo : ∀ i, (round i).length = 2) (k : Nat) :
    (rounds round k).length = 2 * k := by
  induction k with
  | zero => rfl
  | succ k ih => rw [rounds_succ, List.length_append, ih, hTwo, Nat.mul_succ]

theorem rounds_prefix (round : Nat → List Line) {k n : Nat} (h : k ≤ n) :
    ∃ later, rounds round n = rounds round k ++ later := by
  obtain ⟨more, rfl⟩ := Nat.exists_eq_add_of_le h
  refine ⟨((List.range more).map (k + ·)).flatMap round, ?_⟩
  rw [rounds, List.range_add, List.flatMap_append]
  rfl

theorem Ready.rounds {state : Cpu × β} (first : List Line) {round : Nat → List Line} {k n : Nat}
    (h : Ready state ((first ++ Cpu.rounds round n).flatMap Line.code))
    (hTwo : ∀ i, (round i).length = 2) (hk : k ≤ n) :
    ∃ next, advanceBy? (first.length + 2 * k) state = some next ∧
      next.1.registers =
        (Cpu.rounds round k).foldl Line.after (first.foldl Line.after state.1.registers) := by
  obtain ⟨later, hLater⟩ := rounds_prefix round hk
  rw [hLater, ← List.append_assoc, List.flatMap_append] at h
  obtain ⟨next, hSteps, hRegisters, -⟩ := h.lines
  rw [List.length_append, length_rounds hTwo] at hSteps
  rw [List.foldl_append] at hRegisters
  exact ⟨next, hSteps, hRegisters⟩

/-! ### Sums -/

/-- A line that adds a byte, or does what adding it would do. -/
def Line.Adds (line : Line) (value : UInt8) : Prop :=
  ∀ r, line.after r = (Line.add value).after r

theorem carry_load (r : Registers) (value : UInt8) :
    ((Line.load value).after r).carry = r.carry := by
  rw [Registers.carry, Line.after, flag_load (by decide) (by decide)]
  rfl

theorem sums_round (r : Registers) {line : Line} {x y : UInt8} (h : line.Adds y) :
    ∃ r' : Registers, r'.a = x ∧ r'.carry = r.carry ∧
      r'.Sums y ([Line.load x, line].foldl Line.after r) := by
  refine ⟨((Line.load x).after r).past 2, rfl, carry_load r x, ?_⟩
  have hLast : [Line.load x, line].foldl Line.after r =
      (((Line.load x).after r).past 2).add y := h _
  rw [hLast]
  exact add_sums _ y

section

variable {a b n : Nat} {line : Nat → Line} (hLine : ∀ i < n, (line i).Adds (digit b i))

include hLine

theorem carry_rounds (r : Registers) {k : Nat} (hk : k ≤ n) :
    ((rounds (fun i => [.load (digit a i), line i]) k).foldl Line.after r).carry =
      carried a b r.carry k := by
  -- The carry is a quotient of the lower bytes, so the flag's two cases need not be told apart.
  induction k with
  | zero => exact (carried_zero a b r.carry).symm
  | succ k ih =>
    rw [rounds_succ, List.foldl_append]
    obtain ⟨r', hAccumulator, hCarry, hSums⟩ := sums_round
      ((rounds (fun i => [.load (digit a i), line i]) k).foldl Line.after r)
      (x := digit a k) (hLine k hk)
    rw [hSums.carry, hAccumulator, hCarry, ih (Nat.le_of_lt hk), carried_succ]

/-- The accumulator after a round is the byte of the sum, and after the last round the flags are
those of the whole sum. -/
theorem flags_rounds (r : Registers) (ha : a < 256 ^ n) (hb : b < 256 ^ n) {i : Nat} (hi : i < n) :
    ∃ last, (rounds (fun i => [.load (digit a i), line i]) (i + 1)).foldl Line.after r = last ∧
      last.a = digit (a + b + r.carry) i ∧ (last.flag .negative = true ↔ 128 ≤ last.a.toNat) ∧
      (i + 1 = n → (last.flag .carry = true ↔ 256 ^ n ≤ a + b + r.carry) ∧
        (last.flag .overflow = true ↔
          ¬FitsSigned n (signed n a + signed n b + (r.carry : Nat)))) := by
  obtain ⟨r', hAccumulator, hCarry, hSums⟩ := sums_round
    ((rounds (fun i => [.load (digit a i), line i]) i).foldl Line.after r)
    (x := digit a i) (hLine i hi)
  rw [carry_rounds hLine r (Nat.le_of_lt hi)] at hCarry
  refine ⟨_, rfl, ?_, ?_, ?_⟩
  · rw [rounds_succ, List.foldl_append, hSums.accumulator, hAccumulator, hCarry, digit_add]
  · rw [rounds_succ, List.foldl_append]
    exact hSums.negative
  · rintro rfl
    have hLast := carry_rounds (a := a) hLine r (Nat.le_refl (i + 1))
    rw [carried_eq ha hb (carry_le r)] at hLast
    refine ⟨?_, ?_⟩
    · rw [← carry_eq_one, hLast]
      split <;> simp_all
    · rw [fitsSigned_sum r.carry ha hb, rounds_succ, List.foldl_append, hSums.overflow,
        hAccumulator, hCarry]

end

/-- After some steps the accumulator holds a value, the negative flag is its top bit and the
registers meet a condition. -/
def Yields (state : Cpu × β) (count : Nat) (value : UInt8) (post : Registers → Prop) : Prop :=
  ∃ next, advanceBy? count state = some next ∧ next.1.registers.a = value ∧
    (next.1.registers.flag .negative = true ↔ 128 ≤ value.toNat) ∧ post next.1.registers

theorem yields_sum {state : Cpu × β} {a b n : Nat} {on : Bool} {line : Nat → Line}
    (hLine : ∀ i < n, (line i).Adds (digit b i)) (ha : a < 256 ^ n) (hb : b < 256 ^ n)
    (h : Ready state
      ((.carry on :: rounds (fun i => [.load (digit a i), line i]) n).flatMap Line.code))
    {i : Nat} (hi : i < n) :
    Yields state (1 + 2 * (i + 1)) (digit (a + b + if on then 1 else 0) i) fun last =>
      i + 1 = n →
        (last.flag .carry = true ↔ 256 ^ n ≤ a + b + if on then 1 else 0) ∧
        (last.flag .overflow = true ↔
          ¬FitsSigned n (signed n a + signed n b + ((if on then 1 else 0 : Nat) : Int))) := by
  have hCarry : ((Line.carry on).after state.1.registers).carry = if on then 1 else 0 := by
    rw [Registers.carry, Line.after, flag_setFlag_self]
  obtain ⟨next, hSteps, hRegisters⟩ := Ready.rounds [.carry on] h (fun _ => rfl) hi
  obtain ⟨last, hLast, hAccumulator, hNegative, hFlags⟩ :=
    flags_rounds hLine ((Line.carry on).after state.1.registers) ha hb hi
  rw [hCarry] at hAccumulator hFlags
  obtain rfl : next.1.registers = last := hRegisters.trans hLast
  exact ⟨next, hSteps, hAccumulator, hAccumulator ▸ hNegative, hFlags⟩

/-! ### Doubles and halves -/

variable (values : Nat → UInt8) (shifts : Nat → Shift)

/-- The carry flag before a round: what left the value of the round before. -/
def carryBefore (start : Bool) : Nat → Bool
  | 0 => start
  | i + 1 => (shifts i).out (values i)

def shifted (start : Bool) (i : Nat) : UInt8 :=
  (shifts i).op.result (values i) (carryBefore values shifts start i)

theorem shift_round (r : Registers) (x : UInt8) (s : Shift) :
    ∃ last, [Line.load x, .shift s].foldl Line.after r = last ∧
      last.a = s.op.result x (r.flag .carry) ∧ last.flag .carry = s.out x ∧
      (last.flag .negative = true ↔ 128 ≤ last.a.toNat) := by
  have hCarry : (((Line.load x).after r).past 1).flag .carry = r.flag .carry :=
    flag_load (by decide) (by decide) (r.past 2) .a x
  refine ⟨_, rfl, congrArg (s.op.result x) hCarry, s.carry_apply x _, ?_⟩
  exact s.negative_apply x (((Line.load x).after r).past 1)

theorem shift_rounds (r : Registers) (i : Nat) :
    ∃ last, (rounds (fun i => [.load (values i), .shift (shifts i)]) (i + 1)).foldl Line.after r =
        last ∧
      last.a = shifted values shifts (r.flag .carry) i ∧
      last.flag .carry = (shifts i).out (values i) ∧
      (last.flag .negative = true ↔ 128 ≤ last.a.toNat) := by
  -- What leaves a byte does not depend on what came in, so one round back is enough.
  have hBefore : ((rounds (fun i => [.load (values i), .shift (shifts i)]) i).foldl
      Line.after r).flag .carry = carryBefore values shifts (r.flag .carry) i := by
    cases i with
    | zero => rfl
    | succ i =>
      obtain ⟨last, hLast, -, hCarry, -⟩ := shift_round
        ((rounds (fun i => [.load (values i), .shift (shifts i)]) i).foldl Line.after r)
        (values i) (shifts i)
      rw [rounds_succ, List.foldl_append, hLast, hCarry, carryBefore]
  obtain ⟨last, hLast, hAccumulator, hFlags⟩ := shift_round
    ((rounds (fun i => [.load (values i), .shift (shifts i)]) i).foldl Line.after r)
    (values i) (shifts i)
  rw [hBefore] at hAccumulator
  refine ⟨last, ?_, hAccumulator, hFlags⟩
  rw [rounds_succ, List.foldl_append, hLast]

theorem yields_shifted {state : Cpu × β} {n : Nat}
    (h : Ready state
      ((rounds (fun i => [.load (values i), .shift (shifts i)]) n).flatMap Line.code))
    {i : Nat} (hi : i < n) :
    Yields state (2 * (i + 1))
      (shifted values shifts (state.1.registers.flag .carry) i) fun last =>
        last.flag .carry = (shifts i).out (values i) := by
  obtain ⟨next, hSteps, hRegisters⟩ := Ready.rounds [] h (fun _ => rfl) hi
  obtain ⟨last, hLast, hAccumulator, hCarry, hNegative⟩ :=
    shift_rounds values shifts state.1.registers i
  obtain rfl : next.1.registers = last := hRegisters.trans hLast
  rw [List.length_nil, Nat.zero_add] at hSteps
  exact ⟨next, hSteps, hAccumulator, hAccumulator ▸ hNegative, hCarry⟩

theorem out_leftward (i : Nat) (value : UInt8) : (leftward i).out value = anyBit value 0x80 := by
  unfold leftward
  split <;> rfl

theorem out_rightward (i : Nat) (value : UInt8) : (rightward i).out value = anyBit value 0x01 := by
  unfold rightward
  split <;> rfl

theorem shifted_leftward (a : Nat) (start : Bool) (i : Nat) :
    shifted (digit a) leftward start i = digit (2 * a) i := by
  cases i with
  | zero => exact Shift.left_digit a start
  | succ i =>
    rw [shifted, carryBefore, out_leftward]
    exact Shift.leftThrough_digit a i

theorem shifted_rightward {a n : Nat} (ha : a < 256 ^ n) (start : Bool) {i : Nat} (hi : i < n) :
    shifted (fun i => digit a (n - 1 - i)) rightward start i = digit (a / 2) (n - 1 - i) := by
  cases i with
  | zero =>
    have hTop : n - 1 - 0 + 1 = n := by omega
    exact Shift.right_digit (hTop.symm ▸ ha) start
  | succ i =>
    have hAbove : n - 1 - i = n - 1 - (i + 1) + 1 := by omega
    rw [shifted, carryBefore, out_rightward, hAbove]
    exact Shift.rightThrough_digit a (n - 1 - (i + 1))

/-! ### Numbers of any length -/

theorem Yields.mono {state : Cpu × β} {count : Nat} {value : UInt8} {post post' : Registers → Prop}
    (h : Yields state count value post) (himp : ∀ r, post r → post' r) :
    Yields state count value post' := by
  obtain ⟨next, hSteps, hValue, hNegative, hPost⟩ := h
  exact ⟨next, hSteps, hValue, hNegative, himp _ hPost⟩

/-- What the programs leave in the accumulator, byte after byte, and in the flags at the end. -/
structure ChainsInAccumulator (state : Cpu × β) : Prop where
  sum : ∀ n a b i, a < 256 ^ n → b < 256 ^ n →
    Ready state ((addition n a b).flatMap Line.code) → i < n →
    Yields state (1 + 2 * (i + 1)) (digit ((a + b) % 256 ^ n) i) fun last => i + 1 = n →
      (last.flag .carry = true ↔ 256 ^ n ≤ a + b) ∧
      (last.flag .overflow = true ↔ ¬FitsSigned n (signed n a + signed n b))
  difference : ∀ n a b i, a < 256 ^ n → b < 256 ^ n →
    Ready state ((subtraction n a b).flatMap Line.code) → i < n →
    Yields state (1 + 2 * (i + 1)) (digit ((a + 256 ^ n - b) % 256 ^ n) i) fun last => i + 1 = n →
      (last.flag .carry = true ↔ b ≤ a) ∧
      (last.flag .overflow = true ↔ ¬FitsSigned n (signed n a - signed n b))
  double : ∀ n a i, a < 256 ^ n → Ready state ((doubling n a).flatMap Line.code) → i < n →
    Yields state (2 * (i + 1)) (digit (2 * a % 256 ^ n) i) fun last => i + 1 = n →
      (last.flag .carry = true ↔ 256 ^ n ≤ 2 * a)
  half : ∀ n a i, a < 256 ^ n → Ready state ((halving n a).flatMap Line.code) → i < n →
    Yields state (2 * (i + 1)) (digit (a / 2) (n - 1 - i)) fun last => i + 1 = n →
      (last.flag .carry = true ↔ a % 2 = 1)

theorem yields_difference {state : Cpu × β} {n a b i : Nat} (ha : a < 256 ^ n) (hb : b < 256 ^ n)
    (h : Ready state ((subtraction n a b).flatMap Line.code)) (hi : i < n) :
    Yields state (1 + 2 * (i + 1)) (digit ((a + 256 ^ n - b) % 256 ^ n) i) fun last => i + 1 = n →
      (last.flag .carry = true ↔ b ≤ a) ∧
      (last.flag .overflow = true ↔ ¬FitsSigned n (signed n a - signed n b)) := by
  -- Subtracting is adding the complement and one.
  have hLine : ∀ i < n, (Line.subtract (digit b i)).Adds (digit (256 ^ n - 1 - b) i) := by
    intro i hi r
    rw [digit_complement hb hi]
    rfl
  have hSum : a + (256 ^ n - 1 - b) + 1 = a + 256 ^ n - b := by omega
  have hYields := yields_sum hLine ha (by omega) h hi
  simp only [if_true, hSum] at hYields
  rw [digit_mod _ hi]
  refine hYields.mono ?_
  intro last hFlags hLast
  obtain ⟨hCarry, hOverflow⟩ := hFlags hLast
  refine ⟨hCarry.trans ⟨fun _ => by omega, fun _ => by omega⟩, ?_⟩
  subst hLast
  have hSigned : signed (i + 1) a + signed (i + 1) (256 ^ (i + 1) - 1 - b) + ((1 : Nat) : Int) =
      signed (i + 1) a - signed (i + 1) b := by
    rw [signed_complement hb]
    omega
  rw [hOverflow, hSigned]

theorem chains_in_accumulator (state : Cpu × β) : ChainsInAccumulator state where
  sum n a b i ha hb h hi := by
    have hYields := yields_sum (fun _ _ _ => rfl) ha hb h hi
    simpa only [Bool.false_eq_true, if_false, Nat.add_zero, Int.natCast_zero, Int.add_zero,
      digit_mod _ hi] using hYields
  difference n a b i ha hb h hi := yields_difference ha hb h hi
  double n a i ha h hi := by
    have hYields := yields_shifted (digit a) leftward h hi
    rw [shifted_leftward, ← digit_mod _ hi] at hYields
    refine hYields.mono ?_
    rintro last hCarry rfl
    rw [hCarry, out_leftward]
    exact Shift.top_double ha
  half n a i ha h hi := by
    have hYields := yields_shifted (fun i => digit a (n - 1 - i)) rightward h hi
    rw [shifted_rightward ha _ hi] at hYields
    refine hYields.mono ?_
    rintro last hCarry rfl
    have hLowest : i + 1 - 1 - i = 0 := by omega
    rw [hCarry, out_rightward, hLowest]
    exact Shift.low_half a

end Famicom.Cpu
