import Famicom.Proofs.Cpu.Status

/-!
# Numbers of several bytes

The processor adds and shifts one byte at a time.  What it does with a byte of a number and the
carry flag gives that byte of the sum, of the double or of the half, and leaves in the carry flag
what the next byte needs.
-/

namespace Famicom.Cpu

/-! ### Bytes of a number -/

/-- A byte of a number, counted from the lowest. -/
def digit (a i : Nat) : UInt8 :=
  .ofNat (a / 256 ^ i)

/-- The value of a number of some bytes when its top bit is a sign. -/
def signed (bytes a : Nat) : Int :=
  if 2 * a < 256 ^ bytes then a else a - ((256 ^ bytes : Nat) : Int)

def FitsSigned (bytes : Nat) (x : Int) : Prop :=
  -((256 ^ bytes : Nat) : Int) ≤ 2 * x ∧ 2 * x < ((256 ^ bytes : Nat) : Int)

theorem digit_toNat (a i : Nat) : (digit a i).toNat = a / 256 ^ i % 256 :=
  UInt8.toNat_ofNat'

theorem power_succ (k : Nat) : 256 ^ (k + 1) = 256 ^ k * 256 :=
  pow_succ 256 k

theorem power_pos (k : Nat) : 0 < 256 ^ k :=
  Nat.pow_pos (by decide)

theorem digit_mod {i n : Nat} (a : Nat) (h : i < n) : digit (a % 256 ^ n) i = digit a i := by
  obtain ⟨k, rfl⟩ := Nat.exists_eq_add_of_lt h
  have hPower : 256 ^ (i + k + 1) = 256 ^ i * (256 * 256 ^ k) := by
    rw [power_succ, Nat.pow_add, Nat.mul_assoc, Nat.mul_comm (256 ^ k)]
  apply UInt8.toNat_inj.1
  rw [digit_toNat, digit_toNat, hPower, Nat.mod_mul_right_div_self, Nat.mod_mul_right_mod]

theorem mod_power_succ (a k : Nat) :
    a % 256 ^ (k + 1) = a % 256 ^ k + 256 ^ k * (digit a k).toNat := by
  rw [power_succ, Nat.mod_mul, digit_toNat]

/-! ### Sums -/

/-- What is carried out of the lower bytes of two numbers and a carry. -/
def carried (a b c k : Nat) : Nat :=
  (a % 256 ^ k + b % 256 ^ k + c) / 256 ^ k

theorem carried_zero (a b c : Nat) : carried a b c 0 = c := by
  simp [carried, Nat.mod_one]

theorem carried_succ (a b c k : Nat) :
    carried a b c (k + 1) =
      ((digit a k).toNat + (digit b k).toNat + carried a b c k) / 256 := by
  have hSum : a % 256 ^ (k + 1) + b % 256 ^ (k + 1) + c =
      a % 256 ^ k + b % 256 ^ k + c + 256 ^ k * ((digit a k).toNat + (digit b k).toNat) := by
    rw [mod_power_succ, mod_power_succ, Nat.mul_add]
    omega
  rw [carried, hSum, power_succ, ← Nat.div_div_eq_div_mul, Nat.add_mul_div_left _ _ (power_pos k),
    carried, Nat.add_comm]

theorem digit_add (a b c k : Nat) :
    digit (a + b + c) k =
      .ofNat ((digit a k).toNat + (digit b k).toNat + carried a b c k) := by
  have hSplit : a + b + c =
      a % 256 ^ k + b % 256 ^ k + c + 256 ^ k * (a / 256 ^ k + b / 256 ^ k) := by
    have ha := Nat.mod_add_div a (256 ^ k)
    have hb := Nat.mod_add_div b (256 ^ k)
    rw [Nat.mul_add]
    omega
  apply UInt8.toNat_inj.1
  rw [digit_toNat, hSplit, Nat.add_mul_div_left _ _ (power_pos k), UInt8.toNat_ofNat', digit_toNat,
    digit_toNat, carried]
  omega

theorem carried_eq {a b c n : Nat} (ha : a < 256 ^ n) (hb : b < 256 ^ n) (hc : c ≤ 1) :
    carried a b c n = if 256 ^ n ≤ a + b + c then 1 else 0 := by
  rw [carried, Nat.mod_eq_of_lt ha, Nat.mod_eq_of_lt hb]
  split
  · exact Nat.div_eq_of_lt_le (by omega) (by omega)
  · exact Nat.div_eq_of_lt (by omega)

/-! ### Signs -/

theorem top_digit {a k : Nat} (h : a < 256 ^ (k + 1)) : (digit a k).toNat = a / 256 ^ k := by
  rw [power_succ] at h
  rw [digit_toNat, Nat.mod_eq_of_lt (Nat.div_lt_of_lt_mul h)]

theorem top_bit {a k : Nat} (h : a < 256 ^ (k + 1)) :
    2 * a < 256 ^ (k + 1) ↔ (digit a k).toNat < 128 := by
  rw [top_digit h, Nat.div_lt_iff_lt_mul (power_pos k), power_succ]
  omega

theorem signed_one (x : Nat) : signed 1 x = if x < 128 then (x : Int) else (x : Int) - 256 := by
  have hTop : 2 * x < 256 ↔ x < 128 := by omega
  rw [signed, pow_one]
  simp only [hTop]
  rfl

theorem signed_succ {a k : Nat} (h : a < 256 ^ (k + 1)) :
    signed (k + 1) a =
      (a % 256 ^ k : Nat) + ((256 ^ k : Nat) : Int) * signed 1 (digit a k).toNat := by
  have hParts : (a : Int) = (a % 256 ^ k : Nat) + ((256 ^ k : Nat) : Int) * (digit a k).toNat := by
    rw [top_digit h, ← Int.natCast_mul, ← Int.natCast_add, Nat.mod_add_div]
  have hLimit : ((256 ^ (k + 1) : Nat) : Int) = ((256 ^ k : Nat) : Int) * 256 := by
    rw [power_succ, Int.natCast_mul]
    rfl
  rw [signed, signed_one]
  by_cases hTop : (digit a k).toNat < 128
  · rw [if_pos ((top_bit h).2 hTop), if_pos hTop]
    exact hParts
  · rw [if_neg fun hLow => hTop ((top_bit h).1 hLow), if_neg hTop, hLimit, Int.mul_sub]
    omega

theorem fitsSigned_succ {low k : Nat} (h : low < 256 ^ k) (high : Int) :
    FitsSigned (k + 1) (low + ((256 ^ k : Nat) : Int) * high) ↔ FitsSigned 1 high := by
  have hPos : (0 : Int) < ((256 ^ k : Nat) : Int) := Int.natCast_pos.2 (power_pos k)
  have hLimit : ((256 ^ (k + 1) : Nat) : Int) = ((256 ^ k : Nat) : Int) * 256 := by
    rw [power_succ, Int.natCast_mul]
    rfl
  have hHigh : (low + ((256 ^ k : Nat) : Int) * high) / ((256 ^ k : Nat) : Int) = high := by
    rw [Int.add_mul_ediv_left _ _ (Int.ne_of_gt hPos),
      Int.ediv_eq_zero_of_lt (Int.natCast_nonneg low) (Int.ofNat_lt.2 h), Int.zero_add]
  -- Both bounds are bounds of the quotient by the weight of the top byte.
  have hLower := Int.le_ediv_iff_mul_le (a := -128) (b := low + ((256 ^ k : Nat) : Int) * high) hPos
  have hUpper := Int.ediv_lt_iff_lt_mul (a := low + ((256 ^ k : Nat) : Int) * high) (b := 128) hPos
  rw [hHigh] at hLower hUpper
  rw [FitsSigned, FitsSigned, hLimit, pow_one]
  omega

/-- Whether a sum overflows is decided by the top bytes and what is carried into them. -/
theorem fitsSigned_sum {a b k : Nat} (c : Nat) (ha : a < 256 ^ (k + 1)) (hb : b < 256 ^ (k + 1)) :
    FitsSigned (k + 1) (signed (k + 1) a + signed (k + 1) b + c) ↔
      FitsSigned 1 (signed 1 (digit a k).toNat + signed 1 (digit b k).toNat +
        (carried a b c k : Nat)) := by
  -- The lower bytes of the sum are not negative, so only the part above them counts.
  have hLow := Nat.mod_add_div (a % 256 ^ k + b % 256 ^ k + c) (256 ^ k)
  rw [← fitsSigned_succ (Nat.mod_lt (a % 256 ^ k + b % 256 ^ k + c) (power_pos k)),
    signed_succ ha, signed_succ hb, carried]
  have hSum : (a % 256 ^ k : Nat) + ((256 ^ k : Nat) : Int) * signed 1 (digit a k).toNat +
      ((b % 256 ^ k : Nat) + ((256 ^ k : Nat) : Int) * signed 1 (digit b k).toNat) + (c : Int) =
        ((a % 256 ^ k + b % 256 ^ k + c) % 256 ^ k : Nat) + ((256 ^ k : Nat) : Int) *
          (signed 1 (digit a k).toNat + signed 1 (digit b k).toNat +
            ((a % 256 ^ k + b % 256 ^ k + c) / 256 ^ k : Nat)) := by
    rw [Int.mul_add, Int.mul_add, ← Int.natCast_mul]
    omega
  rw [hSum]

/-! ### Complements -/

theorem digit_complement {b i n : Nat} (hb : b < 256 ^ n) (hi : i < n) :
    digit (256 ^ n - 1 - b) i = ~~~digit b i := by
  obtain ⟨k, rfl⟩ := Nat.exists_eq_add_of_lt hi
  have hPower : 256 ^ (i + k + 1) = 256 ^ i * (256 ^ k * 256) := by
    rw [power_succ, Nat.pow_add, Nat.mul_assoc]
  -- The quotient of a number one below a multiple, counted down from the multiple.
  have hBelow : 256 ^ i * (256 ^ k * 256) - 1 - b = 256 ^ i * (256 ^ k * 256) - (b + 1) := by
    omega
  have hQuotient : b / 256 ^ i < 256 ^ k * 256 := Nat.div_lt_of_lt_mul (hPower ▸ hb)
  apply UInt8.toNat_inj.1
  rw [UInt8.toNat_not, digit_toNat, digit_toNat, hPower, hBelow,
    Nat.mul_sub_div _ _ _ (hPower ▸ hb)]
  show _ = 255 - _
  omega

theorem signed_complement {b k : Nat} (hb : b < 256 ^ (k + 1)) :
    signed (k + 1) (256 ^ (k + 1) - 1 - b) = -1 - signed (k + 1) b := by
  rw [power_succ] at hb
  rw [signed, signed, power_succ]
  split <;> split <;> omega

/-! ### One byte of a sum -/

theorem top_eq (x : UInt8) : anyBit x 0x80 = decide (128 ≤ x.toNat) := by
  have hx := x.toNat_lt
  have hTop : x.toNat / 2 ^ 7 % 2 = 1 ↔ 128 ≤ x.toNat := by omega
  rw [Bool.eq_iff_iff, anyBit_single (k := 7) rfl, decide_eq_true_iff, hTop]

theorem top_eq_msb (x : UInt8) : anyBit x 0x80 = x.toBitVec.msb := by
  rw [top_eq, BitVec.msb_eq_decide]
  rfl

/-- The top bit of this mask tells that two bytes have one sign and a third the other. -/
theorem top_overflow (x y z : UInt8) :
    anyBit (~~~(x ^^^ y) &&& (x ^^^ z)) 0x80 =
      (decide (128 ≤ x.toNat) == decide (128 ≤ y.toNat) &&
        decide (128 ≤ x.toNat) != decide (128 ≤ z.toNat)) := by
  simp only [← top_eq, top_eq_msb, UInt8.toBitVec_and, UInt8.toBitVec_not, UInt8.toBitVec_xor,
    BitVec.msb_and, BitVec.msb_not, BitVec.msb_xor, Nat.zero_lt_succ, decide_true, Bool.true_and]
  cases x.toBitVec.msb <;> cases y.toBitVec.msb <;> cases z.toBitVec.msb <;> rfl

theorem overflow_iff {a v c : Nat} (ha : a < 256) (hv : v < 256) (hc : c ≤ 1) :
    (decide (128 ≤ a) == decide (128 ≤ v) &&
        decide (128 ≤ a) != decide (128 ≤ (a + v + c) % 256)) = true ↔
      ¬FitsSigned 1 (signed 1 a + signed 1 v + c) := by
  simp only [signed_one, FitsSigned, pow_one, Bool.and_eq_true, beq_iff_eq, bne_iff_ne, ne_eq,
    decide_eq_decide]
  omega

theorem flag_noteResult {f : Flag} (hZero : f ≠ .zero) (hNegative : f ≠ .negative) (r : Registers)
    (value : UInt8) : (r.noteResult value).flag f = r.flag f := by
  rw [Registers.noteResult, flag_setFlag_of_ne _ _ hNegative, flag_setFlag_of_ne _ _ hZero]

theorem flag_load {f : Flag} (hZero : f ≠ .zero) (hNegative : f ≠ .negative) (r : Registers)
    (target : Register) (value : UInt8) : (r.load target value).flag f = r.flag f := by
  rw [Registers.load, flag_noteResult hZero hNegative]
  cases target <;> rfl

theorem negative_noteResult (r : Registers) (value : UInt8) :
    (r.noteResult value).flag .negative = anyBit value 0x80 :=
  flag_setFlag_self _ _ _

def Registers.carry (r : Registers) : Nat :=
  if r.flag .carry then 1 else 0

structure Registers.Sums (r : Registers) (value : UInt8) (next : Registers) : Prop where
  accumulator : next.a = .ofNat (r.a.toNat + value.toNat + r.carry)
  carry : next.carry = (r.a.toNat + value.toNat + r.carry) / 256
  overflow : next.flag .overflow = true ↔
    ¬FitsSigned 1 (signed 1 r.a.toNat + signed 1 value.toNat + (r.carry : Nat))
  negative : next.flag .negative = true ↔ 128 ≤ next.a.toNat

theorem carry_eq_div {r : Registers} {n : Nat} (hn : n < 512)
    (h : r.flag .carry = decide (0xFF < n)) : r.carry = n / 256 := by
  rw [Registers.carry, h]
  by_cases hLarge : 0xFF < n
  · rw [if_pos (decide_eq_true hLarge)]
    omega
  · rw [if_neg fun hTrue => hLarge (of_decide_eq_true hTrue)]
    omega

theorem bitOf_carry (r : Registers) : (bitOf (r.flag .carry)).toNat = r.carry := by
  unfold bitOf Registers.carry
  cases r.flag .carry <;> rfl

theorem carry_le (r : Registers) : r.carry ≤ 1 := by
  unfold Registers.carry
  split <;> omega

theorem carry_eq_one (r : Registers) : r.carry = 1 ↔ r.flag .carry = true := by
  unfold Registers.carry
  cases r.flag .carry <;> decide

theorem add_sums (r : Registers) (value : UInt8) : r.Sums value (r.add value) := by
  have ha := r.a.toNat_lt
  have hv := value.toNat_lt
  have hc := carry_le r
  have hResult : (r.add value).a = .ofNat (r.a.toNat + value.toNat + r.carry) := by
    rw [← bitOf_carry]
    rfl
  refine ⟨hResult, carry_eq_div (by omega) ?_, ?_, ?_⟩
  · rw [← bitOf_carry, Registers.add, flag_load (by decide) (by decide),
      flag_setFlag_of_ne _ _ (by decide), flag_setFlag_self]
  · have hByte : (r.a.toNat + value.toNat + r.carry).toUInt8.toNat =
        (r.a.toNat + value.toNat + r.carry) % 256 := UInt8.toNat_ofNat'
    rw [Registers.add, flag_load (by decide) (by decide), flag_setFlag_self, bitOf_carry,
      top_overflow, hByte]
    exact overflow_iff ha hv hc
  · rw [Registers.add, Registers.load, negative_noteResult, top_eq, decide_eq_true_iff]
    rfl

/-! ### One byte of a double and of a half -/

inductive Shift where
  | left
  | leftThrough
  | right
  | rightThrough
  deriving DecidableEq

namespace Shift

def op : Shift → ModifyOp
  | .left => .shiftLeft
  | .leftThrough => .rotateLeft
  | .right => .shiftRight
  | .rightThrough => .rotateRight

def out (s : Shift) (value : UInt8) : Bool :=
  match s with
  | .left | .leftThrough => anyBit value 0x80
  | .right | .rightThrough => anyBit value 0x01

def number (s : Shift) (value : Nat) (carry : Bool) : Nat :=
  match s with
  | .left => 2 * value % 256
  | .leftThrough => (2 * value + if carry then 1 else 0) % 256
  | .right => value / 2
  | .rightThrough => value / 2 + if carry then 128 else 0

theorem result_toNat (s : Shift) (value : UInt8) (carry : Bool) :
    (s.op.result value carry).toNat = s.number value.toNat carry :=
  forall_byte (p := fun value => ∀ carry : Bool,
    (s.op.result value carry).toNat = s.number value.toNat carry)
    (by cases s <;> decide +kernel) value carry

theorem carry_apply (s : Shift) (value : UInt8) (r : Registers) :
    (s.op.apply value r).2.flag .carry = s.out value := by
  have hNoted (result : UInt8) (on : Bool) :
      ((r.setFlag .carry on).noteResult result).flag .carry = on := by
    rw [flag_noteResult (by decide) (by decide), flag_setFlag_self]
  cases s <;> exact hNoted _ _

theorem negative_apply (s : Shift) (value : UInt8) (r : Registers) :
    (s.op.apply value r).2.flag .negative = true ↔
      128 ≤ (s.op.result value (r.flag .carry)).toNat := by
  rw [ModifyOp.apply, negative_noteResult, top_eq, decide_eq_true_iff]

/-! The double of a number, from its lowest byte up. -/

theorem left_digit (a : Nat) (carry : Bool) :
    Shift.left.op.result (digit a 0) carry = digit (2 * a) 0 := by
  apply UInt8.toNat_inj.1
  rw [result_toNat, digit_toNat, digit_toNat, number, pow_zero, Nat.div_one, Nat.div_one]
  omega

theorem double_div (a k : Nat) : 2 * a / 256 ^ (k + 1) = a / 256 ^ k / 128 := by
  -- A byte of the double takes its lowest bit from the byte below.
  have hPower : 256 ^ (k + 1) = 2 * (256 ^ k * 128) := by
    rw [power_succ]
    omega
  rw [hPower, Nat.mul_div_mul_left _ _ (by decide), Nat.div_div_eq_div_mul]

theorem leftThrough_digit (a k : Nat) :
    Shift.leftThrough.op.result (digit a (k + 1)) (anyBit (digit a k) 0x80) =
      digit (2 * a) (k + 1) := by
  apply UInt8.toNat_inj.1
  rw [result_toNat, top_eq, digit_toNat, digit_toNat, digit_toNat, double_div, power_succ,
    ← Nat.div_div_eq_div_mul, number]
  simp only [decide_eq_true_iff]
  split <;> omega

theorem top_double {a k : Nat} (h : a < 256 ^ (k + 1)) :
    anyBit (digit a k) 0x80 = true ↔ 256 ^ (k + 1) ≤ 2 * a := by
  have hTop := top_bit h
  rw [top_eq, decide_eq_true_iff]
  omega

/-! The half of a number, from its highest byte down. -/

theorem low_eq (x : UInt8) : anyBit x 0x01 = true ↔ x.toNat % 2 = 1 := by
  rw [anyBit_single (k := 0) rfl, pow_zero, Nat.div_one]

theorem half_div (a k : Nat) : a / 2 / 256 ^ k = a / 256 ^ k / 2 := by
  rw [Nat.div_div_eq_div_mul, Nat.div_div_eq_div_mul, Nat.mul_comm]

theorem right_digit {a k : Nat} (h : a < 256 ^ (k + 1)) (carry : Bool) :
    Shift.right.op.result (digit a k) carry = digit (a / 2) k := by
  have hDigit := (digit a k).toNat_lt
  apply UInt8.toNat_inj.1
  rw [result_toNat, digit_toNat (a / 2), half_div, ← top_digit h, number]
  omega

theorem rightThrough_digit (a k : Nat) :
    Shift.rightThrough.op.result (digit a k) (anyBit (digit a (k + 1)) 0x01) =
      digit (a / 2) k := by
  have hLow : anyBit (digit a (k + 1)) 0x01 = true ↔ a / 256 ^ k / 256 % 256 % 2 = 1 := by
    rw [low_eq, digit_toNat, power_succ, ← Nat.div_div_eq_div_mul]
  apply UInt8.toNat_inj.1
  rw [result_toNat, digit_toNat, digit_toNat, half_div, number]
  simp only [hLow]
  split <;> omega

theorem low_half (a : Nat) : anyBit (digit a 0) 0x01 = true ↔ a % 2 = 1 := by
  rw [low_eq, digit_toNat, pow_zero, Nat.div_one]
  omega

end Shift

end Famicom.Cpu
