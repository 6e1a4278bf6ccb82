import Famicom.Bits
import Mathlib.Algebra.Group.Nat.Defs

/-!
# Laws of bit groups

Switching bits of one group leaves the test of another group alone, and groups of neighbouring
bits are numbers.
-/

namespace Famicom

theorem forall_byte {p : UInt8 → Prop} (h : ∀ n : Fin 256, p (.ofFin n)) (value : UInt8) :
    p value :=
  h value.toFin

theorem or_and_distrib (a b mask : UInt8) :
    (a ||| b) &&& mask = a &&& mask ||| b &&& mask := by
  apply UInt8.toBitVec_inj.1
  exact BitVec.and_or_distrib_right

theorem withBits_and_other {mask other : UInt8} (value : UInt8) (on : Bool)
    (h : mask &&& other = 0) (hKeeps : ~~~mask &&& other = other) :
    withBits value mask on &&& other = value &&& other := by
  cases on with
  | true =>
    show (value ||| mask) &&& other = value &&& other
    rw [or_and_distrib, h, UInt8.or_zero]
  | false =>
    show value &&& ~~~mask &&& other = value &&& other
    rw [UInt8.and_assoc, hKeeps]

theorem withBits_clear_self (value mask : UInt8) (on : Bool) :
    withBits (withBits value mask on) mask false = withBits value mask false := by
  cases on with
  | true =>
    show (value ||| mask) &&& ~~~mask = value &&& ~~~mask
    rw [or_and_distrib, UInt8.and_not_self, UInt8.or_zero]
  | false =>
    show value &&& ~~~mask &&& ~~~mask = value &&& ~~~mask
    rw [UInt8.and_assoc, UInt8.and_self]

theorem withBits_clear_other {mask other : UInt8} (value : UInt8) (on : Bool)
    (h : mask &&& ~~~other = mask) :
    withBits (withBits value mask on) other false =
      withBits (withBits value other false) mask on := by
  cases on with
  | true =>
    show (value ||| mask) &&& ~~~other = value &&& ~~~other ||| mask
    rw [or_and_distrib, h]
  | false =>
    show value &&& ~~~mask &&& ~~~other = value &&& ~~~other &&& ~~~mask
    rw [UInt8.and_assoc, UInt8.and_assoc, UInt8.and_comm (~~~mask)]

theorem anyBit_or_left {a b mask : UInt8} (h : b &&& mask = 0) :
    anyBit (a ||| b) mask = anyBit a mask := by
  unfold anyBit
  rw [or_and_distrib, h, UInt8.or_zero]

theorem anyBit_or_right {a b mask : UInt8} (h : anyBit b mask = true) :
    anyBit (a ||| b) mask = true := by
  simp only [anyBit, bne_iff_ne, ne_eq] at h ⊢
  rw [or_and_distrib, UInt8.or_eq_zero_iff]
  exact fun hBoth => h hBoth.2

theorem anyBit_or_mask (value a b : UInt8) :
    anyBit value (a ||| b) = (anyBit value a || anyBit value b) := by
  have hMeet : value &&& (a ||| b) = value &&& a ||| value &&& b := by
    apply UInt8.toBitVec_inj.1
    exact BitVec.and_or_distrib_left
  rw [Bool.eq_iff_iff, Bool.or_eq_true]
  simp only [anyBit, hMeet, bne_iff_ne, ne_eq, UInt8.or_eq_zero_iff]
  exact Decidable.not_and_iff_not_or_not

theorem anyBit_mono {value mask wider : UInt8} (hWider : wider &&& mask = mask)
    (h : anyBit value mask = true) : anyBit value wider = true := by
  simp only [anyBit, bne_iff_ne, ne_eq] at h ⊢
  intro hNone
  apply h
  rw [← hWider, ← UInt8.and_assoc, hNone, UInt8.zero_and]

theorem anyBit_withBits_self (value mask other : UInt8) (h : ~~~mask &&& other = 0) :
    anyBit (withBits value mask false) other = false := by
  have hMeet : value &&& ~~~mask &&& other = 0 := by
    rw [UInt8.and_assoc, h, UInt8.and_zero]
  simp [anyBit, withBits, hMeet]

/-! ### Fields as numbers -/

theorem anyBit_iff (value mask : UInt8) :
    anyBit value mask = true ↔ value.toNat &&& mask.toNat ≠ 0 := by
  rw [← UInt8.toNat_and]
  simp [anyBit, ← UInt8.toNat_inj]

theorem anyBit_low {value mask : UInt8} {k : Nat} (h : mask.toNat = 2 ^ k - 1) :
    anyBit value mask = true ↔ value.toNat % 2 ^ k ≠ 0 := by
  rw [anyBit_iff, h, Nat.and_two_pow_sub_one_eq_mod]

theorem anyBit_single {value mask : UInt8} {k : Nat} (h : mask.toNat = 2 ^ k) :
    anyBit value mask = true ↔ value.toNat / 2 ^ k % 2 = 1 := by
  have hBit : value.toNat.testBit k = true ↔ value.toNat / 2 ^ k % 2 = 1 := by
    rw [Nat.testBit_eq_decide_div_mod_eq, decide_eq_true_iff]
  rw [anyBit_iff, h, ← hBit]
  constructor
  · intro hSome
    obtain ⟨i, hi⟩ := Nat.exists_testBit_of_ne_zero hSome
    rw [Nat.testBit_and, Nat.testBit_two_pow, Bool.and_eq_true, decide_eq_true_iff] at hi
    obtain ⟨hValue, rfl⟩ := hi
    exact hValue
  · intro hValue hNone
    have hZero : (value.toNat &&& 2 ^ k).testBit k = false := by rw [hNone, Nat.zero_testBit]
    rw [Nat.testBit_and, Nat.testBit_two_pow_self, hValue] at hZero
    cases hZero

theorem anyBit_testBit {value mask : UInt8} {k : Nat} (h : mask.toNat = 2 ^ k) :
    anyBit value mask = value.toNat.testBit k := by
  rw [Bool.eq_iff_iff, anyBit_single h, Nat.testBit_eq_decide_div_mod_eq, decide_eq_true_iff]

theorem toNat_field (value mask : UInt8) {k j : Nat} (hk : k < 8)
    (hMask : mask.toNat = 2 ^ j - 1) :
    (value >>> k.toUInt8 &&& mask).toNat = value.toNat / 2 ^ k % 2 ^ j := by
  have hShift : k.toUInt8.toNat % 8 = k := by
    rw [Nat.toUInt8_eq, UInt8.toNat_ofNat']
    omega
  rw [UInt8.toNat_and, UInt8.toNat_shiftRight, hShift, hMask, Nat.and_two_pow_sub_one_eq_mod,
    Nat.shiftRight_eq_div_pow]

theorem toNat_join {low high shift : UInt8} (hShift : shift.toNat < 8)
    (hLow : low.toNat < 2 ^ shift.toNat) (hHigh : high.toNat * 2 ^ shift.toNat < 256) :
    (high <<< shift ||| low).toNat = high.toNat * 2 ^ shift.toNat + low.toNat := by
  rw [UInt8.toNat_or, UInt8.toNat_shiftLeft, Nat.mod_eq_of_lt hShift, Nat.shiftLeft_eq,
    Nat.mod_eq_of_lt hHigh, ← Nat.shiftLeft_eq, ← Nat.shiftLeft_add_eq_or_of_lt hLow]

theorem toNat_halves (low high : UInt8) :
    (low >>> 4 ||| high &&& 0xF0).toNat = low.toNat / 16 + high.toNat / 16 * 16 := by
  have hl := low.toNat_lt
  have hh := high.toNat_lt
  have hCut : ∀ x : UInt8, x &&& (0xF0 : UInt8) = (x >>> 4) <<< 4 :=
    forall_byte (by decide +kernel)
  have hDown (x : UInt8) : (x >>> 4).toNat = x.toNat / 16 := by
    rw [UInt8.toNat_shiftRight]
    exact Nat.shiftRight_eq_div_pow _ 4
  rw [UInt8.or_comm, hCut, toNat_join, hDown, hDown]
  all_goals simp only [hDown, UInt8.reduceToNat]
  all_goals omega

/-! ### Words -/

theorem toNat_or_of_disjoint {a b : UInt16} (h : a &&& b = 0) :
    (a ||| b).toNat = a.toNat + b.toNat := by
  have hBits : a.toBitVec &&& b.toBitVec = 0#16 := by
    rw [← UInt16.toBitVec_and, h]
    rfl
  have hSum := BitVec.toNat_add_of_and_eq_zero hBits
  rw [BitVec.add_eq_or_of_and_eq_zero _ _ hBits] at hSum
  exact hSum

theorem word_and_or (w a b : UInt16) : w &&& (a ||| b) = w &&& a ||| w &&& b := by
  apply UInt16.toBitVec_inj.1
  exact BitVec.and_or_distrib_left

/-- A mask of neighbouring bits cuts a field out. -/
theorem toNat_and_field (w : UInt16) {mask : UInt16} (k j : Nat)
    (h : mask.toNat = (2 ^ j - 1) * 2 ^ k) :
    (w &&& mask).toNat = w.toNat / 2 ^ k % 2 ^ j * 2 ^ k := by
  rw [UInt16.toNat_and, h]
  apply Nat.eq_of_testBit_eq
  intro i
  rw [Nat.testBit_and, Nat.testBit_mul_two_pow, Nat.testBit_mul_two_pow, Nat.testBit_mod_two_pow,
    Nat.testBit_div_two_pow, Nat.testBit_two_pow_sub_one]
  by_cases hi : k ≤ i
  · rw [Nat.sub_add_cancel hi, Bool.and_comm (decide (k ≤ i)), Bool.and_comm (decide (k ≤ i)),
      ← Bool.and_assoc, Bool.and_comm (w.toNat.testBit i)]
  · simp [hi]

theorem toNat_and_fields (w : UInt16) {a b : UInt16} (h : a &&& b = 0) :
    (w &&& (a ||| b)).toNat = (w &&& a).toNat + (w &&& b).toNat := by
  have hApart : w &&& a &&& (w &&& b) = 0 := by
    rw [UInt16.and_assoc, ← UInt16.and_assoc a, UInt16.and_comm a, UInt16.and_assoc, h,
      UInt16.and_zero, UInt16.and_zero]
  rw [word_and_or, toNat_or_of_disjoint hApart]

theorem toNat_and_add_not (w keep : UInt16) :
    (w &&& keep).toNat + (w &&& ~~~keep).toNat = w.toNat := by
  rw [← toNat_and_fields w UInt16.and_not_self, UInt16.or_not_self, UInt16.and_neg_one]

theorem toNat_xor_add (a b : UInt16) :
    (a ^^^ b).toNat + 2 * (a &&& b).toNat = a.toNat + b.toNat := by
  have hParts : a ^^^ b = a &&& ~~~b ||| b &&& ~~~a := by
    apply UInt16.toBitVec_inj.1
    apply BitVec.eq_of_getLsbD_eq
    intro i hi
    simp only [UInt16.toBitVec_xor, UInt16.toBitVec_or, UInt16.toBitVec_and, UInt16.toBitVec_not,
      BitVec.getLsbD_xor, BitVec.getLsbD_or, BitVec.getLsbD_and, BitVec.getLsbD_not, hi]
    cases a.toBitVec.getLsbD i <;> cases b.toBitVec.getLsbD i <;> rfl
  have hApart : a &&& ~~~b &&& (b &&& ~~~a) = 0 := by
    rw [UInt16.and_assoc, ← UInt16.and_assoc (~~~b), UInt16.and_comm (~~~b), UInt16.and_not_self,
      UInt16.zero_and, UInt16.and_zero]
  have hLeft := toNat_and_add_not a b
  have hRight := toNat_and_add_not b a
  rw [UInt16.and_comm b a] at hRight
  rw [hParts, toNat_or_of_disjoint hApart]
  omega

end Famicom
