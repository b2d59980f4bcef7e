import DecimalCalc.Decimal.Basic
import Mathlib.Algebra.Order.Field.Power
import Mathlib.Data.Rat.Cast.Order
import Mathlib.Tactic.Linarith
import Mathlib.Tactic.NormNum
import Mathlib.Tactic.Ring
/-!
# The rational number of a form

A form stands for the rational number `Decimal.toRat`, its coefficient times a
power of ten.  Sum, difference, product, negation and integral powers are those
of the rational numbers, and sign and order are read off the coefficient of a
difference.  The key fact is `toRat_scaledTo`: bringing a form to a smaller
exponent does not change its number.
-/

namespace DecimalCalc.Decimal

open Numeral

/-- The rational number that a form stands for. -/
def toRat (a : Decimal) : ℚ := a.coefficient * 10 ^ a.exponent

theorem tenTo_cast (n : Nat) : ((tenTo n : Int) : ℚ) = 10 ^ n := by
  simp [tenTo]

theorem ten_zpow_pos (e : Int) : (0 : ℚ) < 10 ^ e := zpow_pos (by norm_num) e

@[simp] theorem toRat_zero : zero.toRat = 0 := by simp [zero, toRat]

@[simp] theorem toRat_one : one.toRat = 1 := by simp [one, ofInt, toRat]

/-- Every form with coefficient zero stands for zero, whatever its exponent. -/
theorem toRat_ofParts (c e : Int) : (ofParts c e).toRat = c * 10 ^ e := by
  unfold ofParts
  split
  · next h => simp [h]
  · rfl

/-- Parts keep their coefficient. -/
@[simp] theorem ofParts_coefficient (c e : Int) : (ofParts c e).coefficient = c := by
  unfold ofParts
  split
  · next h => exact h.symm
  · rfl

/-- Parts keep their exponent too, unless they are zero. -/
theorem ofParts_eq_zero_or_exponent (c e : Int) :
    ofParts c e = zero ∨ (ofParts c e).exponent = e := by
  unfold ofParts
  split
  · exact .inl rfl
  · exact .inr rfl

/-! ## Arithmetic -/

/-- **Alignment.**  A form brought to an exponent not above its own keeps its number. -/
theorem toRat_scaledTo (a : Decimal) {e : Int} (h : e ≤ a.exponent) :
    (a.scaledTo e : ℚ) * 10 ^ e = a.toRat := by
  have hexp : ((a.exponent - e).toNat : Int) + e = a.exponent := by omega
  calc (a.scaledTo e : ℚ) * 10 ^ e
      = a.coefficient * (10 ^ ((a.exponent - e).toNat : Int) * 10 ^ e) := by
        rw [scaledTo, Int.cast_mul, tenTo_cast, zpow_natCast]
        ring
    _ = a.toRat := by rw [← zpow_add₀ (by norm_num), hexp, toRat]

/-- An integer operation that agrees with a rational one and passes over a common factor
is that rational operation on forms. -/
theorem toRat_aligned {op : Int → Int → Int} {f : ℚ → ℚ → ℚ}
    (hcast : ∀ x y : Int, ((op x y : Int) : ℚ) = f x y)
    (hfactor : ∀ x y z : ℚ, f x y * z = f (x * z) (y * z)) (a b : Decimal) :
    (aligned op a b).toRat = f a.toRat b.toRat := by
  rw [aligned, toRat_ofParts, hcast, hfactor, toRat_scaledTo a (min_le_left _ _),
    toRat_scaledTo b (min_le_right _ _)]

@[simp] theorem toRat_add (a b : Decimal) : (a.add b).toRat = a.toRat + b.toRat :=
  toRat_aligned (f := (· + ·)) (fun x y => Int.cast_add x y) (fun x y z => add_mul x y z) a b

@[simp] theorem toRat_sub (a b : Decimal) : (a.sub b).toRat = a.toRat - b.toRat :=
  toRat_aligned (f := (· - ·)) (fun x y => Int.cast_sub x y) (fun x y z => sub_mul x y z) a b

@[simp] theorem toRat_mul (a b : Decimal) : (a.mul b).toRat = a.toRat * b.toRat := by
  rw [mul, toRat_ofParts, zpow_add₀ (by norm_num), Int.cast_mul, toRat, toRat]
  ring

@[simp] theorem toRat_neg (a : Decimal) : a.neg.toRat = -a.toRat := by
  rw [neg, toRat_ofParts, Int.cast_neg, toRat]
  ring

/-- The power of both parts is the power of the number. -/
theorem toRat_pow (a : Decimal) (n : Nat) :
    (ofParts (a.coefficient.pow n) (a.exponent * n)).toRat = a.toRat ^ n := by
  have hpow : a.coefficient.pow n = a.coefficient ^ n := rfl
  rw [toRat_ofParts, hpow, Int.cast_pow, toRat, mul_pow, zpow_mul, zpow_natCast]

/-! ## Sign and order -/

theorem isZero_iff (a : Decimal) : a.isZero = true ↔ a.toRat = 0 := by
  simp [isZero, toRat, (ten_zpow_pos a.exponent).ne']

theorem isNegative_iff (a : Decimal) : a.isNegative = true ↔ a.toRat < 0 := by
  have hneg : a.toRat < 0 ↔ (a.coefficient : ℚ) < 0 := by
    rw [← neg_pos, toRat, ← neg_mul, mul_pos_iff_of_pos_right (ten_zpow_pos _), neg_pos]
  rw [isNegative, decide_eq_true_iff, hneg, Int.cast_lt_zero]

theorem isPositive_iff (a : Decimal) : a.isPositive = true ↔ 0 < a.toRat := by
  rw [isPositive, decide_eq_true_iff, toRat, mul_pos_iff_of_pos_right (ten_zpow_pos _),
    Int.cast_pos]

theorem equal_iff (a b : Decimal) : a.equal b = true ↔ a.toRat = b.toRat := by
  rw [equal, isZero_iff, toRat_sub, sub_eq_zero]

theorem less_iff (a b : Decimal) : a.less b = true ↔ a.toRat < b.toRat := by
  rw [less, isNegative_iff, toRat_sub, sub_neg]

theorem greater_iff (a b : Decimal) : a.greater b = true ↔ b.toRat < a.toRat :=
  less_iff b a

theorem atMost_iff (a b : Decimal) : a.atMost b = true ↔ a.toRat ≤ b.toRat := by
  rw [atMost, Bool.not_eq_true', ← Bool.not_eq_true, greater_iff, not_lt]

theorem atLeast_iff (a b : Decimal) : a.atLeast b = true ↔ b.toRat ≤ a.toRat := by
  rw [atLeast, Bool.not_eq_true', ← Bool.not_eq_true, less_iff, not_lt]

/-- The negative of a number below zero is above it. -/
theorem neg_toRat_pos {a : Decimal} (h : a.toRat < 0) : 0 < a.neg.toRat := by
  rw [toRat_neg]
  exact neg_pos.mpr h

/-! ## Integers -/

/-- A form with a negative exponent stands for a quotient by a power of ten. -/
theorem toRat_of_neg_exponent {a : Decimal} (h : a.exponent < 0) :
    a.toRat = a.coefficient / (tenTo (-a.exponent).toNat : Int) := by
  have hexp : a.exponent = -((-a.exponent).toNat : Int) := by omega
  rw [tenTo_cast, toRat]
  conv_lhs => rw [hexp]
  rw [zpow_neg, zpow_natCast, div_eq_mul_inv]

/-- A form stands for an integer exactly if no digit other than zero is right of the
point. -/
theorem isInteger_iff (a : Decimal) : a.isInteger = true ↔ ∃ i : Int, a.toRat = i := by
  unfold isInteger
  by_cases h : 0 ≤ a.exponent
  · have hint : a.toRat = (a.scaledTo 0 : Int) := by
      rw [← toRat_scaledTo a h, zpow_zero, mul_one]
    simp [h, hint]
  · have hten : ((tenTo (-a.exponent).toNat : Int) : ℚ) ≠ 0 := by
      rw [tenTo_cast]
      positivity
    rw [toRat_of_neg_exponent (by omega)]
    simp only [h, decide_false, Bool.false_or, beq_iff_eq]
    rw [← Int.dvd_iff_emod_eq_zero]
    constructor
    · rintro ⟨i, hi⟩
      refine ⟨i, ?_⟩
      rw [hi, Int.cast_mul, mul_comm, mul_div_assoc, div_self hten, mul_one]
    · rintro ⟨i, hi⟩
      refine ⟨i, ?_⟩
      rw [div_eq_iff hten, mul_comm] at hi
      exact_mod_cast hi

theorem int_pos_of_toRat_eq {a : Decimal} {i : Int} (h : a.toRat = i) (ha : 0 < a.toRat) :
    0 < i := by
  rw [h] at ha
  exact_mod_cast ha

/-- A positive number that is an integer is a natural number. -/
theorem exists_nat_of_int {a : Decimal} (h : ∃ i : Int, a.toRat = i) (ha : 0 < a.toRat) :
    ∃ n : Nat, a.toRat = n := by
  obtain ⟨i, hi⟩ := h
  have hpos := int_pos_of_toRat_eq hi ha
  refine ⟨i.toNat, ?_⟩
  rw [hi, ← Int.cast_natCast, Int.toNat_of_nonneg hpos.le]

/-- A number and its negative are integers together. -/
theorem exists_int_neg_iff {a : Decimal} :
    (∃ i : Int, a.neg.toRat = i) ↔ ∃ i : Int, a.toRat = i := by
  rw [toRat_neg]
  constructor
  · rintro ⟨i, hi⟩
    exact ⟨-i, by rw [Int.cast_neg, ← hi, neg_neg]⟩
  · rintro ⟨i, hi⟩
    exact ⟨-i, by rw [Int.cast_neg, hi]⟩

/-! ## What only the number answers -/

section Answers

variable {a b : Decimal} (h : a.toRat = b.toRat)

include h

theorem isZero_congr : a.isZero = b.isZero := by
  rw [Bool.eq_iff_iff, isZero_iff, isZero_iff, h]

theorem isNegative_congr : a.isNegative = b.isNegative := by
  rw [Bool.eq_iff_iff, isNegative_iff, isNegative_iff, h]

theorem isInteger_congr : a.isInteger = b.isInteger := by
  rw [Bool.eq_iff_iff, isInteger_iff, isInteger_iff, h]

theorem less_congr_left (c : Decimal) : a.less c = b.less c := by
  rw [Bool.eq_iff_iff, less_iff, less_iff, h]

theorem greater_congr_right (c : Decimal) : c.greater a = c.greater b := by
  rw [Bool.eq_iff_iff, greater_iff, greater_iff, h]

end Answers

end DecimalCalc.Decimal
