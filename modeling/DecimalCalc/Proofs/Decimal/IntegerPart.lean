import DecimalCalc.Proofs.Decimal.NormalForm
import DecimalCalc.Proofs.Decimal.Truncation
import Mathlib.Data.Sign.Basic
/-!
# Integer part and fraction

The integer part of a number is its cut at the place of the units (`toRat_integer`), and the
fraction is what the cut takes off, so it is on the side of the number (`IsCut.sign_sub`) and
below one.  Four questions decide whether a number is an integer, and they have one answer:
whether a remainder is zero, whether the cut changes nothing, whether the difference is zero,
and whether the normal form has the exponent zero.

The integer part is always written with the exponent zero, so forms of a number have the same
integer part in the same form (`integer_congr`), and floor and ceiling with it.
-/

namespace DecimalCalc

open Numeral

/-- What a cut takes off is zero or has the sign of the number. -/
theorem IsCut.sign_sub {place : Int} {x y : ℚ} (h : IsCut place x y) :
    x - y = 0 ∨ SignType.sign (x - y) = SignType.sign x := by
  have hle := h.abs_le
  rcases mul_nonneg_iff.mp h.sameSign with ⟨hx, hy⟩ | ⟨hx, hy⟩
  · rw [abs_of_nonneg hx, abs_of_nonneg hy] at hle
    rcases hle.eq_or_lt with heq | hlt
    · exact .inl (by linarith)
    · exact .inr (by rw [sign_pos (by linarith), sign_pos (by linarith)])
  · rw [abs_of_nonpos hx, abs_of_nonpos hy] at hle
    rcases hle.eq_or_lt with heq | hlt
    · exact .inl (by linarith)
    · exact .inr (by rw [sign_neg (by linarith), sign_neg (by linarith)])

namespace Decimal

variable {a b : Decimal}

/-! ## The parts as numbers -/

/-- The integer part stands for its coefficient. -/
theorem toRat_integer (a : Decimal) : a.integer.toRat = a.integer.coefficient := by
  rw [toRat, exponent_integer, zpow_zero, mul_one]

/-- The integer part is the cut at the place of the units. -/
theorem toRat_integer_eq_truncate (a : Decimal) : a.integer.toRat = (a.truncate 0).toRat := by
  rw [toRat_truncate, toRat_integer, coefficient_integer, Rounding.atPlace, zpow_zero, div_one,
    mul_one]

theorem isCut_integer_zero (a : Decimal) : IsCut 0 a.toRat a.integer.toRat := by
  rw [toRat_integer_eq_truncate]
  exact isCut_truncate a 0

theorem toRat_fraction (a : Decimal) : a.fraction.toRat = a.toRat - a.integer.toRat :=
  toRat_sub a a.integer

/-- An integer is its own integer part. -/
theorem toRat_integer_of_int {i : ℤ} (h : a.toRat = i) : a.integer.toRat = a.toRat := by
  rw [toRat_integer, coefficient_integer, h, Rounding.nearby_intCast]

/-! ## Integers -/

/-- A number is an integer exactly if its fraction is zero. -/
theorem isInteger_iff_fraction (a : Decimal) :
    a.isInteger = true ↔ a.fraction.isZero = true := by
  rw [isInteger_iff, isZero_iff, toRat_fraction, sub_eq_zero]
  constructor
  · rintro ⟨i, hi⟩
    exact (toRat_integer_of_int hi).symm
  · intro heq
    exact ⟨a.integer.coefficient, heq.trans (toRat_integer a)⟩

/-- A number is an integer exactly if its normal form has the exponent zero. -/
theorem isInteger_iff_exponent_normalize (a : Decimal) :
    a.isInteger = true ↔ a.normalize.exponent = 0 := by
  rw [isInteger_iff]
  constructor
  · rintro ⟨i, hi⟩
    have hvalue : (⟨i, 0⟩ : Decimal).toRat = i := by
      rw [toRat, zpow_zero, mul_one]
    have hnormal : a.normalize = ⟨i, 0⟩ :=
      a.normalize_isNormal.eq_of_toRat_eq (isNormal_of_exponent_zero i)
        (by rw [toRat_normalize, hi, hvalue])
    rw [hnormal]
  · intro hexponent
    refine ⟨a.normalize.coefficient, ?_⟩
    rw [← toRat_normalize, toRat, hexponent, zpow_zero, mul_one]

/-- The ceiling is the integer part, and one more unless the number is an integer. -/
theorem toRat_ceil (a : Decimal) :
    a.ceil.toRat = if a.isInteger then a.integer.toRat else a.integer.toRat + 1 := by
  unfold ceil
  split
  · rfl
  · rw [toRat_add, toRat_one]

/-! ## Forms -/

/-- Forms of a number have the same integer part, in the same form. -/
theorem integer_congr (h : a.toRat = b.toRat) : a.integer = b.integer := by
  rw [Decimal.mk.injEq, coefficient_integer, coefficient_integer, h, exponent_integer,
    exponent_integer]
  exact ⟨rfl, rfl⟩

theorem ceil_congr (h : a.toRat = b.toRat) : a.ceil = b.ceil := by
  rw [ceil, ceil, isInteger_congr h, integer_congr h]

/-- **A number is the sum of an integer and a fraction.**  The integer is the number, cut at the
place of the units; the fraction is zero or has the sign of the number, and is below one.  The
number is an integer exactly if the fraction is zero, and exactly if the normal form has the
exponent zero.  The floor is the integer part, and so is the ceiling of an integer; that of any
other number is one more.  All of this depends on the number alone and not on its form. -/
theorem integer_add_fraction (a : Decimal) :
    ((∃ i : ℤ, a.integer.toRat = i) ∧ a.integer.toRat = (a.truncate 0).toRat) ∧
      (a.integer.add a.fraction).toRat = a.toRat ∧
      (a.fraction.toRat = 0 ∨ SignType.sign a.fraction.toRat = SignType.sign a.toRat) ∧
      |a.fraction.toRat| < 1 ∧
      ((a.isInteger = true ↔ ∃ i : ℤ, a.toRat = i) ∧
        (a.isInteger = true ↔ a.fraction.isZero = true) ∧
        (a.isInteger = true ↔ a.normalize.exponent = 0)) ∧
      a.floor.toRat = a.integer.toRat ∧
      a.ceil.toRat = (if a.isInteger then a.integer.toRat else a.integer.toRat + 1) ∧
      ∀ b : Decimal, a.toRat = b.toRat →
        a.integer = b.integer ∧ a.fraction.toRat = b.fraction.toRat ∧
          a.isInteger = b.isInteger ∧ a.normalize = b.normalize ∧
          a.floor = b.floor ∧ a.ceil = b.ceil := by
  have hcut := a.isCut_integer_zero
  have hsum : (a.integer.add a.fraction).toRat = a.toRat := by
    rw [toRat_add, toRat_fraction, add_sub_cancel]
  have hsign := hcut.sign_sub
  have hsmall := hcut.abs_sub_lt
  rw [← toRat_fraction] at hsign hsmall
  rw [zpow_zero] at hsmall
  refine ⟨⟨⟨_, a.toRat_integer⟩, a.toRat_integer_eq_truncate⟩, hsum, hsign, hsmall,
    ⟨a.isInteger_iff, a.isInteger_iff_fraction, a.isInteger_iff_exponent_normalize⟩, rfl,
    a.toRat_ceil, fun b h => ?_⟩
  have hinteger := integer_congr h
  refine ⟨hinteger, ?_, isInteger_congr h, (normalize_eq_iff a b).mpr h, hinteger, ceil_congr h⟩
  rw [toRat_fraction, toRat_fraction, h, hinteger]

end Decimal

end DecimalCalc
