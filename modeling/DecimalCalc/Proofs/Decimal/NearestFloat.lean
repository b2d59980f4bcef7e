import DecimalCalc.Decimal.Conversion
import DecimalCalc.Proofs.Binary64.NearestQuotient
import DecimalCalc.Proofs.Decimal.RationalValue
import DecimalCalc.Proofs.Outcome
/-!
# The nearest float to a number

The quotient that is rounded depends on the form of a number, and what it is rounded to does
not: it is the float that the rational number is rounded to, subnormal ones included.  From
`Binary64.overflow` on that is an infinity.

The form shows in one place.  The sign of an infinity is taken from the coefficient as a
float, and a coefficient that is itself beyond the floats has none: `toBinary64_rounds`.
-/

namespace DecimalCalc.Decimal

open Numeral Binary64

/-- The float of a number as long as there is a finite one: that of its coefficient times the
power of ten, or divided by one. -/
def floatQuotient (a : Decimal) : Binary64 :=
  if 0 ≤ a.exponent then ofRatio (a.scaledTo 0) 1
  else ofRatio a.coefficient (tenTo (-a.exponent).toNat)

/-- **The quotient of a form is rounded as its number.** -/
theorem rounds_floatQuotient (a : Decimal) : Rounds a.toRat a.floatQuotient := by
  unfold floatQuotient
  split
  · next h =>
      have hvalue : a.toRat = (a.scaledTo 0 : ℚ) / (1 : Nat) := by
        rw [← toRat_scaledTo a h, zpow_zero, mul_one, Nat.cast_one, div_one]
      rw [hvalue]
      exact rounds_ofRatio _ Nat.one_pos
  · next h =>
      rw [toRat_of_neg_exponent (not_le.mp h), Int.cast_natCast]
      exact rounds_ofRatio _ (Nat.pow_pos (n := (-a.exponent).toNat) (by norm_num))

theorem rounds_of_floatQuotient {a : Decimal} {y : Binary64} (h : a.floatQuotient = y) :
    Rounds a.toRat y := h ▸ rounds_floatQuotient a

/-- A coefficient has a float of its own below the middle beyond the greatest one. -/
theorem isFinite_coefficient_iff (c : Int) :
    (ofRatio c 1).isFinite = true ↔ |(c : ℚ)| < overflow := by
  have hrounds := rounds_ofRatio c Nat.one_pos
  rw [Nat.cast_one, div_one] at hrounds
  exact hrounds.isFinite_iff

/-- The float of a form: what its number is rounded to, or a fault. -/
theorem toBinary64_eq (a : Decimal) {y : Binary64} (h : Rounds a.toRat y) :
    a.toBinary64 = if overflow ≤ |a.toRat| ∧ overflow ≤ |(a.coefficient : ℚ)|
      then .error (.fault .integerBeyondFloat) else .ok y := by
  obtain rfl : a.floatQuotient = y := (rounds_floatQuotient a).unique h
  have hform : a.toBinary64 = if a.floatQuotient.isFinite then .ok a.floatQuotient
      else if (ofRatio a.coefficient 1).isFinite then .ok (.infinite a.isNegative)
      else .error (.fault .integerBeyondFloat) := rfl
  have hfinite := h.isFinite_iff
  have hcoefficient := isFinite_coefficient_iff a.coefficient
  rw [hform]
  by_cases hrange : |a.toRat| < overflow
  · rw [if_pos (hfinite.mpr hrange), if_neg (fun hboth => hrange.not_ge hboth.1)]
  · have hbeyond : ¬ a.floatQuotient.isFinite = true := fun hlt => hrange (hfinite.mp hlt)
    rw [if_neg hbeyond]
    by_cases hsmall : |(a.coefficient : ℚ)| < overflow
    · have hsign : a.isNegative = decide (a.toRat < 0) := by
        rw [Bool.eq_iff_iff, isNegative_iff, decide_eq_true_iff]
      rw [if_pos (hcoefficient.mpr hsmall), if_neg (fun hboth => hsmall.not_ge hboth.2),
        h.eq_infinite (Bool.eq_false_iff.mpr hbeyond), hsign]
    · rw [if_neg (fun hlt => hsmall (hcoefficient.mp hlt)),
        if_pos ⟨not_lt.mp hrange, not_lt.mp hsmall⟩]

/-- **The float of a number is the nearest one**, a tie going to the even significand, or an
infinity of its sign from `overflow` on; it is the same for all forms of the number.  The one
exception is the fault of a form whose number and coefficient are both beyond the floats. -/
theorem toBinary64_rounds (a : Decimal) :
    ∃ y, (∀ z, Rounds a.toRat z ↔ z = y) ∧ (y.isFinite = true ↔ |a.toRat| < overflow) ∧
      ∀ b : Decimal, a.equal b = true →
        b.toBinary64 = if overflow ≤ |a.toRat| ∧ overflow ≤ |(b.coefficient : ℚ)|
          then .error (.fault .integerBeyondFloat) else .ok y := by
  have hrounds := rounds_floatQuotient a
  refine ⟨a.floatQuotient, ?_, hrounds.isFinite_iff, ?_⟩
  · intro z
    refine ⟨fun hz => hz.unique hrounds, ?_⟩
    intro hz
    rwa [hz]
  · intro b hb
    have hvalue : a.toRat = b.toRat := (equal_iff a b).mp hb
    rw [hvalue] at hrounds ⊢
    exact toBinary64_eq b hrounds

/-- Two forms of a number beyond the floats. -/
theorem toBinary64_rounds_infinite :
    equal ⟨-1, 400⟩ ⟨-10, 399⟩ = true ∧ toBinary64 ⟨-10, 399⟩ = .ok (.infinite true) ∧
      ∀ z, Rounds (toRat ⟨-1, 400⟩) z ↔ z = .infinite true := by
  have hequal : equal ⟨-1, 400⟩ ⟨-10, 399⟩ = true := by decide +kernel
  have hfloat : toBinary64 ⟨-10, 399⟩ = .ok (.infinite true) :=
    eq_ok_of_toOption (by decide +kernel)
  have hsmall : |((-10 : Int) : ℚ)| < overflow := (isFinite_coefficient_iff (-10)).mp (by decide)
  obtain ⟨y, hy, -, hforms⟩ := toBinary64_rounds ⟨-1, 400⟩
  have hresult := hforms ⟨-10, 399⟩ hequal
  rw [if_neg (fun hboth => hsmall.not_ge hboth.2), hfloat] at hresult
  obtain rfl : .infinite true = y := Except.ok.inj hresult
  exact ⟨hequal, hfloat, hy⟩

/-- A power of ten that is rounded to infinity: there is a fault where it is the coefficient,
and not where it is the exponent. -/
theorem toBinary64_large_coefficient :
    Rounds (toRat ⟨10 ^ 309, 0⟩) (.infinite false) ∧
      toBinary64 ⟨10 ^ 309, 0⟩ = .error (.fault .integerBeyondFloat) ∧
      equal ⟨10 ^ 309, 0⟩ ⟨1, 309⟩ = true ∧ toBinary64 ⟨1, 309⟩ = .ok (.infinite false) := by
  have hquotient : floatQuotient ⟨10 ^ 309, 0⟩ = .infinite false := by decide +kernel
  exact ⟨rounds_of_floatQuotient hquotient, by decide +kernel, by decide +kernel,
    eq_ok_of_toOption (by decide +kernel)⟩

end DecimalCalc.Decimal
