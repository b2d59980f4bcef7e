import DecimalCalc.Proofs.Decimal.IntegralPower
import DecimalCalc.Proofs.Decimal.PlaceRounding
import DecimalCalc.Proofs.Expression.Recursion
import DecimalCalc.Proofs.Precision
/-!
# Negative powers as quotients

A negative integral power is the reciprocal of an exact power, so it is rounded once, at the
place where the quotient of one by that power is.  But a power is not told the rounding mode
of the request: its reciprocal is rounded in the mode of the settings
(`Operator.negative_power_as_quotient`).
-/

namespace DecimalCalc

namespace Operator

variable {ctx : Context} {mode : Rounding} {b n : Decimal} {i p : Int}

/-- **A negative power is a quotient in the rounding mode of the settings.**  Within the
limits on powers, let any rounding mode be given in the request.  The power and the quotient
of one by the positive power are both the reciprocal of the exact power, rounded at the same
place: the quotient in the mode of the request, the power in that of the settings.  So they
are the same where the request asks for that mode. -/
theorem negative_power_as_quotient (hrounding : ctx.settings.rounding = mode.name)
    (hb : b.toRat ≠ 0) (hi : n.toRat = i) (hpos : 0 < i)
    (hpower : i ≤ ctx.settings.maxIntegerPower)
    (hsize : (b.bitLength : Int) * i * 31 / 100 ≤ ctx.settings.maxResultDigits)
    (hp : p < 0) (given : Rounding) :
    let result := fun op x y =>
      (Operator.apply ctx op (.number x) (.number y) (.int p) (.text given.name)).outcome
    let place := min (-(b.exponent * i)) p
    ∃ r power quotient : Decimal,
      result .pow b n = .ok (.number r) ∧ r.toRat = b.toRat ^ i ∧
      result .pow b n.neg = .ok (.number power) ∧
      power.toRat = mode.atPlace place (b.toRat ^ i)⁻¹ ∧
      result .div .one r = .ok (.number quotient) ∧
      quotient.toRat = given.atPlace place (b.toRat ^ i)⁻¹ ∧
      (given = mode → power = quotient) := by
  intro result place
  obtain ⟨r, hvalue, hexponent, hr⟩ := Decimal.exists_power hb hpos hpower hsize
  have hnonzero : r.toRat ≠ 0 := by
    rw [hvalue]
    exact zpow_ne_zero i hb
  have hreciprocal : ∀ m : Rounding, (Decimal.one.quotient r p m).toRat =
      m.atPlace place (b.toRat ^ i)⁻¹ := by
    intro m
    rw [Decimal.toRat_reciprocal hnonzero, hexponent, hvalue]
  have hdivide : ∀ (m : Rounding) (rounding : Value), ctx.resolveRounding rounding = .ok m →
      Decimal.one.divide ctx r (.int p) rounding = .ok (Decimal.one.quotient r p m) :=
    fun m _ hm => Decimal.one.divide_eq_quotient hnonzero (ctx.resolvePrecision_int hp) hm
  have hzero : ¬ r.isZero = true := fun h => hnonzero ((Decimal.isZero_iff r).mp h)
  have hneg : n.neg.toRat < 0 := by
    rw [Decimal.toRat_neg, hi, neg_lt_zero]
    exact_mod_cast hpos
  have htwice : n.neg.neg.toRat = i := by
    rw [Decimal.toRat_neg, Decimal.toRat_neg, neg_neg, hi]
  refine ⟨r, Decimal.one.quotient r p mode, Decimal.one.quotient r p given, ?_, hvalue, ?_,
    hreciprocal mode, ?_, hreciprocal given, ?_⟩
  · simp only [result, outcome_pow, hr n (.int p) hi, ok_bind]
  · simp only [result, outcome_pow, Decimal.outcome_power_of_neg hneg,
      hr n.neg.neg (.int p) htwice, ok_bind,
      hdivide mode .none (Context.resolveRounding_default hrounding)]
  · simp only [result, outcome_div _ _ _ _ hzero, ok_bind,
      hdivide given _ (ctx.resolveRounding_name given)]
  · rintro rfl
    rfl

/-- The inverse of the third power of a negative number, with a zero in the exponent. -/
theorem negative_power_as_quotient_cube :
    let result := fun op x y => (Operator.apply (Context.initial {}) op (.number x) (.number y)
      (.int (-4)) (.text Rounding.truncate.name)).outcome
    result .pow ⟨-15, -1⟩ ⟨30, -1⟩ = .ok (.number ⟨-3375, -3⟩) ∧
      result .pow ⟨-15, -1⟩ (Decimal.neg ⟨30, -1⟩) = result .div .one ⟨-3375, -3⟩ := by
  intro result
  have hrounding : (Context.initial {}).settings.rounding = Rounding.truncate.name := rfl
  have hbase : (⟨-15, -1⟩ : Decimal).toRat ≠ 0 := by norm_num [Decimal.toRat]
  have hthree : (⟨30, -1⟩ : Decimal).toRat = (3 : Int) := by norm_num [Decimal.toRat]
  have hcube : result .pow ⟨-15, -1⟩ ⟨30, -1⟩ = .ok (.number ⟨-3375, -3⟩) :=
    eq_ok_of_toOption (by decide +kernel)
  obtain ⟨r, power, quotient, hr, -, hpower, -, hquotient, -, hsame⟩ :=
    negative_power_as_quotient hrounding hbase hthree (by decide) (by decide) (by decide)
      (by decide : (-4 : Int) < 0) .truncate
  have hforms : r = ⟨-3375, -3⟩ := Datum.number.inj (Except.ok.inj (hr.symm.trans hcube))
  subst hforms
  refine ⟨hcube, ?_⟩
  calc result .pow ⟨-15, -1⟩ (Decimal.neg ⟨30, -1⟩)
      = .ok (.number power) := hpower
    _ = .ok (.number quotient) := by rw [hsame rfl]
    _ = result .div .one ⟨-3375, -3⟩ := hquotient.symm

/-- **The mode of the request does not reach the power.**  Under the default settings and
rounding half away from zero, the inverse of six to one place is `0.1` as a power and `0.2`
as a quotient. -/
theorem negative_power_not_as_quotient :
    let result := fun op x y => (Operator.apply (Context.initial {}) op (.number x) (.number y)
      (.int (-1)) (.text Rounding.halfAway.name)).outcome
    result .pow ⟨6, 0⟩ (Decimal.neg ⟨1, 0⟩) = .ok (.number ⟨1, -1⟩) ∧
      result .pow ⟨6, 0⟩ ⟨1, 0⟩ = .ok (.number ⟨6, 0⟩) ∧
      result .div .one ⟨6, 0⟩ = .ok (.number ⟨2, -1⟩) ∧
      (⟨1, -1⟩ : Decimal).toRat ≠ (⟨2, -1⟩ : Decimal).toRat := by
  intro result
  refine ⟨eq_ok_of_toOption (by decide +kernel), eq_ok_of_toOption (by decide +kernel),
    eq_ok_of_toOption (by decide +kernel), by norm_num [Decimal.toRat]⟩

end Operator

end DecimalCalc
