import DecimalCalc.Proofs.Decimal.IntegralPower
import DecimalCalc.Proofs.Decimal.PowerEnds
import DecimalCalc.Proofs.Numeral.Digits
import DecimalCalc.Proofs.Precision
/-!
# Faults of powers

Divisions, roots and powers fail for known causes: a divisor that is zero, a negative
root, no convergence, a result of too many digits.  A fault of theirs could come only from
a precision that is no precision, and the precisions that they make up themselves are
negative: they go below the exponents of numbers that are not integers, and below those of
the interval that a bisection narrows (`Bisection.Fractional`).

One fault remains.  The refusal of an integral power shows its exponent, and an exponent of
too many digits cannot be shown.  `faults_power_iff` says that this is the only one.
-/

namespace DecimalCalc.Decimal

open Numeral

variable {ctx : Context} {p working : Int}

/-- A quotient goes down to the precision at least, or it is zero. -/
theorem quotient_exponent (a b : Decimal) (hp : p < 0) (mode : Rounding) :
    (a.quotient b p mode).exponent ≤ 0 := by
  rcases a.quotient_eq_zero_or_exponent b p mode with hzero | hplace
  · rw [hzero]
    exact Int.le_refl 0
  · rw [hplace, quotientPlace]
    omega

theorem divide_faultless (a b : Decimal) (hp : p < 0) {rounding : Value}
    (hrounding : Faultless (fun _ => True) (ctx.resolveRounding rounding)) :
    Faultless (fun q => q.exponent ≤ 0) (a.divide ctx b (.int p) rounding) := by
  rw [divide, ctx.resolvePrecision_int hp, ok_bind]
  refine hrounding.bind fun mode _ => ?_
  split
  · exact trivial
  · exact a.quotient_exponent b hp mode

/-! ## Roots -/

theorem workingPrecision_faultless (hp : p < 0) :
    Faultless (· < 0) (ctx.workingPrecision (.int p)) := by
  rw [Context.workingPrecision, ctx.resolvePrecision_int hp]
  change min (min p ctx.settings.rootPrecision) (ctx.settings.epsilonExponent - 1) < 0
  omega

theorem refineRoot_faultless (n : Decimal) (hworking : working < 0) (left done : Nat)
    (x : Decimal) :
    Faultless (fun _ => True) (n.refineRoot ctx (.int working) left done x).outcome := by
  have hquotient : ∀ a b : Decimal,
      Ends (fun _ => True) _ (a.divide ctx b (.int working) .none) := fun a b =>
    (faultless_iff_ends.mp (a.divide_faultless b hworking ctx.resolveRounding_none)).mono_ok
      fun _ _ => trivial
  exact faultless_iff_ends.mpr (refineRoot_ends_of (D := fun _ => True) (Q := fun _ _ => True)
    nofun (fun x _ => hquotient n x) (fun x y _ _ _ => hquotient (x.add y) two)
    (fun _ _ _ _ _ => trivial) left done trivial)

theorem sqrt_faultless (n : Decimal) (hp : p < 0) :
    Faultless (fun _ => True) (n.sqrt ctx (.int p)).outcome := by
  unfold sqrt
  split
  · exact trivial
  · split
    · exact trivial
    · simp only [Traced.outcome_bind, Traced.outcome_liftM]
      refine (workingPrecision_faultless hp).bind fun working hworking => ?_
      exact n.refineRoot_faultless hworking _ 0 n.rootEstimate

/-! ## Fractional powers -/

/-- The ends and the middle of the interval have no exponent above zero. -/
structure Bisection.Fractional (b : Bisection) : Prop where
  low : b.low.exponent ≤ 0
  high : b.high.exponent ≤ 0
  middle : b.middle.exponent ≤ 0

theorem Bisection.fractional_start (root : Decimal) : (start root).Fractional :=
  ⟨Int.le_refl 0, Int.le_refl 0, (by decide : half.exponent ≤ 0)⟩

/-- A step goes on with one half of the interval, whose middle is a quotient. -/
theorem Bisection.step_faultless (exponent : Decimal) (hworking : working < 0)
    {b : Bisection} (hb : b.Fractional) :
    Faultless Bisection.Fractional (b.step ctx exponent working).outcome := by
  have hrounding := ctx.resolveRounding_none
  refine faultless_iff_ends.mpr (step_ends_of (R := fun _ => True) (L := fun d => d.exponent ≤ 0)
    (faultless_iff_ends.mp (b.root.sqrt_faultless hworking)) ?_ hb.low hb.middle hb.high ?_)
  · intro root _
    exact (faultless_iff_ends.mp (one.divide_faultless root hworking hrounding)).mono_ok
      fun _ _ => trivial
  · intro root power low high _ hlow hhigh
    have hbelow : min low.exponent high.exponent - 1 < 0 := by omega
    exact (faultless_iff_ends.mp ((low.add high).divide_faultless two hbelow hrounding)).mono_ok
      fun _ hmiddle => ⟨hlow, hhigh, hmiddle⟩

theorem powerBelowOne_faultless (base exponent : Decimal) (hworking : working < 0) :
    Faultless (fun _ => True) (powerBelowOne ctx base exponent working).outcome := by
  refine faultless_iff_ends.mpr (powerBelowOne_ends_of (R := fun _ => True) ?_
    (fun root _ => Bisection.fractional_start root) ?_)
  · exact fun _ => faultless_iff_ends.mp (base.sqrt_faultless hworking)
  · exact fun b hb => faultless_iff_ends.mp (b.step_faultless exponent hworking hb)

/-- Halving keeps the exponent without one above zero. -/
theorem fractionalPower_faultless (base : Decimal) (hp : p < 0) (halvings : Nat)
    {exponent : Decimal} (hexponent : exponent.exponent ≤ 0) :
    Faultless (fun _ => True)
      (fractionalPower ctx base (.int p) halvings exponent).outcome := by
  refine faultless_iff_ends.mpr (fractionalPower_ends_of (X := fun e => e.exponent ≤ 0)
    (faultless_iff_ends.mp (workingPrecision_faultless hp)) ?_ ?_ (fun _ _ _ => trivial)
    halvings hexponent)
  · exact fun e working _ hworking =>
      faultless_iff_ends.mp (powerBelowOne_faultless base e hworking)
  · intro e he
    have hbelow : e.exponent - 1 < 0 := by omega
    exact faultless_iff_ends.mp (e.divide_faultless two hbelow ctx.resolveRounding_none)

/-! ## Powers -/

/-- A number stands for an integer that is above the limit of integral powers, with or
without its sign, and too long to be shown. -/
def IsLongExponent (s : Settings) (e : Decimal) : Prop :=
  ∃ i : Int, e.toRat = i ∧ s.maxIntegerPower < i.natAbs ∧
    tenTo Fault.longestNumeral ≤ i.natAbs

theorem isLongExponent_neg {s : Settings} {e : Decimal} :
    e.neg.IsLongExponent s ↔ e.IsLongExponent s := by
  constructor
  · rintro ⟨i, hi, hlimit, hlong⟩
    refine ⟨-i, ?_, by rwa [Int.natAbs_neg], by rwa [Int.natAbs_neg]⟩
    rw [toRat_neg] at hi
    rw [Int.cast_neg, ← hi, neg_neg]
  · rintro ⟨i, hi, hlimit, hlong⟩
    refine ⟨-i, ?_, by rwa [Int.natAbs_neg], by rwa [Int.natAbs_neg]⟩
    rw [toRat_neg, hi, Int.cast_neg]

/-- Zero is not too long to be shown. -/
theorem toRat_ne_zero_of_isLongExponent {s : Settings} {e : Decimal}
    (h : e.IsLongExponent s) : e.toRat ≠ 0 := by
  obtain ⟨i, hi, -, hlong⟩ := h
  have hpos := (tenTo_pos Fault.longestNumeral).trans_le hlong
  rw [hi]
  exact_mod_cast Int.natAbs_pos.mp hpos

theorem faults_shownInt_iff {i : Int} :
    Faults (shownInt i) ↔ tenTo Fault.longestNumeral ≤ i.natAbs := by
  unfold shownInt
  split
  · next h => simp [Nat.not_le.mpr h]
  · next h => simp [Nat.not_lt.mp h]

/-- The refusal of an exponent above the limit is a fault if the exponent cannot be shown. -/
theorem faults_integralPower_iff {s : Settings} {base : Decimal} {power : Int} :
    Faults (integralPower s base power) ↔
      s.maxIntegerPower < power ∧ tenTo Fault.longestNumeral ≤ power.natAbs := by
  by_cases hlimit : s.maxIntegerPower < power
  · rw [integralPower_of_lt hlimit, faults_bind_iff_left fun _ => not_faults_error _,
      faults_shownInt_iff, and_iff_right hlimit]
  · rw [integralPower_of_le (Int.not_lt.mp hlimit)]
    refine iff_of_false ?_ fun h => hlimit h.1
    split
    · exact not_faults_error _
    · exact not_faults_ok _

/-- A number that is no integer has no exponent above zero. -/
theorem exponent_le_of_not_isInteger {e : Decimal} (h : ¬ e.isInteger = true) :
    e.exponent ≤ 0 := by
  by_contra hpos
  refine h ?_
  rw [isInteger, decide_eq_true (by omega : 0 ≤ e.exponent), Bool.true_or]

/-- A positive exponent that is no integer is brought below one, and an integer has its
power. -/
theorem faults_power_iff_of_pos (base : Decimal) (hp : p < 0) {e : Decimal} (he : 0 < e.toRat) :
    Faults (base.power ctx e (.int p)).outcome ↔ e.IsLongExponent ctx.settings := by
  by_cases hinteger : e.isInteger = true
  · obtain ⟨i, hi⟩ := e.isInteger_iff.mp hinteger
    have hpos := int_pos_of_toRat_eq hi he
    have habs : (i.natAbs : Int) = i := Int.natAbs_of_nonneg hpos.le
    rw [outcome_power_of_int hi hpos, faults_integralPower_iff]
    constructor
    · rintro ⟨hlimit, hlong⟩
      exact ⟨i, hi, habs.symm ▸ hlimit, hlong⟩
    · rintro ⟨j, hj, hlimit, hlong⟩
      have hij : i = j := by
        rw [hi] at hj
        exact_mod_cast hj
      subst hij
      exact ⟨habs ▸ hlimit, hlong⟩
  · have hexponent := exponent_le_of_not_isInteger hinteger
    rw [power_of_pos he, positivePower, positivePowerWith]
    simp only [hinteger]
    refine iff_of_false (fractionalPower_faultless base hp _ hexponent).not_faults ?_
    rintro ⟨i, hi, -⟩
    exact hinteger (e.isInteger_iff.mpr ⟨i, hi⟩)

/-- **The fault of a power** is an exponent that the refusal cannot show, with any base and
with either sign. -/
theorem faults_power_iff (base e : Decimal) (hp : p < 0) :
    Faults (base.power ctx e (.int p)).outcome ↔ e.IsLongExponent ctx.settings := by
  rcases lt_trichotomy e.toRat 0 with hneg | hzero | hpos
  · have hinverse : ∀ inverse : Decimal,
        ¬ Faults (one.divide ctx inverse (.int p) .none) := fun inverse =>
      (one.divide_faultless inverse hp ctx.resolveRounding_none).not_faults
    rw [outcome_power_of_neg hneg, faults_bind_iff_left hinverse,
      faults_power_iff_of_pos base hp (neg_toRat_pos hneg), isLongExponent_neg]
  · rw [power_of_zero hzero]
    exact iff_of_false (not_faults_ok _) fun h => toRat_ne_zero_of_isLongExponent h hzero
  · exact faults_power_iff_of_pos base hp hpos

end DecimalCalc.Decimal
