import DecimalCalc.Proofs.Decimal.PowerFaults
import DecimalCalc.Proofs.Decimal.RootBounds
/-!
# The search for an exponent

The bisection of a fractional power keeps its exponent in an interval and halves the
interval in every step.  The key fact is that a halving is exact (`toRat_quotient_two`):
the precision of the division goes one digit below the form that is halved, and half of a
digit is a digit there.

`Bisection.step_eq_ok` says what a step does.  `Bisection.Halves` is what it keeps: after
`k` steps the interval holds the exponent, has the width `1 / 2 ^ k`, and its middle is its
exact middle.  `Bisection.exists_of_run` carries any property from the start of a search to
its end.
-/

namespace DecimalCalc.Decimal

open Numeral

@[simp] theorem toRat_half : half.toRat = 1 / 2 := by
  rw [half, toRat]
  norm_num

/-! ## Halving -/

/-- **A division by two is exact** one digit below the form. -/
theorem toRat_quotient_two (a : Decimal) {p : Int} (hp : p ≤ a.exponent - 1) (mode : Rounding) :
    (a.quotient two p mode).toRat = a.toRat / 2 := by
  have htwo : two.toRat ≠ 0 := by rw [toRat_two]; norm_num
  have hplace : a.quotientPlace two p = p := by
    change min (a.exponent - 0) p = p
    omega
  obtain ⟨digits, hdigits⟩ : ∃ digits : Nat, a.exponent = (digits : Int) + (1 + p) :=
    ⟨(a.exponent - 1 - p).toNat, by omega⟩
  have hmultiple : a.toRat / 2 = ((a.coefficient * 5 * 10 ^ digits : Int) : ℚ) * 10 ^ p := by
    rw [toRat, hdigits, zpow_add₀ (by norm_num), zpow_add₀ (by norm_num), zpow_one, zpow_natCast]
    push_cast
    ring
  rw [toRat_quotient a htwo, hplace, toRat_two, hmultiple]
  exact mode.atPlace_of_multiple _ _

theorem le_exponent_ofParts (c : Int) {e : Int} (he : e ≤ 0) : e ≤ (ofParts c e).exponent := by
  rcases ofParts_eq_zero_or_exponent c e with hzero | hexponent
  · rw [hzero]
    exact he
  · exact hexponent.ge

/-- The middle of two numbers is exact. -/
theorem toRat_middle {ctx : Context} {low high middle : Decimal} (hlow : low.exponent ≤ 0)
    (h : (low.add high).divide ctx two (.int (min low.exponent high.exponent - 1)) .none =
      .ok middle) :
    middle.toRat = (low.toRat + high.toRat) / 2 := by
  obtain ⟨-, mode, -, rfl⟩ := eq_quotient_of_divide h
  have hexponent : min low.exponent high.exponent ≤ (low.add high).exponent :=
    le_exponent_ofParts _ (by omega)
  rw [toRat_quotient_two _ (by omega), toRat_add]

namespace Bisection

variable {ctx : Context} {exponent : Decimal} {working : Int} {b b' : Bisection}

/-! ## One step -/

/-- The half of the interval that a step goes on with, and what the power so far is
multiplied by: the lower half and the inverse of the new root where the middle is above the
exponent, else the upper half and the root itself. -/
inductive Chooses (ctx : Context) (exponent : Decimal) (working : Int) (b : Bisection)
    (root : Decimal) : (low high factor : Decimal) → Prop where
  | lower {inverse : Decimal} (habove : exponent.toRat < b.middle.toRat)
      (hinverse : one.divide ctx root (.int working) .none = .ok inverse) :
      Chooses ctx exponent working b root b.low b.middle inverse
  | upper (hbelow : b.middle.toRat ≤ exponent.toRat) :
      Chooses ctx exponent working b root b.middle b.high root

/-- **What a step does.**  It takes the next root and halves the interval; the power so far
is multiplied and cut. -/
theorem step_eq_ok (h : (b.step ctx exponent working).outcome = .ok b') :
    ∃ factor, (b.root.sqrt ctx (.int working)).outcome = .ok b'.root ∧
      Chooses ctx exponent working b b'.root b'.low b'.high factor ∧
      (b'.low.add b'.high).divide ctx two
        (.int (min b'.low.exponent b'.high.exponent - 1)) .none = .ok b'.middle ∧
      b'.power = (b.power.mul factor).truncate working := by
  simp only [step, stepWith, squareRoot, Traced.outcome_bind] at h
  obtain ⟨root, hroot, h⟩ := bind_eq_ok_iff.mp h
  by_cases habove : b.middle.greater exponent = true
  · rw [if_pos habove] at h
    simp only [Traced.outcome_bind, Traced.outcome_liftM, Traced.outcome_pure] at h
    obtain ⟨inverse, hinverse, h⟩ := bind_eq_ok_iff.mp h
    obtain ⟨_, hchosen, h⟩ := bind_eq_ok_iff.mp h
    cases hchosen
    obtain ⟨middle, hmiddle, h⟩ := bind_eq_ok_iff.mp h
    cases h
    exact ⟨inverse, hroot, .lower ((greater_iff _ _).mp habove) hinverse, hmiddle, rfl⟩
  · rw [if_neg habove] at h
    simp only [Traced.outcome_bind, Traced.outcome_liftM, Traced.outcome_pure] at h
    obtain ⟨_, hchosen, h⟩ := bind_eq_ok_iff.mp h
    cases hchosen
    obtain ⟨middle, hmiddle, h⟩ := bind_eq_ok_iff.mp h
    cases h
    refine ⟨root, hroot, .upper ?_, hmiddle, rfl⟩
    exact not_lt.mp fun hlt => habove ((greater_iff _ _).mpr hlt)

/-! ## The interval -/

/-- After `k` halvings of the interval from zero to one: it holds the exponent, and the
middle is exact. -/
structure Halves (exponent : Decimal) (k : Nat) (b : Bisection) : Prop where
  fractional : b.Fractional
  zero_le : 0 ≤ b.low.toRat
  low_le : b.low.toRat ≤ exponent.toRat
  le_high : exponent.toRat ≤ b.high.toRat
  high_le : b.high.toRat ≤ 1
  width : b.high.toRat - b.low.toRat = 1 / 2 ^ k
  middle : b.middle.toRat = (b.low.toRat + b.high.toRat) / 2

theorem halves_start (root : Decimal) (hlower : 0 ≤ exponent.toRat)
    (hupper : exponent.toRat ≤ 1) : Halves exponent 0 (start root) where
  fractional := fractional_start root
  zero_le := toRat_zero.ge
  low_le := toRat_zero.le.trans hlower
  le_high := hupper.trans toRat_one.ge
  high_le := toRat_one.le
  width := by
    change one.toRat - zero.toRat = 1 / 2 ^ 0
    rw [toRat_one, toRat_zero]
    norm_num
  middle := by
    change half.toRat = (zero.toRat + one.toRat) / 2
    rw [toRat_half, toRat_one, toRat_zero]
    norm_num

section Halves

variable {k : Nat}

/-- The middle is inside the interval from zero to one. -/
theorem Halves.middle_mem (h : Halves exponent k b) :
    0 < b.middle.toRat ∧ b.middle.toRat < 1 := by
  have hwidth : (0 : ℚ) < 1 / 2 ^ k := by positivity
  have hzero := h.zero_le
  have hone := h.high_le
  rw [h.middle]
  rw [← h.width] at hwidth
  exact ⟨by linarith, by linarith⟩

/-- The exponent is within half of the width of the middle. -/
theorem Halves.abs_middle_sub_le (h : Halves exponent k b) :
    |b.middle.toRat - exponent.toRat| ≤ 1 / 2 ^ (k + 1) := by
  have hlow := h.low_le
  have hhigh := h.le_high
  have hwidth := h.width
  have hhalf : (1 : ℚ) / 2 ^ (k + 1) = 1 / 2 ^ k / 2 := by rw [pow_succ, div_div]
  rw [h.middle, hhalf, ← hwidth, abs_le]
  exact ⟨by linarith, by linarith⟩

/-- A step goes on with the half that holds the exponent. -/
theorem Halves.step (hb : Halves exponent k b) (hworking : working < 0)
    (h : (b.step ctx exponent working).outcome = .ok b') : Halves exponent (k + 1) b' := by
  have hfractional : b'.Fractional := by
    have hsound : Faultless Fractional (b.step ctx exponent working).outcome :=
      step_faultless exponent hworking hb.fractional
    rw [h] at hsound
    exact hsound
  have hmiddle := hb.middle
  have hwidth := hb.width
  have hinside := hb.middle_mem
  have hhalf : (1 : ℚ) / 2 ^ (k + 1) = 1 / 2 ^ k / 2 := by rw [pow_succ, div_div]
  obtain ⟨low, high, middle, root, power⟩ := b'
  obtain ⟨factor, -, hchosen, hnext, -⟩ := step_eq_ok h
  have hexact : middle.toRat = (low.toRat + high.toRat) / 2 := toRat_middle hfractional.low hnext
  cases hchosen with
  | lower habove hinverse =>
      refine ⟨hfractional, hb.zero_le, hb.low_le, habove.le, hinside.2.le, ?_, hexact⟩
      change b.middle.toRat - b.low.toRat = 1 / 2 ^ (k + 1)
      rw [hhalf]
      linarith
  | upper hbelow =>
      refine ⟨hfractional, hinside.1.le, hbelow, hb.le_high, hb.high_le, ?_, hexact⟩
      change b.high.toRat - b.middle.toRat = 1 / 2 ^ (k + 1)
      rw [hhalf]
      linarith

end Halves

/-! ## The run -/

/-- A property that steps keep holds where a search ends: when the middle is within epsilon
of the exponent, or no steps are left. -/
theorem exists_of_run {P : Nat → Bisection → Prop}
    (hstep : ∀ k b b', P k b → (b.step ctx exponent working).outcome = .ok b' → P (k + 1) b')
    (left done k : Nat) {b : Bisection} {r : Decimal} (hb : P k b)
    (h : (run ctx exponent working left done b).outcome = .ok r) :
    ∃ last k', P k' last ∧ k' ≤ k + left ∧ last.power = r ∧
      (k' = k + left ∨ ¬ last.middle.farApart ctx.settings exponent = true) := by
  induction left generalizing done k b with
  | zero => exact ⟨b, k, hb, Nat.le_refl k, Except.ok.inj h, .inl rfl⟩
  | succ left ih =>
      by_cases hfar : b.middle.farApart ctx.settings exponent = true
      · rw [run_of_farApart hfar, Traced.outcome_bind] at h
        obtain ⟨next, hnext, h⟩ := bind_eq_ok_iff.mp h
        obtain ⟨last, k', hlast, hle, hpower, hend⟩ := ih (done + 1) (k + 1)
          (hstep k b next hb hnext) h
        refine ⟨last, k', hlast, by omega, hpower, hend.imp_left ?_⟩
        intro heq
        omega
      · rw [run_of_near hfar] at h
        exact ⟨b, k, hb, by omega, Except.ok.inj h, .inr hfar⟩

end Bisection

/-- Of any base but zero, the search starts with the square root. -/
theorem powerBelowOne_of_ne_zero {ctx : Context} {base : Decimal} (hbase : base.toRat ≠ 0)
    (exponent : Decimal) (working : Int) :
    powerBelowOne ctx base exponent working = (do
      let root ← base.sqrt ctx (.int working)
      (Bisection.start root).run ctx exponent working (Bisection.stepLimit ctx.settings) 0) := by
  rw [powerBelowOne, powerBelowOneWith, if_neg fun h => hbase ((isZero_iff base).mp h)]
  rfl

end DecimalCalc.Decimal
