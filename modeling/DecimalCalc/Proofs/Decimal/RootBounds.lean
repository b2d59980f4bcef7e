import DecimalCalc.Proofs.Decimal.PlaceRounding
import DecimalCalc.Proofs.Decimal.PowerEnds
import DecimalCalc.Proofs.Precision
import Mathlib.Tactic.Linarith
/-!
# Roots within epsilon

The iteration for a root stops at a number `x` that is within epsilon of `y`, the quotient
`n / x` cut at a place below epsilon.  The root is between `x` and `n / x`, so it is within
epsilon of `x`: `WithinOfRoot.of_quotient`.  This needs nothing of how the iteration came
to `x` but that `x` is positive.

A positive `x` has a positive successor (`mean_pos`): where the iteration goes on, `x` and
`y` are so far apart that their mean is more than one unit of the place where it is cut.

`sqrt_within_epsilon` is the result, for every setting of epsilon, of the root precision and
of the limit on iterations.
-/

namespace DecimalCalc

/-- A negative precision has a working precision, which is negative. -/
theorem Context.exists_workingPrecision (ctx : Context) {p : Int} (hp : p < 0) :
    ∃ w, ctx.workingPrecision (.int p) = .ok w ∧ w < 0 := by
  rw [workingPrecision, ctx.resolvePrecision_int hp]
  exact ⟨_, rfl, by omega⟩

namespace Decimal

@[simp] theorem toRat_two : two.toRat = 2 := by simp [two, ofInt, toRat]

@[simp] theorem toRat_abs (a : Decimal) : a.abs.toRat = |a.toRat| := by
  unfold abs
  by_cases hneg : a.isNegative = true
  · rw [if_pos hneg, toRat_neg, abs_of_neg ((isNegative_iff a).mp hneg)]
  · rw [if_neg hneg, abs_of_nonneg (not_lt.mp fun h => hneg ((isNegative_iff a).mpr h))]

@[simp] theorem toRat_epsilon (s : Settings) : s.epsilon.toRat = 10 ^ s.epsilonExponent := by
  rw [Settings.epsilon, toRat_ofParts, Int.cast_one, one_mul]

/-- Numbers are far apart if they differ by more than epsilon. -/
theorem farApart_iff (s : Settings) (a b : Decimal) :
    a.farApart s b = true ↔ 10 ^ s.epsilonExponent < |a.toRat - b.toRat| := by
  rw [farApart, isPositive_iff, toRat_sub, toRat_abs, toRat_sub, toRat_epsilon, sub_pos]

/-! ## Divisions -/

/-- A division that has a result rounds the quotient in some mode. -/
theorem eq_quotient_of_divide {ctx : Context} {a b q : Decimal} {p : Int} {rounding : Value}
    (h : a.divide ctx b (.int p) rounding = .ok q) :
    b.toRat ≠ 0 ∧ ∃ mode, ctx.resolveRounding rounding = .ok mode ∧ q = a.quotient b p mode := by
  obtain ⟨p', hp, h⟩ := bind_eq_ok_iff.mp h
  obtain ⟨mode, hmode, h⟩ := bind_eq_ok_iff.mp h
  cases eq_of_validatePrecision_int hp
  by_cases hzero : b.isZero = true
  · rw [if_pos hzero] at h
    cases h
  · rw [if_neg hzero] at h
    exact ⟨fun hb => hzero ((isZero_iff b).mpr hb), mode, hmode, (Except.ok.inj h).symm⟩

/-- Under the settings that cut quotients, a quotient of positive numbers loses less than
one unit of the precision. -/
theorem divide_bounds {ctx : Context} (hrounding : ctx.settings.rounding = "truncate")
    {a b q : Decimal} {p : Int} (ha : 0 ≤ a.toRat) (hb : 0 ≤ b.toRat)
    (h : a.divide ctx b (.int p) .none = .ok q) :
    0 ≤ q.toRat ∧ q.toRat ≤ a.toRat / b.toRat ∧ a.toRat / b.toRat < q.toRat + 10 ^ p := by
  obtain ⟨hne, mode, hmode, rfl⟩ := eq_quotient_of_divide h
  have htruncate : mode = .truncate := by
    have hdefault : ctx.resolveRounding .none = .ok .truncate :=
      Context.resolveRounding_default hrounding
    rw [hdefault] at hmode
    exact (Except.ok.inj hmode).symm
  have hplace : (10 : ℚ) ^ a.quotientPlace b p ≤ 10 ^ p :=
    zpow_le_zpow_right₀ (by norm_num) (min_le_right _ _)
  obtain ⟨hnonneg, hle, hlt⟩ :=
    Rounding.truncate_atPlace_bounds (a.quotientPlace b p) (div_nonneg ha hb)
  rw [toRat_quotient a hne, htruncate]
  exact ⟨hnonneg, hle, hlt.trans_le (by linarith)⟩

/-! ## One step -/

/-- A positive number differs from the root of another one by epsilon at most. -/
structure WithinOfRoot (ε n x : ℚ) : Prop where
  pos : 0 < x
  above : n ≤ (x + ε) ^ 2
  below : x ≤ ε ∨ (x - ε) ^ 2 ≤ n

/-- **The root is between a number and its quotient.**  So a number that is within epsilon
of the quotient, cut by less than epsilon, is within epsilon of the root. -/
theorem WithinOfRoot.of_quotient {ε n x y δ : ℚ} (hx : 0 < x) (hδ : δ ≤ ε)
    (hle : y ≤ n / x) (hlt : n / x < y + δ) (hnear : |x - y| ≤ ε) : WithinOfRoot ε n x := by
  obtain ⟨hlower, hupper⟩ := abs_le.mp hnear
  have hn : n = n / x * x := (div_mul_cancel₀ n hx.ne').symm
  refine ⟨hx, ?_, ?_⟩
  · calc n = n / x * x := hn
      _ ≤ (x + 2 * ε) * x := mul_le_mul_of_nonneg_right (by linarith) hx.le
      _ ≤ (x + ε) ^ 2 := by nlinarith [sq_nonneg ε]
  · rcases le_or_gt x ε with hsmall | hlarge
    · exact .inl hsmall
    · right
      have hε : 0 ≤ ε := (abs_nonneg _).trans hnear
      calc (x - ε) ^ 2 = (x - ε) * (x - ε) := pow_two _
        _ ≤ (n / x) * x :=
            mul_le_mul (by linarith) (by linarith) (by linarith) (by linarith)
        _ = n := hn.symm

/-- The mean of a positive number and its quotient is not cut to zero where they are far
apart. -/
theorem mean_pos {x y z ε δ : ℚ} (hx : 0 < x) (hy : 0 ≤ y) (hδ : 2 * δ ≤ ε)
    (hfar : ε < |x - y|) (hlt : (x + y) / 2 < z + δ) : 0 < z := by
  have hsum : |x - y| ≤ x + y := abs_le.mpr ⟨by linarith, by linarith⟩
  linarith

/-! ## The iteration -/

section Iteration

variable {ctx : Context} {n : Decimal} {working : Int}

/-- The precision of the divisions is below epsilon. -/
theorem workingPrecision_le {precision : Value} {w : Int}
    (h : ctx.workingPrecision precision = .ok w) :
    w ≤ ctx.settings.rootPrecision ∧ w ≤ ctx.settings.epsilonExponent - 1 := by
  obtain ⟨p, -, h⟩ := bind_eq_ok_iff.mp h
  cases h
  exact ⟨(min_le_left _ _).trans (min_le_right _ _), min_le_right _ _⟩

theorem ten_zpow_working_le (hworking : working ≤ ctx.settings.epsilonExponent - 1) :
    2 * (10 : ℚ) ^ working ≤ 10 ^ ctx.settings.epsilonExponent := by
  have hε := ten_zpow_pos ctx.settings.epsilonExponent
  have hle : (10 : ℚ) ^ working ≤ 10 ^ (ctx.settings.epsilonExponent - 1) :=
    zpow_le_zpow_right₀ (by norm_num) hworking
  rw [zpow_sub_one₀ (by norm_num)] at hle
  linarith

/-- The iteration from a positive number: what it stops at is within epsilon of the root, and
what it goes on with is positive. -/
theorem refineRoot_withinOfRoot (hrounding : ctx.settings.rounding = "truncate")
    (hn : 0 < n.toRat) (hworking : working ≤ ctx.settings.epsilonExponent - 1)
    (left done : Nat) {x r : Decimal} (hx : 0 < x.toRat)
    (h : (n.refineRoot ctx (.int working) left done x).outcome = .ok r) :
    WithinOfRoot (10 ^ ctx.settings.epsilonExponent) n.toRat r.toRat := by
  have hε := ten_zpow_working_le hworking
  have hpos := ten_zpow_pos working
  have hends : Ends (fun r : Decimal =>
      WithinOfRoot (10 ^ ctx.settings.epsilonExponent) n.toRat r.toRat) (fun _ => True)
      (n.refineRoot ctx (.int working) left done x).outcome := by
    refine refineRoot_ends_of (D := fun x => 0 < x.toRat)
      (Q := fun x y => 0 ≤ y.toRat ∧ y.toRat ≤ n.toRat / x.toRat ∧
        n.toRat / x.toRat < y.toRat + 10 ^ working) trivial ?_ ?_ ?_ left done hx
    · exact fun x hx => ends_of_forall_ok fun y hy => divide_bounds hrounding hn.le hx.le hy
    · rintro x y hx ⟨hnonneg, -, -⟩ hfar
      refine ends_of_forall_ok fun z hz => ?_
      have hsum : 0 ≤ (x.add y).toRat := by
        rw [toRat_add]
        linarith
      obtain ⟨-, -, hmean⟩ := divide_bounds hrounding hsum (by rw [toRat_two]; norm_num) hz
      rw [toRat_add, toRat_two] at hmean
      exact mean_pos hx hnonneg hε ((farApart_iff _ x y).mp hfar) hmean
    · rintro x y hx ⟨-, hle, hlt⟩ hnear
      exact .of_quotient hx (by linarith) hle hlt
        (not_lt.mp fun hlt => hnear ((farApart_iff _ x y).mpr hlt))
  exact hends.of_ok h

theorem rootEstimate_pos (n : Decimal) : 0 < n.rootEstimate.toRat := by
  rw [rootEstimate, toRat_ofParts, Int.cast_one, one_mul]
  exact ten_zpow_pos _

/-- The root of a positive number is what the iteration finds, at the working precision. -/
theorem sqrt_of_pos (hn : 0 < n.toRat) (precision : Value) :
    n.sqrt ctx precision = (do
      let working ← ctx.workingPrecision precision
      n.refineRoot ctx (.int working) ctx.settings.maxRootIterations.toNat 0 n.rootEstimate) := by
  have hneg : ¬ n.isNegative = true := fun h => hn.not_gt ((isNegative_iff n).mp h)
  have hzero : ¬ n.isZero = true := fun h => hn.ne' ((isZero_iff n).mp h)
  rw [sqrt, if_neg hneg, if_neg hzero]

theorem outcome_sqrt_of_pos (hn : 0 < n.toRat) (precision : Value) :
    (n.sqrt ctx precision).outcome = ctx.workingPrecision precision >>= fun w =>
      (n.refineRoot ctx (.int w) ctx.settings.maxRootIterations.toNat 0
        n.rootEstimate).outcome := by
  rw [sqrt_of_pos hn, Traced.outcome_bind, Traced.outcome_liftM]

/-- A root that is found is within epsilon. -/
theorem sqrt_withinOfRoot (hrounding : ctx.settings.rounding = "truncate")
    (hn : 0 < n.toRat) {precision : Value} {x : Decimal}
    (h : (n.sqrt ctx precision).outcome = .ok x) :
    WithinOfRoot (10 ^ ctx.settings.epsilonExponent) n.toRat x.toRat := by
  rw [outcome_sqrt_of_pos hn] at h
  obtain ⟨w, hw, h⟩ := bind_eq_ok_iff.mp h
  exact refineRoot_withinOfRoot hrounding hn (workingPrecision_le hw).2 _ 0
    n.rootEstimate_pos h

/-- **Roots are within epsilon.**  Under settings that cut quotients, whatever their
epsilon, root precision and limit on iterations are, a number that is found as the root of a
positive number is positive, and the real root is at most epsilon above it or below it. -/
theorem sqrt_within_epsilon (hrounding : ctx.settings.rounding = "truncate")
    (hn : 0 < n.toRat) {precision : Value} {x : Decimal}
    (h : (n.sqrt ctx precision).outcome = .ok x) :
    let ε : ℚ := 10 ^ ctx.settings.epsilonExponent
    0 < x.toRat ∧ n.toRat ≤ (x.toRat + ε) ^ 2 ∧
      (x.toRat ≤ ε ∨ (x.toRat - ε) ^ 2 ≤ n.toRat) := by
  obtain ⟨hpos, habove, hbelow⟩ := sqrt_withinOfRoot hrounding hn h
  exact ⟨hpos, habove, hbelow⟩

/-- The root of two, which is even right to the last of its sixty digits. -/
theorem sqrt_within_epsilon_two :
    let x : Decimal :=
      ⟨1414213562373095048801688724209698078569671875376948073176679, -60⟩
    let ε : ℚ := 10 ^ (Context.initial {}).settings.epsilonExponent
    (two.sqrt (Context.initial {}) .none).outcome = .ok x ∧
      0 < x.toRat ∧ two.toRat ≤ (x.toRat + ε) ^ 2 ∧
        (x.toRat ≤ ε ∨ (x.toRat - ε) ^ 2 ≤ two.toRat) := by
  have hroot : (two.sqrt (Context.initial {}) .none).outcome =
      .ok ⟨1414213562373095048801688724209698078569671875376948073176679, -60⟩ :=
    eq_ok_of_toOption (by decide +kernel)
  have hrounding : (Context.initial {}).settings.rounding = "truncate" := rfl
  have hpos : 0 < two.toRat := by
    rw [toRat_two]
    norm_num
  exact ⟨hroot, sqrt_within_epsilon hrounding hpos hroot⟩

end Iteration

end Decimal

end DecimalCalc
