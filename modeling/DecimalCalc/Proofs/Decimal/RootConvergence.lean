import DecimalCalc.Proofs.Decimal.BitLength
import DecimalCalc.Proofs.Decimal.RootBounds
import Mathlib.Analysis.Real.Sqrt
/-!
# Roots are found

The iteration for a root ends within its limit of steps.  The real root is `r` here, and
`δ` is one unit of the precision of the divisions, which is far below epsilon.

* `RootStep`: the quotient `y` and the mean `z` of one step, each cut by less than `δ`.
  The mean is hardly below the root (`RootStep.root_le`), and its distance from the root is
  the square of the one before, over twice the number (`RootStep.sub_root_le`).
* `Settles`: what every number after the first keeps, so that it is the last one as soon as
  it is near the root (`Settles.near`).
* `RootSearch`: what the steps have in common.  From each number the iteration has a result if
  it has one from the next, where it goes on (`RootSearch.exists_succ`).
* `RootSearch.exists_of_square` and `RootSearch.exists_of_halving`: within half of the root
  the distance is squared, before that it is halved at least.
* `rootEstimate_bounds`: the first number is within fifty powers of ten of the root.
* `Stops`: what an iteration says of the number it stops at (`stops_of_refineRoot`).

`sqrt_converges` adds up the steps, a few hundred at most, for numbers of up to ten thousand
million bits.
-/

namespace DecimalCalc.Decimal

open Numeral

/-! ## One step -/

/-- The quotient and the mean of one step, up to what is cut off. -/
structure RootStep (δ n x y z : ℝ) : Prop where
  quotient_nonneg : 0 ≤ y
  quotient_le : y ≤ n / x
  lt_quotient : n / x < y + δ
  mean_le : z ≤ (x + y) / 2
  lt_mean : (x + y) / 2 < z + δ

/-- What every number of the iteration after the first is: not below the root by more than
its step cut off, and far above that. -/
structure Settles (δ r x : ℝ) : Prop where
  root_le : r ≤ x + 2 * δ
  large : 40 * δ ≤ x

section Step

variable {δ ε r x y z : ℝ}

/-- The mean of a number and its quotient is as far above the root as the square of the
distance says. -/
theorem mean_sub_root (hx : 0 < x) : (x + r ^ 2 / x) / 2 - r = (x - r) ^ 2 / (2 * x) := by
  field_simp
  ring

theorem RootStep.sub_root_le (h : RootStep δ (r ^ 2) x y z) (hx : 0 < x) :
    z - r ≤ (x - r) ^ 2 / (2 * x) := by
  have hmean := h.mean_le
  have hquotient := h.quotient_le
  rw [← mean_sub_root hx]
  linarith

theorem RootStep.root_le (h : RootStep δ (r ^ 2) x y z) (hx : 0 < x) : r ≤ z + 2 * δ := by
  have hsquare : 0 ≤ (x - r) ^ 2 / (2 * x) := by positivity
  have hquotient := h.lt_quotient
  have hmean := h.lt_mean
  have hδ : 0 ≤ δ := by linarith [h.mean_le]
  rw [← mean_sub_root hx] at hsquare
  linarith

/-- Where the iteration goes on, the mean is large. -/
theorem RootStep.settles (h : RootStep δ (r ^ 2) x y z) (hx : 0 < x) (hδ : 0 < δ)
    (hε : 100 * δ ≤ ε) (hfar : ε < |x - y|) : Settles δ r z := by
  have hsum : |x - y| ≤ x + y := abs_le.mpr ⟨by linarith [h.quotient_nonneg],
    by linarith [h.quotient_nonneg]⟩
  have hmean := h.lt_mean
  exact ⟨h.root_le hx, by linarith⟩

/-- **The stop.**  A number that settles and is near the root is near its quotient. -/
theorem Settles.near (hsettles : Settles δ r x) (h : RootStep δ (r ^ 2) x y z) (hr : 0 < r)
    (hδ : 0 < δ) (hε : 100 * δ ≤ ε) (hnear : x ≤ r + ε / 4) : |x - y| ≤ ε := by
  have hlarge := hsettles.large
  have hroot := hsettles.root_le
  have hx : 0 < x := by linarith
  have hsquare : r ^ 2 / x * x = r ^ 2 := div_mul_cancel₀ _ hx.ne'
  rw [abs_le]
  constructor
  · -- the root is hardly above the number
    have habove : r ^ 2 ≤ (x + 5 * δ) * x := by nlinarith
    have hquotient : r ^ 2 / x ≤ x + 5 * δ := (div_le_iff₀ hx).mpr habove
    linarith [h.quotient_le]
  · have hbelow : (x - ε / 2) * x ≤ r ^ 2 := by
      rcases le_total x r with hle | hle
      · nlinarith
      · nlinarith
    have hquotient : x - ε / 2 ≤ r ^ 2 / x := (le_div_iff₀ hx).mpr hbelow
    linarith [h.lt_quotient]

/-- Above the root the distance is halved. -/
theorem RootStep.halves (h : RootStep δ (r ^ 2) x y z) (hr : 0 < r) (hle : r ≤ x) :
    z - r ≤ (x - r) / 2 := by
  have hx : 0 < x := hr.trans_le hle
  refine (h.sub_root_le hx).trans ((div_le_iff₀ (by positivity)).mpr ?_)
  nlinarith

/-- Above the root the distance, as a part of twice the root, is squared. -/
theorem RootStep.squares (h : RootStep δ (r ^ 2) x y z) (hr : 0 < r) (hle : r ≤ x) {t : ℝ}
    (hdistance : x - r ≤ 2 * r * t) : z - r ≤ 2 * r * t ^ 2 := by
  have hx : 0 < x := hr.trans_le hle
  calc z - r ≤ (x - r) ^ 2 / (2 * x) := h.sub_root_le hx
    _ ≤ (x - r) ^ 2 / (2 * r) :=
        div_le_div_of_nonneg_left (sq_nonneg _) (by positivity) (by linarith)
    _ ≤ (2 * r * t) ^ 2 / (2 * r) :=
        div_le_div_of_nonneg_right (pow_le_pow_left₀ (by linarith) hdistance 2) (by positivity)
    _ = 2 * r * t ^ 2 := by
        field_simp

end Step

/-! ## The iteration -/

/-- An iteration for the root `r` of a number, under settings that cut quotients, with
divisions far more precise than epsilon. -/
structure RootSearch (ctx : Context) (n : Decimal) (working : Int) (r : ℝ) : Prop where
  rounding : ctx.settings.rounding = "truncate"
  working_neg : working < 0
  unit_le : 100 * 10 ^ working ≤ (10 : ℝ) ^ ctx.settings.epsilonExponent
  root_pos : 0 < r
  sq_root : (n.toRat : ℝ) = r ^ 2

section Iteration

variable {ctx : Context} {n x : Decimal} {working : Int} {r : ℝ} {left done : Nat}

theorem RootSearch.number_pos (h : RootSearch ctx n working r) : 0 < n.toRat := by
  have hpos : (0 : ℝ) < n.toRat := by
    rw [h.sq_root]
    exact pow_pos h.root_pos 2
  exact_mod_cast hpos

/-- Under the settings that cut quotients, positive numbers have one. -/
theorem exists_divide (hrounding : ctx.settings.rounding = "truncate") {a b : Decimal}
    (ha : 0 ≤ a.toRat) (hb : 0 < b.toRat) {p : Int} (hp : p < 0) :
    ∃ q : Decimal, a.divide ctx b (.int p) .none = .ok q ∧ 0 ≤ (q.toRat : ℝ) ∧
      (q.toRat : ℝ) ≤ a.toRat / b.toRat ∧ (a.toRat : ℝ) / b.toRat < q.toRat + 10 ^ p := by
  have hmode : ctx.resolveRounding .none = .ok .truncate :=
    Context.resolveRounding_default hrounding
  have hdivide := divide_eq_quotient a hb.ne' (ctx.resolvePrecision_int hp) hmode
  obtain ⟨hnonneg, hle, hlt⟩ := divide_bounds hrounding ha hb.le hdivide
  refine ⟨_, hdivide, by exact_mod_cast hnonneg, by exact_mod_cast hle, ?_⟩
  have hcast := (Rat.cast_lt (K := ℝ)).mpr hlt
  push_cast at hcast
  exact hcast

/-- From a positive number the iteration has a result, if it has one from the next number
where it goes on: that settles. -/
theorem RootSearch.exists_succ (h : RootSearch ctx n working r) (hx : 0 < x.toRat)
    (hnext : ∀ y z : Decimal, RootStep (10 ^ working) (r ^ 2) x.toRat y.toRat z.toRat →
      (10 : ℝ) ^ ctx.settings.epsilonExponent < |(x.toRat : ℝ) - y.toRat| →
      Settles (10 ^ working) r z.toRat →
        ∃ s, (n.refineRoot ctx (.int working) left (done + 1) z).outcome = .ok s) :
    ∃ s, (n.refineRoot ctx (.int working) (left + 1) done x).outcome = .ok s := by
  obtain ⟨y, hy, hynonneg, hyle, hylt⟩ :=
    exists_divide h.rounding h.number_pos.le hx h.working_neg
  have hsum : 0 ≤ (x.add y).toRat := by
    rw [toRat_add]
    have hyrat : 0 ≤ y.toRat := by exact_mod_cast hynonneg
    linarith
  obtain ⟨z, hz, -, hzle, hzlt⟩ :=
    exists_divide h.rounding hsum (by rw [toRat_two]; norm_num : 0 < two.toRat) h.working_neg
  rw [toRat_add, toRat_two] at hzle hzlt
  push_cast at hzle hzlt
  rw [h.sq_root] at hyle hylt
  simp only [refineRoot, Traced.outcome_bind, Traced.outcome_liftM, hy, ok_bind]
  by_cases hfar : x.farApart ctx.settings y = true
  · have hstep : RootStep (10 ^ working) (r ^ 2) x.toRat y.toRat z.toRat :=
      ⟨hynonneg, hyle, hylt, hzle, hzlt⟩
    have hdistance := (Rat.cast_lt (K := ℝ)).mpr ((farApart_iff _ x y).mp hfar)
    push_cast at hdistance
    rw [if_pos hfar]
    simp only [Traced.outcome_bind, Traced.outcome_liftM, hz, ok_bind]
    exact hnext y z hstep hdistance
      (hstep.settles (by exact_mod_cast hx) (by positivity) h.unit_le hdistance)
  · rw [if_neg hfar]
    exact ⟨x, rfl⟩

/-- From a number that settles the iteration has a result, if it has one from the next
number where this one is still above the root. -/
theorem RootSearch.exists_of_settles (h : RootSearch ctx n working r)
    (hx : Settles (10 ^ working) r x.toRat)
    (hnext : r + 10 ^ ctx.settings.epsilonExponent / 4 < x.toRat → r ≤ x.toRat →
      ∀ y z : Decimal, RootStep (10 ^ working) (r ^ 2) x.toRat y.toRat z.toRat →
      Settles (10 ^ working) r z.toRat →
        ∃ s, (n.refineRoot ctx (.int working) left (done + 1) z).outcome = .ok s) :
    ∃ s, (n.refineRoot ctx (.int working) (left + 1) done x).outcome = .ok s := by
  have hδ : (0 : ℝ) < 10 ^ working := by positivity
  have hε : (0 : ℝ) < 10 ^ ctx.settings.epsilonExponent := by positivity
  have hpos : (0 : ℝ) < x.toRat := by linarith [hx.large]
  refine h.exists_succ (by exact_mod_cast hpos) ?_
  intro y z hstep hfar hz
  have habove : r + 10 ^ ctx.settings.epsilonExponent / 4 < x.toRat := by
    by_contra hnear
    exact hfar.not_ge (hx.near hstep h.root_pos hδ h.unit_le (not_lt.mp hnear))
  exact hnext habove (by linarith) y z hstep hz

/-- Within half of the root the distance is squared in every step, by induction on the
squarings that bring it below epsilon. -/
theorem RootSearch.exists_of_square (h : RootSearch ctx n working r)
    (squarings j left done : Nat) {x : Decimal} (hx : Settles (10 ^ working) r x.toRat)
    (hdistance : x.toRat - r ≤ 2 * r * (1 / 2) ^ 2 ^ j)
    (hend : 2 * r * (1 / 2) ^ 2 ^ (j + squarings) ≤
      (10 : ℝ) ^ ctx.settings.epsilonExponent / 4) (hleft : squarings < left) :
    ∃ s, (n.refineRoot ctx (.int working) left done x).outcome = .ok s := by
  induction squarings generalizing j left done x with
  | zero =>
      obtain ⟨left, rfl⟩ : ∃ l, left = l + 1 := ⟨left - 1, by omega⟩
      refine h.exists_of_settles hx ?_
      intro hfar
      rw [Nat.add_zero] at hend
      linarith
  | succ squarings ih =>
      obtain ⟨left, rfl⟩ : ∃ l, left = l + 1 := ⟨left - 1, by omega⟩
      refine h.exists_of_settles hx ?_
      intro _ hle y z hstep hz
      have hsquared := hstep.squares h.root_pos hle hdistance
      rw [← pow_mul, ← pow_succ] at hsquared
      rw [show j + (squarings + 1) = j + 1 + squarings by omega] at hend
      exact ih (j + 1) left (done + 1) hz hsquared hend (by omega)

/-- Farther above the root the distance is halved in every step, by induction on the
halvings that bring it to the root itself. -/
theorem RootSearch.exists_of_halving (h : RootSearch ctx n working r)
    (halvings squarings left done : Nat) {x : Decimal} (hx : Settles (10 ^ working) r x.toRat)
    (hdistance : x.toRat - r ≤ 2 ^ halvings * r)
    (hend : 2 * r * (1 / 2) ^ 2 ^ squarings ≤ (10 : ℝ) ^ ctx.settings.epsilonExponent / 4)
    (hleft : halvings + squarings < left) :
    ∃ s, (n.refineRoot ctx (.int working) left done x).outcome = .ok s := by
  induction halvings generalizing left done x with
  | zero =>
      refine h.exists_of_square squarings 0 left done hx ?_ (by rwa [Nat.zero_add]) (by omega)
      rw [pow_zero] at hdistance
      rw [pow_zero, pow_one]
      linarith
  | succ halvings ih =>
      obtain ⟨left, rfl⟩ : ∃ l, left = l + 1 := ⟨left - 1, by omega⟩
      refine h.exists_of_settles hx ?_
      intro _ hle y z hstep hz
      have hhalved := hstep.halves h.root_pos hle
      rw [pow_succ] at hdistance
      exact ih left (done + 1) hz (by linarith) (by omega)

end Iteration

/-! ## The first number -/

section Estimate

variable {n : Decimal}

theorem natAbs_of_pos (hn : 0 < n.toRat) : ((n.coefficient.natAbs : ℚ)) = n.coefficient := by
  have hpos : 0 < n.coefficient := by
    have hpositive := (isPositive_iff n).mpr hn
    rwa [isPositive, decide_eq_true_eq] at hpositive
  rw [Nat.cast_natAbs, abs_of_pos hpos]

/-- **The first number is near the root**, by one power of ten below and by fifty above. -/
theorem rootEstimate_bounds (hn : 0 < n.toRat) (hbits : n.bitLength ≤ 10 ^ 10) :
    n.toRat ≤ (10 * n.rootEstimate.toRat) ^ 2 ∧
      n.rootEstimate.toRat ^ 2 ≤ 2 * 10 ^ 100 * n.toRat := by
  generalize hk : n.bitLength * 30103 / 100000 = k
  have hestimate : n.rootEstimate.toRat = 10 ^ (((k : Int) + n.exponent) / 2) := by
    rw [rootEstimate, toRat_ofParts, Int.cast_one, one_mul, hk]
  have hcoefficient : n.coefficient ≠ 0 := by
    intro hzero
    rw [toRat, hzero, Int.cast_zero, zero_mul] at hn
    exact hn.ne rfl
  have hupper : (n.coefficient.natAbs : ℚ) ≤ 10 ^ (k + 1) := by
    have hdigits : 2 ^ n.bitLength ≤ 10 ^ (k + 1) := two_pow_le_ten_pow (by omega)
    exact_mod_cast n.natAbs_lt_two_pow_bitLength.le.trans hdigits
  have hlower : (10 : ℚ) ^ k ≤ 10 ^ 100 * (2 * n.coefficient.natAbs) := by
    have hdigits : 10 ^ k ≤ 10 ^ 100 * 2 ^ n.bitLength :=
      ten_pow_le_two_pow (by omega) (by omega)
    exact_mod_cast hdigits.trans (Nat.mul_le_mul_left _ (two_pow_bitLength_le hcoefficient))
  have hten := ten_zpow_pos n.exponent
  rw [natAbs_of_pos hn] at hupper hlower
  rw [hestimate, mul_pow, ← zpow_natCast (10 ^ _) 2, ← zpow_mul]
  constructor
  · calc n.toRat ≤ 10 ^ (k + 1) * 10 ^ n.exponent := mul_le_mul_of_nonneg_right hupper hten.le
      _ = 10 ^ ((k : Int) + 1 + n.exponent) := by
          rw [zpow_add₀ (by norm_num) ((k : Int) + 1), ← Nat.cast_succ, zpow_natCast]
      _ ≤ 10 ^ (2 + ((k : Int) + n.exponent) / 2 * (2 : ℕ)) :=
          zpow_le_zpow_right₀ (by norm_num) (by omega)
      _ = 10 ^ 2 * 10 ^ (((k : Int) + n.exponent) / 2 * (2 : ℕ)) := by
          rw [zpow_add₀ (by norm_num)]
          rfl
  · calc (10 : ℚ) ^ (((k : Int) + n.exponent) / 2 * (2 : ℕ)) ≤ 10 ^ ((k : Int) + n.exponent) :=
          zpow_le_zpow_right₀ (by norm_num) (by omega)
      _ = 10 ^ k * 10 ^ n.exponent := by rw [zpow_add₀ (by norm_num), zpow_natCast]
      _ ≤ 10 ^ 100 * (2 * n.coefficient) * 10 ^ n.exponent :=
          mul_le_mul_of_nonneg_right hlower hten.le
      _ = 2 * 10 ^ 100 * n.toRat := by
          rw [toRat]
          ring

/-- A number is at most a power of two with five times as many bits as its coefficient has,
or as its exponent says. -/
theorem toRat_le_two_pow (hn : 0 < n.toRat) {N : Nat} (hbits : n.bitLength ≤ N)
    (hexponent : n.exponent ≤ N) : n.toRat ≤ 2 ^ (5 * N) := by
  have hcoefficient : (n.coefficient : ℚ) ≤ 2 ^ N := by
    rw [← natAbs_of_pos hn]
    exact_mod_cast n.natAbs_lt_two_pow_bitLength.le.trans
      (Nat.pow_le_pow_right (by decide) hbits)
  have hscale : (10 : ℚ) ^ n.exponent ≤ 16 ^ N := by
    calc (10 : ℚ) ^ n.exponent ≤ 10 ^ (N : Int) := zpow_le_zpow_right₀ (by norm_num) hexponent
      _ = 10 ^ N := zpow_natCast 10 N
      _ ≤ 16 ^ N := pow_le_pow_left₀ (by norm_num) (by norm_num) N
  calc n.toRat ≤ 2 ^ N * 16 ^ N :=
        mul_le_mul hcoefficient hscale (ten_zpow_pos _).le (by positivity)
    _ = 2 ^ (5 * N) := by
        rw [pow_mul, ← mul_pow]
        norm_num

end Estimate

/-! ## The root -/

/-- A number within fifty powers of ten of the root comes down to `2 ^ 170` times the root. -/
theorem estimate_distance_le {r x : ℝ} (hr : 0 < r) (hx : 0 < x) (hlower : r ^ 2 ≤ (10 * x) ^ 2)
    (hupper : x ^ 2 ≤ 2 * 10 ^ 100 * r ^ 2) : (x - r) ^ 2 / (2 * x) ≤ 2 ^ 170 * r := by
  have hbelow : r ≤ 10 * x := le_of_sq_le_sq hlower (by positivity)
  have habove : x ≤ 2 * 10 ^ 50 * r := by
    refine le_of_sq_le_sq (hupper.trans ?_) (by positivity)
    rw [mul_pow]
    exact mul_le_mul_of_nonneg_right (by norm_num) (sq_nonneg r)
  rw [div_le_iff₀ (by positivity)]
  calc (x - r) ^ 2 ≤ x * x + r * r := by nlinarith [mul_pos hr hx]
    _ ≤ x * (2 * 10 ^ 50 * r) + r * (10 * x) := by
        gcongr
    _ = (2 * 10 ^ 50 + 10) * (r * x) := by ring
    _ ≤ (2 * 2 ^ 170) * (r * x) :=
        mul_le_mul_of_nonneg_right (by norm_num) (mul_pos hr hx).le
    _ = 2 ^ 170 * r * (2 * x) := by ring

/-- So many squarings bring the distance below epsilon. -/
theorem squared_distance_le {r : ℝ} {N k : Nat} (hsize : r ^ 2 ≤ 2 ^ (5 * N))
    (hk : 5 * N + 170 ≤ 2 ^ k) : 2 * r * (1 / 2) ^ 2 ^ k ≤ 10 ^ (-49 : ℤ) / 4 := by
  have hone : (1 : ℝ) ≤ 2 ^ (5 * N) := one_le_pow₀ (by norm_num)
  have hr : r ≤ 2 ^ (5 * N) := by nlinarith
  have hpow : ((1 : ℝ) / 2) ^ 2 ^ k ≤ (1 / 2) ^ (5 * N) * (1 / 2) ^ 170 := by
    rw [← pow_add]
    exact pow_le_pow_of_le_one (by norm_num) (by norm_num) hk
  calc 2 * r * (1 / 2) ^ 2 ^ k
      ≤ 2 * 2 ^ (5 * N) * ((1 / 2) ^ (5 * N) * (1 / 2) ^ 170) := by
        gcongr
    _ = 2 * (2 * (1 / 2)) ^ (5 * N) * (1 / 2) ^ 170 := by
        rw [mul_pow]
        ring
    _ ≤ 10 ^ (-49 : ℤ) / 4 := by norm_num

/-- The settings by default search for the real root, at every working precision. -/
theorem exists_rootSearch {ctx : Context} (hsettings : ctx.settings = {}) {n : Decimal}
    (hn : 0 < n.toRat) {working : Int} (hworking : working ≤ -60) :
    ∃ r, RootSearch ctx n working r := by
  have hpos : (0 : ℝ) < n.toRat := by exact_mod_cast hn
  have hunit : (10 : ℝ) ^ working ≤ 10 ^ (-60 : ℤ) := zpow_le_zpow_right₀ (by norm_num) hworking
  refine ⟨√n.toRat, by rw [hsettings], by omega, ?_, Real.sqrt_pos.mpr hpos,
    (Real.sq_sqrt hpos.le).symm⟩
  have hepsilon : ctx.settings.epsilonExponent = -49 := by rw [hsettings]
  rw [hepsilon]
  norm_num at hunit ⊢
  linarith

/-- The first step leads from the estimate to at most `2 ^ 170` times the root. -/
theorem RootSearch.first_distance_le {ctx : Context} {n y z : Decimal} {working : Int} {r : ℝ}
    (h : RootSearch ctx n working r) (hbits : n.bitLength ≤ 10 ^ 10)
    (hstep : RootStep (10 ^ working) (r ^ 2) n.rootEstimate.toRat y.toRat z.toRat) :
    z.toRat - r ≤ 2 ^ 170 * r := by
  have hx : (0 : ℝ) < n.rootEstimate.toRat := by exact_mod_cast n.rootEstimate_pos
  obtain ⟨hlower, hupper⟩ := rootEstimate_bounds h.number_pos hbits
  replace hlower := (Rat.cast_le (K := ℝ)).mpr hlower
  replace hupper := (Rat.cast_le (K := ℝ)).mpr hupper
  push_cast at hlower hupper
  rw [h.sq_root] at hlower hupper
  exact (hstep.sub_root_le hx).trans (estimate_distance_le h.root_pos hx hlower hupper)

/-- The stopping test is met at a number after so many steps: its quotient is not far from it,
and the steps are reported. -/
structure Stops (ctx : Context) (n : Decimal) (working : Int) (events : List Event)
    (x : Decimal) (steps : Nat) : Prop where
  near : ∃ y, n.divide ctx x (.int working) .none = .ok y ∧
    ¬ x.farApart ctx.settings y = true
  reported : .rootConverged steps ∈ events

/-- **An iteration has a result only through its test**, in fewer steps than are left to it; by
induction on these. -/
theorem stops_of_refineRoot {ctx : Context} {n : Decimal} {working : Int} (left done : Nat)
    {x s : Decimal} (h : (n.refineRoot ctx (.int working) left done x).outcome = .ok s) :
    ∃ steps < done + left,
      Stops ctx n working (n.refineRoot ctx (.int working) left done x).events s steps := by
  induction left generalizing done x with
  | zero => cases h
  | succ left ih =>
      rw [refineRoot, Traced.outcome_bind, Traced.outcome_liftM] at h
      obtain ⟨y, hy, h⟩ := bind_eq_ok_iff.mp h
      rw [refineRoot, hy, Traced.liftM_ok_bind]
      by_cases hfar : x.farApart ctx.settings y = true
      · rw [if_pos hfar, Traced.outcome_bind, Traced.outcome_liftM] at h
        obtain ⟨z, hz, h⟩ := bind_eq_ok_iff.mp h
        rw [if_pos hfar, hz, Traced.liftM_ok_bind]
        obtain ⟨steps, hsteps, hstops⟩ := ih (done + 1) h
        exact ⟨steps, by omega, hstops⟩
      · rw [if_neg hfar] at h ⊢
        obtain rfl : x = s := Except.ok.inj h
        exact ⟨done, by omega, ⟨y, hy, hfar⟩, List.mem_singleton_self _⟩

/-- **Roots are found.**  Under the settings by default, a positive number whose coefficient
has at most ten thousand million bits and whose exponent is at most as large has a root, at
any precision: no divisor in the iteration is zero, and its stopping test is met within the
limit on steps. -/
theorem sqrt_converges {ctx : Context} (hsettings : ctx.settings = {}) {n : Decimal}
    (hn : 0 < n.toRat) (hbits : n.bitLength ≤ 10 ^ 10) (hexponent : n.exponent ≤ 10 ^ 10)
    {p : Int} (hp : p < 0) :
    ∃ x, (n.sqrt ctx (.int p)).outcome = .ok x ∧
      ∃ (working : Int) (steps : Nat), ctx.workingPrecision (.int p) = .ok working ∧
        steps < ctx.settings.maxRootIterations ∧
        Stops ctx n working (n.sqrt ctx (.int p)).events x steps := by
  obtain ⟨working, hworking, -⟩ := ctx.exists_workingPrecision hp
  have hbelow : working ≤ -60 := by
    have hroot := (workingPrecision_le hworking).1
    rwa [hsettings] at hroot
  have hlimit : ctx.settings.maxRootIterations.toNat = 999 + 1 := by
    rw [hsettings]
    rfl
  have hsqrt : n.sqrt ctx (.int p) =
      n.refineRoot ctx (.int working) (999 + 1) 0 n.rootEstimate := by
    rw [sqrt_of_pos hn, hworking, Traced.liftM_ok_bind, hlimit]
  rw [hsqrt]
  suffices hfound : ∃ x, (n.refineRoot ctx (.int working) (999 + 1) 0
      n.rootEstimate).outcome = .ok x by
    obtain ⟨x, hx⟩ := hfound
    obtain ⟨steps, hsteps, hstops⟩ := stops_of_refineRoot _ _ hx
    exact ⟨x, hx, working, steps, hworking, by omega, hstops⟩
  obtain ⟨r, hsearch⟩ := exists_rootSearch hsettings hn hbelow
  have hend : 2 * r * (1 / 2) ^ 2 ^ 40 ≤ (10 : ℝ) ^ ctx.settings.epsilonExponent / 4 := by
    have hsize : r ^ 2 ≤ 2 ^ (5 * 10 ^ 10) := by
      rw [← hsearch.sq_root]
      exact_mod_cast toRat_le_two_pow hn hbits (by exact_mod_cast hexponent)
    have hepsilon : ctx.settings.epsilonExponent = -49 := by rw [hsettings]
    rw [hepsilon]
    exact squared_distance_le hsize (by norm_num)
  refine hsearch.exists_succ n.rootEstimate_pos ?_
  intro y z hstep _ hz
  exact hsearch.exists_of_halving 170 40 999 1 hz (hsearch.first_distance_le hbits hstep) hend
    (by decide)

/-- The root of a number with ten thousand million digits. -/
theorem sqrt_converges_large :
    let n : Decimal := ⟨2, 10 ^ 10⟩
    0 < n.toRat ∧ n.bitLength ≤ 10 ^ 10 ∧ n.exponent ≤ 10 ^ 10 ∧
      ∃ x, (n.sqrt (Context.initial {}) (.int (-4))).outcome = .ok x ∧
        ∃ (working : Int) (steps : Nat),
          (Context.initial {}).workingPrecision (.int (-4)) = .ok working ∧
          (steps : Int) < 1000 ∧
          Stops (Context.initial {}) n working
            (n.sqrt (Context.initial {}) (.int (-4))).events x steps := by
  have hn : 0 < (⟨2, 10 ^ 10⟩ : Decimal).toRat := by
    rw [toRat]
    positivity
  have hbits : (⟨2, 10 ^ 10⟩ : Decimal).bitLength ≤ 10 ^ 10 := by decide
  have hsettings : (Context.initial {}).settings = {} := rfl
  exact ⟨hn, hbits, le_refl _, sqrt_converges hsettings hn hbits (le_refl _) (by decide)⟩

end DecimalCalc.Decimal
