import DecimalCalc.Proofs.Decimal.ExponentForms
import Mathlib.Analysis.SpecialFunctions.Exponential
import Mathlib.Analysis.SpecialFunctions.Log.Basic
import Mathlib.Analysis.SpecialFunctions.Pow.Real
/-!
# The accuracy of fractional powers

A fractional power is a product of square roots of square roots, and of their inverses, each
cut at the working precision.  The errors are relative errors once they are multiplied, so
they are followed in the logarithm, where the exact power of the base is
`middle * log base`.

* `LogNear δ t x`: the logarithm of `x` is `t` up to `δ`.  A product adds the errors
  (`LogNear.mul`), a root halves them (`LogNear.sqrt`), and cutting adds its share
  (`LogNear.perturb`), which is large where the number is small.
* `Tracks`: after `k` steps the last root is near the `2 ^ (k + 1)`-th root of the base, and
  the power is near the power to the middle.  `Tracks.step` is one step, and
  `tracks_of_start` the beginning.
* `power_accuracy`: between `10 ^ -16` and `10 ^ 75` the errors of a whole search stay below
  forty digits of the power.

Beyond that range they do not: the inverse of a large root has no digits at the working
precision, and the power is lost, `power_of_large_base`.
-/

namespace DecimalCalc.Decimal

open Numeral Real

/-! ## Errors in the logarithm -/

/-- A positive number has the logarithm `t`, up to `δ`. -/
structure LogNear (δ t x : ℝ) : Prop where
  pos : 0 < x
  near : |log x - t| ≤ δ

namespace LogNear

variable {δ δ' η t t' x y : ℝ}

theorem mono (h : LogNear δ t x) (hle : δ ≤ δ') : LogNear δ' t x := ⟨h.pos, h.near.trans hle⟩

theorem move (h : LogNear δ t x) (ht : |t - t'| ≤ δ') : LogNear (δ + δ') t' x := by
  refine ⟨h.pos, ?_⟩
  rw [← sub_add_sub_cancel (log x) t t']
  exact (abs_add_le _ _).trans (add_le_add h.near ht)

theorem mul (hx : LogNear δ t x) (hy : LogNear δ' t' y) :
    LogNear (δ + δ') (t + t') (x * y) := by
  refine ⟨mul_pos hx.pos hy.pos, ?_⟩
  rw [log_mul hx.pos.ne' hy.pos.ne', add_sub_add_comm]
  exact (abs_add_le _ _).trans (add_le_add hx.near hy.near)

theorem inv (h : LogNear δ t x) : LogNear δ (-t) x⁻¹ := by
  refine ⟨inv_pos.mpr h.pos, ?_⟩
  rw [log_inv, neg_sub_neg, abs_sub_comm]
  exact h.near

theorem sqrt (h : LogNear δ t x) : LogNear (δ / 2) (t / 2) √x := by
  refine ⟨sqrt_pos.mpr h.pos, ?_⟩
  rw [log_sqrt h.pos.le, ← sub_div, abs_div, abs_of_pos (by norm_num : (0 : ℝ) < 2)]
  exact div_le_div_of_nonneg_right h.near (by norm_num)

/-- A number is at most a power of ten if the logarithm shows it. -/
theorem le_zpow (h : LogNear δ t x) {n : ℤ} (hle : t + δ ≤ n * log 10) : x ≤ 10 ^ n := by
  have hnear := (abs_le.mp h.near).2
  have hlog : log x ≤ log ((10 : ℝ) ^ n) := by
    rw [log_zpow]
    linarith
  exact (log_le_log_iff h.pos (by positivity)).mp hlog

/-- A number is at least a power of ten if the logarithm shows it. -/
theorem zpow_le (h : LogNear δ t x) {n : ℤ} (hle : n * log 10 ≤ t - δ) : 10 ^ n ≤ x := by
  have hnear := (abs_le.mp h.near).1
  have hlog : log ((10 : ℝ) ^ n) ≤ log x := by
    rw [log_zpow]
    linarith
  exact (log_le_log_iff (by positivity) h.pos).mp hlog

/-- **A small relative error** is that error in the logarithm, and a little more. -/
theorem perturb (hy : LogNear δ t y) (hη : η ≤ 1 / 100) (h : |x - y| ≤ η * y) :
    LogNear (δ + 51 / 50 * η) t x := by
  obtain ⟨hlower, hupper⟩ := abs_le.mp h
  have hy0 := hy.pos
  have hη0 : 0 ≤ η := nonneg_of_mul_nonneg_left ((abs_nonneg _).trans h) hy0
  have hx0 : 0 < x := by nlinarith
  have hratio : 0 < x / y := div_pos hx0 hy0
  have hle : x / y ≤ 1 + η := (div_le_iff₀ hy0).mpr (by linarith)
  have hge : (x / y)⁻¹ ≤ 1 + 51 / 50 * η := by
    rw [inv_div, div_le_iff₀ hx0]
    nlinarith [mul_nonneg hη0 hy0.le, mul_nonneg (mul_nonneg hη0 hη0) hy0.le]
  have hlog : |log x - log y| ≤ 51 / 50 * η := by
    rw [← log_div hx0.ne' hy0.ne', abs_le]
    have hbelow := one_sub_inv_le_log_of_pos hratio
    have habove := log_le_sub_one_of_pos hratio
    exact ⟨by linarith, by linarith⟩
  refine ⟨hx0, ?_⟩
  rw [← sub_add_sub_cancel' (log y) t (log x)]
  exact (abs_add_le _ _).trans (add_le_add hy.near hlog)

/-- An absolute error counts by the power of ten that the number is above. -/
theorem perturb_zpow (hy : LogNear δ t y) {ε : ℝ} {n : ℤ} (hlarge : n * log 10 ≤ t - δ)
    (hε : ε ≤ 10 ^ n / 100) (h : |x - y| ≤ ε) : LogNear (δ + 51 / 50 * (ε / 10 ^ n)) t x := by
  have hten : (0 : ℝ) < 10 ^ n := by positivity
  have hle : (10 : ℝ) ^ n ≤ y := hy.zpow_le hlarge
  refine hy.perturb ((div_le_iff₀ hten).mpr (by linarith)) (h.trans ?_)
  have hε0 : 0 ≤ ε := (abs_nonneg _).trans h
  calc ε = ε / 10 ^ n * 10 ^ n := (div_mul_cancel₀ ε hten.ne').symm
    _ ≤ ε / 10 ^ n * y := mul_le_mul_of_nonneg_left hle (by positivity)

/-- What a small error in the logarithm is as a relative error. -/
theorem abs_sub_exp_le (h : LogNear δ t x) (hδ : δ ≤ 1) :
    |x - exp t| ≤ (δ + δ ^ 2) * exp t := by
  have hsmall : |log x - t| ≤ 1 := h.near.trans hδ
  have hsquare : (log x - t) ^ 2 ≤ δ ^ 2 := sq_le_sq' (by linarith [(abs_le.mp h.near).1])
    (abs_le.mp h.near).2
  have hsplit : x - exp t = (exp (log x - t) - 1) * exp t := by
    rw [sub_mul, one_mul, ← exp_add, sub_add_cancel, exp_log h.pos]
  have hfactor : |exp (log x - t) - 1| ≤ δ + δ ^ 2 := by
    calc |exp (log x - t) - 1|
        = |(exp (log x - t) - 1 - (log x - t)) + (log x - t)| := by ring_nf
      _ ≤ (log x - t) ^ 2 + δ :=
          (abs_add_le _ _).trans (add_le_add (abs_exp_sub_one_sub_id_le hsmall) h.near)
      _ ≤ δ + δ ^ 2 := by linarith
  rw [hsplit, abs_mul, abs_of_pos (exp_pos t)]
  exact mul_le_mul_of_nonneg_right hfactor (exp_pos t).le

end LogNear

/-! ## Decimals as reals -/

/-- The number that a decimal stands for, among the reals. -/
noncomputable def toReal (a : Decimal) : ℝ := (a.toRat : ℝ)

/-- A number within epsilon of a root differs from the real root by epsilon at most. -/
theorem WithinOfRoot.abs_sub_sqrt_le {ε n x : ℚ} (hε : 0 ≤ ε) (h : WithinOfRoot ε n x) :
    |(x : ℝ) - √n| ≤ ε := by
  have hx : (0 : ℝ) < x := by exact_mod_cast h.pos
  have hε' : (0 : ℝ) ≤ ε := by exact_mod_cast hε
  have habove : √(n : ℝ) ≤ x + ε := by
    have hsquare : (n : ℝ) ≤ (x + ε) ^ 2 := by exact_mod_cast h.above
    exact sqrt_le_iff.mpr ⟨by linarith, hsquare⟩
  have hbelow : (x : ℝ) - ε ≤ √(n : ℝ) := by
    rcases h.below with hsmall | hsquare
    · have hsmall' : (x : ℝ) ≤ ε := by exact_mod_cast hsmall
      linarith [sqrt_nonneg (n : ℝ)]
    · exact le_sqrt_of_sq_le (by exact_mod_cast hsquare)
  exact abs_le.mpr ⟨by linarith, by linarith⟩

theorem toReal_pos {a : Decimal} : 0 < a.toReal ↔ 0 < a.toRat := Rat.cast_pos

theorem toReal_sub_eq {a b : Decimal} {q : ℚ} (h : a.toRat - b.toRat = q) :
    a.toReal - b.toReal = q := by
  rw [← h, Rat.cast_sub]
  rfl

theorem toReal_mul (a b : Decimal) : (a.mul b).toReal = a.toReal * b.toReal := by
  unfold toReal
  rw [toRat_mul, Rat.cast_mul]

/-- What a cut takes off is less than one unit. -/
theorem abs_sub_le_of_cut {x y u : ℚ} (hle : x ≤ y) (hlt : y < x + u) : |x - y| ≤ u :=
  abs_le.mpr ⟨by linarith, by linarith⟩

/-- A positive number that is cut loses less than one unit of the place. -/
theorem abs_truncate_sub_le {a : Decimal} (ha : 0 ≤ a.toRat) (place : Int) :
    |(a.truncate place).toReal - a.toReal| ≤ 10 ^ place := by
  obtain ⟨-, hle, hlt⟩ := Rounding.truncate_atPlace_bounds place ha
  rw [← toRat_truncate] at hle hlt
  have hcast := (Rat.cast_le (K := ℝ)).mpr (abs_sub_le_of_cut hle hlt)
  push_cast at hcast
  exact hcast

theorem nine_tenths_le_log_ten : 9 / 10 ≤ log 10 := by
  have h := one_sub_inv_le_log_of_pos (by norm_num : (0 : ℝ) < 10)
  linarith

theorem log_ten_le_nine : log 10 ≤ 9 := by
  have h := log_le_sub_one_of_pos (by norm_num : (0 : ℝ) < 10)
  linarith

/-- The logarithm of a number that is between two powers of ten. -/
theorem log_toReal_mem {a : Decimal} {m n : ℤ} (hlow : 10 ^ m ≤ a.toRat)
    (hhigh : a.toRat ≤ 10 ^ n) :
    m * log 10 ≤ log a.toReal ∧ log a.toReal ≤ n * log 10 := by
  have hlow' := (Rat.cast_le (K := ℝ)).mpr hlow
  have hhigh' := (Rat.cast_le (K := ℝ)).mpr hhigh
  push_cast at hlow' hhigh'
  have hten : (0 : ℝ) < 10 ^ m := by positivity
  rw [← log_zpow, ← log_zpow]
  exact ⟨log_le_log hten hlow', log_le_log (hten.trans_le hlow') hhigh'⟩

/-! ## The search -/

namespace Bisection

variable {ctx : Context} {base exponent : Decimal} {working : Int} {b b' : Bisection}
  {k : Nat} {δ ρ t : ℝ}

/-- After `k` steps the last root is the `2 ^ (k + 1)`-th root of the base and the power is
the power to the middle, up to errors in the logarithm that sum up to `δ`. -/
def Tracks (base : Decimal) (k : Nat) (δ : ℝ) (b : Bisection) : Prop :=
  ∃ ρ σ : ℝ, LogNear ρ (log base.toReal / 2 ^ (k + 1)) b.root.toReal ∧
    LogNear σ (b.middle.toReal * log base.toReal) b.power.toReal ∧ ρ + σ ≤ δ

theorem Tracks.mono {δ' : ℝ} (h : Tracks base k δ b) (hle : δ ≤ δ') : Tracks base k δ' b := by
  obtain ⟨ρ, σ, hroot, hpower, hsum⟩ := h
  exact ⟨ρ, σ, hroot, hpower, hsum.trans hle⟩

/-- A root in the search has an error of epsilon, under the settings by default. -/
theorem logNear_sqrt (hsettings : ctx.settings = {}) {n x : Decimal} {precision : Value}
    (hn : LogNear ρ t n.toReal) {m : ℤ} (hm : -47 ≤ m) (hlarge : m * log 10 ≤ t / 2 - ρ / 2)
    (h : (n.sqrt ctx precision).outcome = .ok x) :
    LogNear (ρ / 2 + 51 / 50 * (10 ^ (-49 : ℤ) / 10 ^ m)) (t / 2) x.toReal := by
  have hε : (10 : ℝ) ^ (-49 : ℤ) ≤ 10 ^ m / 100 := by
    have hle : (10 : ℝ) ^ (-49 : ℤ) ≤ 10 ^ (m - 2) :=
      zpow_le_zpow_right₀ (by norm_num) (by omega)
    rw [zpow_sub₀ (by norm_num)] at hle
    norm_num at hle ⊢
    exact hle
  have hwithin := sqrt_withinOfRoot (by rw [hsettings]) (toReal_pos.mp hn.pos) h
  have hclose := hwithin.abs_sub_sqrt_le (ten_zpow_pos _).le
  rw [hsettings] at hclose
  push_cast at hclose
  exact hn.sqrt.perturb_zpow hlarge hε hclose

theorem unit_mul_zpow_le {n : ℤ} (hn : n ≤ 58) : (10 : ℝ) ^ (-60 : ℤ) * 10 ^ n ≤ 1 / 100 := by
  have hle : (10 : ℝ) ^ (-60 + n) ≤ 10 ^ (-2 : ℤ) :=
    zpow_le_zpow_right₀ (by norm_num) (by omega)
  rw [← zpow_add₀ (by norm_num)]
  norm_num at hle ⊢
  exact hle

/-- The inverse of a root in the search has an error of one unit of the working precision,
which counts by the power of ten that the root is below. -/
theorem logNear_inverse (hsettings : ctx.settings = {}) (hworking : working ≤ -60)
    {root inverse : Decimal} (hroot : LogNear ρ t root.toReal) {n : ℤ} (hn : n ≤ 58)
    (hsmall : root.toReal ≤ 10 ^ n)
    (h : one.divide ctx root (.int working) .none = .ok inverse) :
    LogNear (ρ + 51 / 50 * (10 ^ (-60 : ℤ) * 10 ^ n)) (-t) inverse.toReal := by
  have hone : (0 : ℚ) ≤ one.toRat := by
    rw [toRat_one]
    norm_num
  obtain ⟨-, hle, hlt⟩ :=
    divide_bounds (by rw [hsettings]) hone (toReal_pos.mp hroot.pos).le h
  rw [toRat_one, one_div] at hle hlt
  have hunit : (10 : ℚ) ^ working ≤ 10 ^ (-60 : ℤ) := zpow_le_zpow_right₀ (by norm_num) hworking
  have hclose : |inverse.toRat - root.toRat⁻¹| ≤ 10 ^ (-60 : ℤ) :=
    (abs_sub_le_of_cut hle hlt).trans hunit
  have hclose' := (Rat.cast_le (K := ℝ)).mpr hclose
  push_cast at hclose'
  refine hroot.inv.perturb (unit_mul_zpow_le hn) (hclose'.trans ?_)
  calc (10 : ℝ) ^ (-60 : ℤ) = 10 ^ (-60 : ℤ) * root.toReal * root.toReal⁻¹ := by
        rw [mul_assoc, mul_inv_cancel₀ hroot.pos.ne', mul_one]
    _ ≤ 10 ^ (-60 : ℤ) * 10 ^ n * root.toReal⁻¹ := by
        have hinv := (inv_pos.mpr hroot.pos).le
        gcongr

/-- What the power is multiplied by in a step is near the power of the base to the way that
the middle moves. -/
theorem logNear_factor (hsettings : ctx.settings = {}) (hworking : working ≤ -60)
    (hb : Halves exponent k b) (hb' : Halves exponent (k + 1) b') {L : ℝ} {factor : Decimal}
    (hroot : LogNear ρ (L / 2 ^ (k + 2)) b'.root.toReal) {n : ℤ} (hn : n ≤ 58)
    (hsmall : b'.root.toReal ≤ 10 ^ n)
    (h : Chooses ctx exponent working b b'.root b'.low b'.high factor) :
    LogNear (ρ + 51 / 50 * (10 ^ (-60 : ℤ) * 10 ^ n))
      ((b'.middle.toReal - b.middle.toReal) * L) factor.toReal := by
  have hmiddle := hb.middle
  have hwidth := hb.width
  have hnext := hb'.middle
  have hquarter : (1 : ℚ) / 2 ^ (k + 2) = 1 / 2 ^ k / 4 := by
    rw [pow_add, div_div]
    norm_num
  obtain ⟨low, high, middle, root, power⟩ := b'
  cases h with
  | lower habove hinverse =>
      have hmove : middle.toRat - b.middle.toRat = -(1 / 2 ^ (k + 2)) := by
        change middle.toRat = (b.low.toRat + b.middle.toRat) / 2 at hnext
        rw [hquarter]
        linarith
      have hmove' := toReal_sub_eq hmove
      push_cast at hmove'
      have hinv := logNear_inverse hsettings hworking hroot hn hsmall hinverse
      rwa [show -(L / 2 ^ (k + 2)) = (middle.toReal - b.middle.toReal) * L by
        rw [hmove']; ring] at hinv
  | upper hbelow =>
      have hmove : middle.toRat - b.middle.toRat = 1 / 2 ^ (k + 2) := by
        change middle.toRat = (b.middle.toRat + b.high.toRat) / 2 at hnext
        rw [hquarter]
        linarith
      have hmove' := toReal_sub_eq hmove
      push_cast at hmove'
      have hmono : ρ ≤ ρ + 51 / 50 * (10 ^ (-60 : ℤ) * 10 ^ n) := by
        have hpos : (0 : ℝ) ≤ 51 / 50 * (10 ^ (-60 : ℤ) * 10 ^ n) := by positivity
        linarith
      have hsame := hroot.mono hmono
      rwa [show L / 2 ^ (k + 2) = (middle.toReal - b.middle.toReal) * L by
        rw [hmove']; ring] at hsame

/-- The start: the square root of the base, from `10 ^ -16` on. -/
theorem tracks_start (hsettings : ctx.settings = {}) (hpos : 0 < base.toRat)
    (hlow : -16 * log 10 ≤ log base.toReal) {root : Decimal} {precision : Value}
    (h : (base.sqrt ctx precision).outcome = .ok root) :
    Tracks base 0 (21 / 10 ^ 42) (start root) := by
  have hbase : LogNear 0 (log base.toReal) base.toReal :=
    ⟨toReal_pos.mpr hpos, by rw [sub_self, abs_zero]⟩
  have hlarge : ((-8 : ℤ) : ℝ) * log 10 ≤ log base.toReal / 2 - 0 / 2 := by
    push_cast
    linarith
  have hroot : LogNear (21 / (2 * 10 ^ 42)) (log base.toReal / 2) root.toReal :=
    (logNear_sqrt hsettings hbase (by norm_num) hlarge h).mono (by norm_num)
  have hhalf : half.toReal * log base.toReal = log base.toReal / 2 := by
    unfold toReal
    rw [toRat_half]
    push_cast
    ring
  refine ⟨21 / (2 * 10 ^ 42), 21 / (2 * 10 ^ 42), ?_, ?_, by norm_num⟩
  · change LogNear _ (log base.toReal / 2 ^ (0 + 1)) root.toReal
    rwa [zero_add, pow_one]
  · change LogNear _ (half.toReal * log base.toReal) root.toReal
    rwa [hhalf]

/-- The power to the middle is at least the base, or one. -/
theorem Halves.neg_le_middle_mul (hb : Halves exponent k b) {L : ℝ}
    (hlow : -16 * log 10 ≤ L) : -16 * log 10 ≤ b.middle.toReal * L := by
  have hten := nine_tenths_le_log_ten
  have hlower : 0 ≤ b.middle.toReal := (toReal_pos.mpr hb.middle_mem.1).le
  have hupper : b.middle.toReal ≤ 1 := by
    unfold toReal
    exact_mod_cast hb.middle_mem.2.le
  calc -16 * log 10 ≤ b.middle.toReal * (-16 * log 10) := by nlinarith
    _ ≤ b.middle.toReal * L := mul_le_mul_of_nonneg_left hlow hlower

/-- **One step** adds the error of the root twice, that of its inverse, and that of the cut. -/
theorem Tracks.step (hsettings : ctx.settings = {}) (hworking : working ≤ -60)
    (hlow : -16 * log 10 ≤ log base.toReal) (hδ : δ ≤ 1 / 100)
    (htracks : Tracks base k δ b) (hb : Halves exponent k b) (hb' : Halves exponent (k + 1) b')
    {n : ℤ} (hn : n ≤ 58) (hsize : log base.toReal / 2 ^ (k + 2) + 1 / 10 ≤ n * log 10)
    (h : (b.step ctx exponent working).outcome = .ok b') :
    Tracks base (k + 1)
      (δ + 51 / 50 * (2 / 10 ^ 44 + 10 ^ (-60 : ℤ) * 10 ^ n + 1 / 10 ^ 43)) b' := by
  obtain ⟨factor, hsqrt, hchosen, -, hpower⟩ := step_eq_ok h
  obtain ⟨ρ, σ, hroot, hsofar, hsum⟩ := htracks
  have hρ : 0 ≤ ρ := (abs_nonneg _).trans hroot.near
  have hσ : 0 ≤ σ := (abs_nonneg _).trans hsofar.near
  have hten := nine_tenths_le_log_ten
  have hhalf : log base.toReal / 2 ^ (k + 1) / 2 = log base.toReal / 2 ^ (k + 2) := by
    rw [div_div, ← pow_succ]
  have hquarter : -4 * log 10 ≤ log base.toReal / 2 ^ (k + 2) := by
    have hpow : (4 : ℝ) ≤ 2 ^ (k + 2) := by
      rw [pow_add]
      linarith [one_le_pow₀ (by norm_num : (1 : ℝ) ≤ 2) (n := k)]
    rw [le_div_iff₀ (by positivity)]
    nlinarith
  have hroot' := logNear_sqrt hsettings hroot (by norm_num : (-47 : ℤ) ≤ -5)
    (by push_cast; linarith) hsqrt
  rw [hhalf] at hroot'
  have hsmall : b'.root.toReal ≤ 10 ^ n := hroot'.le_zpow (by norm_num; linarith)
  have hfactor := logNear_factor hsettings hworking hb hb' hroot' hn hsmall hchosen
  have hproduct := hsofar.mul hfactor
  rw [← add_mul, add_sub_cancel, ← toReal_mul] at hproduct
  have hcut : |b'.power.toReal - (b.power.mul factor).toReal| ≤ 10 ^ (-60 : ℤ) := by
    rw [hpower]
    exact (abs_truncate_sub_le (toReal_pos.mp hproduct.pos).le working).trans
      (zpow_le_zpow_right₀ (by norm_num) hworking)
  have hunit := unit_mul_zpow_le hn
  have hlarge : ((-17 : ℤ) : ℝ) * log 10 ≤ b'.middle.toReal * log base.toReal -
      (σ + (ρ / 2 + 51 / 50 * (10 ^ (-49 : ℤ) / 10 ^ (-5 : ℤ)) +
        51 / 50 * (10 ^ (-60 : ℤ) * 10 ^ n))) := by
    have hmiddle := hb'.neg_le_middle_mul hlow
    norm_num
    linarith
  have hpower' := hproduct.perturb_zpow hlarge (by norm_num) hcut
  refine ⟨_, _, hroot', hpower', ?_⟩
  norm_num
  linarith

/-- The error that a search may have after `k` steps.  The first inverse is that of the
largest root, and counts most. -/
noncomputable def tolerance : Nat → ℝ
  | 0 => 21 / 10 ^ 42
  | k + 1 => 33 / 10 ^ 42 + (k + 1) * (13 / 10 ^ 44)

theorem tolerance_le (hk : k ≤ 196) : tolerance k ≤ 6 / 10 ^ 41 := by
  cases k with
  | zero =>
      unfold tolerance
      norm_num
  | succ k =>
      have hcast : ((k : ℝ) + 1) ≤ 196 := by exact_mod_cast hk
      unfold tolerance
      linarith

/-- One step keeps the search within the tolerance, for a base up to `10 ^ 75`. -/
theorem Tracks.step_tolerance (hsettings : ctx.settings = {}) (hworking : working ≤ -60)
    (hlow : -16 * log 10 ≤ log base.toReal) (hhigh : log base.toReal ≤ 75 * log 10)
    (hk : k < 196) (htracks : Tracks base k (tolerance k) b) (hb : Halves exponent k b)
    (h : (b.step ctx exponent working).outcome = .ok b') :
    Tracks base (k + 1) (tolerance (k + 1)) b' := by
  have hb' := hb.step (by omega) h
  have hδ : tolerance k ≤ 1 / 100 := (tolerance_le hk.le).trans (by norm_num)
  have hten := nine_tenths_le_log_ten
  cases k with
  | zero =>
      have hsize : log base.toReal / 2 ^ (0 + 2) + 1 / 10 ≤ (19 : ℤ) * log 10 := by
        norm_num
        linarith
      refine (htracks.step hsettings hworking hlow hδ hb hb' (by norm_num) hsize h).mono ?_
      unfold tolerance
      norm_num
  | succ k =>
      have hsize : log base.toReal / 2 ^ (k + 1 + 2) + 1 / 10 ≤ (10 : ℤ) * log 10 := by
        have hpow : (1 : ℝ) ≤ 2 ^ k := one_le_pow₀ (by norm_num)
        have hle : log base.toReal / 2 ^ (k + 1 + 2) ≤ 75 / 8 * log 10 := by
          rw [div_le_iff₀ (by positivity), pow_add, pow_add]
          nlinarith
        push_cast
        linarith
      refine (htracks.step hsettings hworking hlow hδ hb hb' (by norm_num) hsize h).mono ?_
      unfold tolerance
      push_cast
      norm_num
      linarith

/-- **A search** ends near the power to its last middle, which is near the exponent. -/
theorem exists_near_of_run (hsettings : ctx.settings = {}) (hworking : working ≤ -60)
    (hlow : -16 * log 10 ≤ log base.toReal) (hhigh : log base.toReal ≤ 75 * log 10)
    (hhalves : Halves exponent 0 b) (htracks : Tracks base 0 (tolerance 0) b) {r : Decimal}
    (h : (run ctx exponent working (stepLimit ctx.settings) 0 b).outcome = .ok r) :
    ∃ middle : Decimal, |middle.toRat - exponent.toRat| ≤ 1 / 10 ^ 49 ∧
      LogNear (6 / 10 ^ 41) (middle.toReal * log base.toReal) r.toReal := by
  have hlimit : stepLimit ctx.settings = 196 := by
    rw [hsettings]
    rfl
  rw [hlimit] at h
  -- the tolerance is kept for as long as the search can last
  have hstep : ∀ k b b',
      (k ≤ 196 → Halves exponent k b ∧ Tracks base k (tolerance k) b) →
      (b.step ctx exponent working).outcome = .ok b' →
      k + 1 ≤ 196 → Halves exponent (k + 1) b' ∧ Tracks base (k + 1) (tolerance (k + 1)) b' := by
    intro k b b' hb hnext hk
    obtain ⟨hhalves, htracks⟩ := hb (by omega)
    exact ⟨hhalves.step (by omega) hnext,
      htracks.step_tolerance hsettings hworking hlow hhigh hk hhalves hnext⟩
  obtain ⟨last, k, hlast, hle, rfl, hend⟩ :=
    exists_of_run hstep _ _ 0 (fun _ => ⟨hhalves, htracks⟩) h
  rw [zero_add] at hle hend
  obtain ⟨hhalves, ρ, σ, hroot, hpower, hsum⟩ := hlast hle
  have hρ : 0 ≤ ρ := (abs_nonneg _).trans hroot.near
  have htolerance := tolerance_le hle
  refine ⟨last.middle, ?_, hpower.mono (by linarith)⟩
  rcases hend with hk | hnear
  · rw [hk] at hhalves
    exact hhalves.abs_middle_sub_le.trans (by norm_num)
  · rw [farApart_iff, hsettings, not_lt] at hnear
    norm_num at hnear ⊢
    exact hnear

end Bisection

/-! ## The power -/

/-- A power with an exponent between zero and one is found by the search. -/
theorem power_eq_powerBelowOne {ctx : Context} {base exponent : Decimal} {precision : Value}
    (hpos : 0 < exponent.toRat) (hone : exponent.toRat < 1) :
    (power ctx base exponent precision).outcome = (ctx.workingPrecision precision >>=
      fun working => (powerBelowOne ctx base exponent working).outcome) := by
  rw [power_of_lt_one hpos hone, Traced.outcome_bind, Traced.outcome_liftM]

/-- What a search ends with has the logarithm of the power, up to seven units of the
forty-first digit. -/
theorem powerBelowOne_logNear {ctx : Context} (hsettings : ctx.settings = {})
    {base exponent : Decimal} (hlow : 10 ^ (-16 : ℤ) ≤ base.toRat)
    (hhigh : base.toRat ≤ 10 ^ 75) (hpos : 0 < exponent.toRat) (hone : exponent.toRat < 1)
    {working : Int} (hworking : working ≤ -60) {r : Decimal}
    (h : (powerBelowOne ctx base exponent working).outcome = .ok r) :
    LogNear (7 / 10 ^ 41) (exponent.toReal * log base.toReal) r.toReal := by
  have hbase : 0 < base.toRat := (ten_zpow_pos _).trans_le hlow
  obtain ⟨hloglow, hloghigh⟩ := log_toReal_mem hlow (n := 75) hhigh
  push_cast at hloglow hloghigh
  rw [powerBelowOne_of_ne_zero hbase.ne', Traced.outcome_bind] at h
  obtain ⟨root, hroot, h⟩ := bind_eq_ok_iff.mp h
  obtain ⟨middle, hmiddle, hpower⟩ :=
    Bisection.exists_near_of_run hsettings hworking hloglow hloghigh
      (Bisection.halves_start root hpos.le hone.le)
      (Bisection.tracks_start hsettings hbase hloglow hroot) h
  have hlarge : |log base.toReal| ≤ 675 := by
    have hten := log_ten_le_nine
    exact abs_le.mpr ⟨by linarith, by linarith⟩
  have hmove : |middle.toReal * log base.toReal - exponent.toReal * log base.toReal| ≤
      1 / 10 ^ 49 * 675 := by
    have hmiddle' := (Rat.cast_le (K := ℝ)).mpr hmiddle
    push_cast at hmiddle'
    rw [← sub_mul, abs_mul]
    exact mul_le_mul hmiddle' hlarge (abs_nonneg _) (by positivity)
  exact (hpower.move hmove).mono (by norm_num)

/-- **Fractional powers are accurate to forty digits.**  Under the settings by default, for
a base between `10 ^ -16` and `10 ^ 75` and an exponent between zero and one, a power that is
found differs from the real power by at most `10 ^ -40` of it, at any precision. -/
theorem power_accuracy {ctx : Context} (hsettings : ctx.settings = {})
    {base exponent : Decimal} (hlow : 10 ^ (-16 : ℤ) ≤ base.toRat)
    (hhigh : base.toRat ≤ 10 ^ 75) (hpos : 0 < exponent.toRat) (hone : exponent.toRat < 1)
    {precision : Value} {r : Decimal}
    (h : (power ctx base exponent precision).outcome = .ok r) :
    |r.toReal - base.toReal ^ exponent.toReal| ≤
      10 ^ (-40 : ℤ) * base.toReal ^ exponent.toReal := by
  rw [power_eq_powerBelowOne hpos hone] at h
  obtain ⟨working, hworking, h⟩ := bind_eq_ok_iff.mp h
  have hle : working ≤ -60 := by
    have hroot := (workingPrecision_le hworking).1
    rw [hsettings] at hroot
    exact hroot
  have hnear := powerBelowOne_logNear hsettings hlow hhigh hpos hone hle h
  have hbase : 0 < base.toReal := toReal_pos.mpr ((ten_zpow_pos _).trans_le hlow)
  have hpower : base.toReal ^ exponent.toReal = exp (exponent.toReal * log base.toReal) := by
    rw [rpow_def_of_pos hbase, mul_comm]
  rw [hpower]
  refine (hnear.abs_sub_exp_le (by norm_num)).trans ?_
  exact mul_le_mul_of_nonneg_right (by norm_num) (exp_pos _).le

/-- Two to the power `0.3`. -/
theorem power_accuracy_two :
    let x : Decimal :=
      ⟨1231144413344916284499393069167743109876137761100751827658294, -60⟩
    (power (Context.initial {}) two ⟨3, -1⟩ .none).outcome = .ok x ∧
      |x.toReal - two.toReal ^ (⟨3, -1⟩ : Decimal).toReal| ≤
        10 ^ (-40 : ℤ) * two.toReal ^ (⟨3, -1⟩ : Decimal).toReal := by
  have hpower : (power (Context.initial {}) two ⟨3, -1⟩ .none).outcome =
      .ok ⟨1231144413344916284499393069167743109876137761100751827658294, -60⟩ :=
    eq_ok_of_toOption (by decide +kernel)
  have hbase : 10 ^ (-16 : ℤ) ≤ two.toRat ∧ two.toRat ≤ 10 ^ 75 := by
    rw [toRat_two]
    norm_num
  have hexponent : 0 < (⟨3, -1⟩ : Decimal).toRat ∧ (⟨3, -1⟩ : Decimal).toRat < 1 := by
    norm_num [toRat]
  exact ⟨hpower, power_accuracy rfl hbase.1 hbase.2 hexponent.1 hexponent.2 hpower⟩

/-- **The power of a large base is lost.**  The fourth root of `16 * 10 ^ 244` is
`2 * 10 ^ 61`, and what is found is zero: the search divides the square root by the fourth
root, whose inverse has no digit at the working precision. -/
theorem power_of_large_base :
    (power (Context.initial {}) ⟨16, 244⟩ ⟨25, -2⟩ (.int (-4))).outcome = .ok zero ∧
      (⟨16, 244⟩ : Decimal).toReal ^ (⟨25, -2⟩ : Decimal).toReal = 2 * 10 ^ 61 ∧
      ¬ |zero.toReal - (⟨16, 244⟩ : Decimal).toReal ^ (⟨25, -2⟩ : Decimal).toReal| ≤
        10 ^ (-40 : ℤ) * max 1 ((⟨16, 244⟩ : Decimal).toReal ^ (⟨25, -2⟩ : Decimal).toReal) := by
  have hlost : (power (Context.initial {}) ⟨16, 244⟩ ⟨25, -2⟩ (.int (-4))).outcome = .ok zero :=
    eq_ok_of_toOption (by decide +kernel)
  have hbase : (⟨16, 244⟩ : Decimal).toReal = (2 * 10 ^ 61) ^ 4 := by
    norm_num [toReal, toRat]
  have hexponent : (⟨25, -2⟩ : Decimal).toReal = ((4 : ℕ) : ℝ)⁻¹ := by
    norm_num [toReal, toRat]
  have hzero : zero.toReal = 0 := by
    rw [toReal, toRat_zero, Rat.cast_zero]
  have hroot : (⟨16, 244⟩ : Decimal).toReal ^ (⟨25, -2⟩ : Decimal).toReal = 2 * 10 ^ 61 := by
    rw [hbase, hexponent]
    exact pow_rpow_inv_natCast (by positivity) (by norm_num)
  refine ⟨hlost, hroot, ?_⟩
  rw [hroot, hzero]
  norm_num

end DecimalCalc.Decimal
