import DecimalCalc.Proofs.Decimal.ExponentSearch
import DecimalCalc.Proofs.Decimal.IntegralPower
/-!
# How powers fail

A fractional power of a positive number fails only where a root is not found: the roots in
it are positive, so each of them has a root and an inverse again.  This needs of a quotient
no more than that it loses less than one unit of the precision, so it holds for both
rounding modes.  Of zero the power is zero, and a negative number has no root.

* `sqrt_ends`, `Bisection.step_ends` and `fractionalPower_ends` are these facts, from the root
  to the search and to the halvings around it, by the lemmas on how each of them ends.
* `power_ends` says of all positive exponents which results can be zero, and that no
  division by zero is met.
* `power_divisionByZero` is what follows for the reciprocal that a negative exponent asks
  for.
-/

namespace DecimalCalc.Decimal

open Numeral

variable {ctx : Context} {mode : Rounding} {p working : Int}

/-! ## Divisions -/

section Divisions

variable {E : Failure → Prop} {a b : Decimal}

/-- A number that is not negative has a quotient by a positive one, which loses less than
one unit of the precision. -/
theorem divide_ends (hmode : ctx.resolveRounding .none = .ok mode) (ha : 0 ≤ a.toRat)
    (hb : 0 < b.toRat) (hp : p < 0) :
    Ends (fun q => 0 ≤ q.toRat ∧ a.toRat / b.toRat < q.toRat + 10 ^ p) E
      (a.divide ctx b (.int p) .none) := by
  rw [divide_eq_quotient a hb.ne' (ctx.resolvePrecision_int hp) hmode]
  have hplace : (10 : ℚ) ^ a.quotientPlace b p ≤ 10 ^ p :=
    zpow_le_zpow_right₀ (by norm_num) (min_le_right _ _)
  obtain ⟨hnonneg, hlt⟩ := mode.atPlace_bounds (a.quotientPlace b p) (div_nonneg ha hb.le)
  rw [← toRat_quotient a hb.ne'] at hnonneg hlt
  exact ⟨hnonneg, hlt.trans_le (by linarith)⟩

/-- A number has a half, without an exponent above zero. -/
theorem divide_two_ends (hmode : ctx.resolveRounding .none = .ok mode) (a : Decimal)
    (hp : p < 0) : Ends (fun q => q.exponent ≤ 0) E (a.divide ctx two (.int p) .none) := by
  have htwo : two.toRat ≠ 0 := by
    rw [toRat_two]
    norm_num
  rw [divide_eq_quotient a htwo (ctx.resolvePrecision_int hp) hmode]
  exact a.quotient_exponent two hp mode

/-- A division is one by zero exactly if the divisor is zero. -/
theorem divide_eq_divisionByZero_iff (hmode : ctx.resolveRounding .none = .ok mode)
    (hp : p < 0) :
    a.divide ctx b (.int p) .none = .error (.error .divisionByZero) ↔ b.toRat = 0 := by
  constructor
  · intro h
    by_contra hb
    rw [divide_eq_quotient a hb (ctx.resolvePrecision_int hp) hmode] at h
    cases h
  · intro h
    rw [divide, ctx.resolvePrecision_int hp, hmode, ok_bind, ok_bind,
      if_pos ((isZero_iff b).mpr h)]
    rfl

end Divisions

/-! ## Roots of positive numbers -/

/-- The failure of a root that is not found. -/
def NotFound (s : Settings) (f : Failure) : Prop :=
  f = .error (.noConvergence s.maxRootIterations)

/-- The iteration from a positive number goes through positive numbers. -/
theorem refineRoot_ends (hmode : ctx.resolveRounding .none = .ok mode) {n x : Decimal}
    (hn : 0 < n.toRat) (hneg : working < 0)
    (hworking : working ≤ ctx.settings.epsilonExponent - 1) (left done : Nat)
    (hx : 0 < x.toRat) :
    Ends (fun r => 0 < r.toRat) (NotFound ctx.settings)
      (n.refineRoot ctx (.int working) left done x).outcome := by
  have hlimit :
      NotFound ctx.settings (.error (.noConvergence ctx.settings.maxRootIterations)) := rfl
  refine refineRoot_ends_of (D := fun x => 0 < x.toRat) (Q := fun _ y => 0 ≤ y.toRat) hlimit
    ?_ ?_ (fun _ _ hx _ _ => hx) left done hx
  · exact fun x hx => (divide_ends hmode hn.le hx hneg).mono_ok fun _ hy => hy.1
  · intro x y hx hy hfar
    have hsum : 0 ≤ (x.add y).toRat := by
      rw [toRat_add]
      linarith
    have htwo : 0 < two.toRat := by
      rw [toRat_two]
      norm_num
    refine (divide_ends hmode hsum htwo hneg).mono_ok fun z hz => ?_
    have hmean := hz.2
    rw [toRat_add, toRat_two] at hmean
    exact mean_pos hx hy (ten_zpow_working_le hworking) ((farApart_iff _ x y).mp hfar) hmean

/-- The root of a positive number is positive, or not found. -/
theorem sqrt_ends (hmode : ctx.resolveRounding .none = .ok mode) {n : Decimal}
    (hn : 0 < n.toRat) (hp : p < 0) :
    Ends (fun r => 0 < r.toRat) (NotFound ctx.settings) (n.sqrt ctx (.int p)).outcome := by
  obtain ⟨w, hw, hneg⟩ := ctx.exists_workingPrecision hp
  rw [outcome_sqrt_of_pos hn, hw, ok_bind]
  exact refineRoot_ends hmode hn hneg (workingPrecision_le hw).2 _ 0 n.rootEstimate_pos

/-- A negative number has no root. -/
theorem outcome_sqrt_of_neg {n : Decimal} (hn : n.toRat < 0) (precision : Value) :
    (n.sqrt ctx precision).outcome = .error (.error (.negativeRoot n.plainText)) := by
  rw [sqrt, if_pos ((isNegative_iff n).mpr hn)]
  rfl

/-! ## Fractional powers -/

namespace Bisection

variable {exponent : Decimal} {b : Bisection}

/-- A step fails only with the root that it takes: a positive root has an inverse, and the
interval a middle. -/
theorem step_ends_of_root {E : Failure → Prop} (hmode : ctx.resolveRounding .none = .ok mode)
    (hworking : working < 0) (hb : b.Fractional)
    (hnext : Ends (fun r => 0 < r.toRat) E (b.root.sqrt ctx (.int working)).outcome) :
    Ends (fun b' => b'.Fractional ∧ 0 < b'.root.toRat) E
      (b.step ctx exponent working).outcome := by
  refine step_ends_of (L := fun d => d.exponent ≤ 0) hnext ?_ hb.low hb.middle hb.high ?_
  · intro root hroot
    have hone : 0 ≤ one.toRat := by
      rw [toRat_one]
      norm_num
    exact (divide_ends hmode hone hroot hworking).mono_ok fun _ _ => trivial
  · intro root power low high hroot hlow hhigh
    exact (divide_two_ends hmode _ (by omega)).mono_ok fun _ hmiddle =>
      ⟨⟨hlow, hhigh, hmiddle⟩, hroot⟩

/-- The search goes on with a positive root, or a root is not found. -/
theorem step_ends (hmode : ctx.resolveRounding .none = .ok mode) (hworking : working < 0)
    (hb : b.Fractional) (hroot : 0 < b.root.toRat) :
    Ends (fun b' => b'.Fractional ∧ 0 < b'.root.toRat) (NotFound ctx.settings)
      (b.step ctx exponent working).outcome :=
  step_ends_of_root hmode hworking hb (sqrt_ends hmode hroot hworking)

end Bisection

section BelowOne

variable {base : Decimal}

theorem powerBelowOne_ends_of_pos (hmode : ctx.resolveRounding .none = .ok mode)
    (hbase : 0 < base.toRat) (exponent : Decimal) (hworking : working < 0) :
    Ends (fun _ => True) (NotFound ctx.settings)
      (powerBelowOne ctx base exponent working).outcome :=
  powerBelowOne_ends_of (fun _ => sqrt_ends hmode hbase hworking)
    (fun root hroot => ⟨Bisection.fractional_start root, hroot⟩)
    fun _ hb => Bisection.step_ends hmode hworking hb.1 hb.2

theorem outcome_powerBelowOne_of_zero (hbase : base.toRat = 0) (exponent : Decimal) :
    (powerBelowOne ctx base exponent working).outcome = .ok zero := by
  rw [powerBelowOne, powerBelowOneWith, if_pos ((isZero_iff base).mpr hbase)]
  rfl

theorem outcome_powerBelowOne_of_neg (hbase : base.toRat < 0) (exponent : Decimal) :
    (powerBelowOne ctx base exponent working).outcome =
      .error (.error (.negativeRoot base.plainText)) := by
  rw [powerBelowOne_of_ne_zero hbase.ne, Traced.outcome_bind, outcome_sqrt_of_neg hbase]
  rfl

/-- Below one no division by zero is met. -/
theorem powerBelowOne_ends (hmode : ctx.resolveRounding .none = .ok mode) (base exponent : Decimal)
    (hworking : working < 0) :
    Ends (fun _ => True) (· ≠ .error .divisionByZero)
      (powerBelowOne ctx base exponent working).outcome := by
  rcases lt_trichotomy base.toRat 0 with hneg | hzero | hpos
  · rw [outcome_powerBelowOne_of_neg hneg]
    intro h
    cases h
  · rw [outcome_powerBelowOne_of_zero hzero]
    exact trivial
  · refine (powerBelowOne_ends_of_pos hmode hpos exponent hworking).mono_error ?_
    rintro _ rfl h
    cases h

/-- Halving the exponent adds no failure under a known rounding mode: every exponent has a
half. -/
theorem fractionalPower_ends (hmode : ctx.resolveRounding .none = .ok mode)
    {P : Decimal → Prop} {E : Failure → Prop} (hp : p < 0)
    (hbelow : ∀ (e : Decimal) (working : Int), working < 0 →
      Ends P E (powerBelowOne ctx base e working).outcome)
    (hsquare : ∀ (r : Decimal) (working : Int), P r → P ((r.mul r).truncate working))
    (halvings : Nat) {exponent : Decimal} (hexponent : exponent.exponent ≤ 0) :
    Ends P E (fractionalPower ctx base (.int p) halvings exponent).outcome := by
  obtain ⟨working, hworking, hneg⟩ := ctx.exists_workingPrecision hp
  have hprecision : Ends (· < 0) E (ctx.workingPrecision (.int p)) := by
    rw [hworking]
    exact hneg
  exact fractionalPower_ends_of hprecision (fun e working _ => hbelow e working)
    (fun e he => divide_two_ends hmode e (by omega)) hsquare halvings hexponent

/-- A positive exponent that is no integer leads to the search, by halvings. -/
theorem power_ends_of_fractional (hmode : ctx.resolveRounding .none = .ok mode)
    {P : Decimal → Prop} {E : Failure → Prop} (hp : p < 0)
    (hbelow : ∀ (e : Decimal) (working : Int), working < 0 →
      Ends P E (powerBelowOne ctx base e working).outcome)
    (hsquare : ∀ (r : Decimal) (working : Int), P r → P ((r.mul r).truncate working))
    {e : Decimal} (he : 0 < e.toRat) (hint : ¬ ∃ i : Int, e.toRat = i) :
    Ends P E (base.power ctx e (.int p)).outcome := by
  have hnot : ¬ e.isInteger = true := fun h => hint ((isInteger_iff e).mp h)
  rw [power_of_pos he, positivePower, positivePowerWith]
  simp only [hnot]
  exact fractionalPower_ends hmode hp hbelow hsquare _ (exponent_le_of_not_isInteger hnot)

end BelowOne

/-! ## Powers -/

section Powers

variable {base e : Decimal}

/-- **A power with a positive exponent** meets no division by zero, and it is zero only for
the base zero or an exponent that is no integer. -/
theorem power_ends (hmode : ctx.resolveRounding .none = .ok mode) (base : Decimal) (hp : p < 0)
    (he : 0 < e.toRat) :
    Ends (fun r => r.toRat = 0 → base.toRat = 0 ∨ ¬ ∃ i : Int, e.toRat = i)
      (· ≠ .error .divisionByZero) (base.power ctx e (.int p)).outcome := by
  by_cases hint : ∃ i : Int, e.toRat = i
  · obtain ⟨n, hn⟩ := exists_nat_of_int hint he
    refine (power_ends_of_nat ctx base hn (.int p)).mono ?_ ?_
    · intro r hr hzero
      rw [hr] at hzero
      exact .inl (eq_zero_of_pow_eq_zero hzero)
    · rintro _ ⟨-, _ | _ | _⟩ h
      all_goals cases h
  · refine (power_ends_of_fractional hmode hp
      (fun e _ hworking => powerBelowOne_ends hmode base e hworking) ?_ he hint).mono ?_ ?_
    · exact fun _ _ _ => trivial
    · exact fun _ _ _ => .inr hint
    · exact fun _ hf => hf

/-- A positive power of zero is zero, unless the limit on integral exponents refuses it. -/
theorem power_zero_ends (hmode : ctx.resolveRounding .none = .ok mode)
    (hdigits : 0 ≤ ctx.settings.maxResultDigits) (hbase : base.toRat = 0) (hp : p < 0)
    (he : 0 < e.toRat) :
    Ends (fun r => r.toRat = 0)
      (fun _ => ∃ i : Int, e.toRat = i ∧ ctx.settings.maxIntegerPower < i)
      (base.power ctx e (.int p)).outcome := by
  by_cases hint : ∃ i : Int, e.toRat = i
  · obtain ⟨i, hi⟩ := hint
    have hpos := int_pos_of_toRat_eq hi he
    have hcoefficient : base.coefficient = 0 := by
      have hzero := (isZero_iff base).mpr hbase
      rwa [isZero, beq_iff_eq] at hzero
    rw [outcome_power_of_int hi hpos]
    by_cases hlimit : ctx.settings.maxIntegerPower < i
    · rw [integralPower_of_lt hlimit]
      cases shownInt i with
      | ok text => exact ⟨i, hi, hlimit⟩
      | error f => exact ⟨i, hi, hlimit⟩
    · rw [integralPower_of_le (Int.not_lt.mp hlimit), bitLength, if_pos hcoefficient]
      rw [if_neg (by simpa using hdigits)]
      change (ofParts (base.coefficient ^ i.toNat) _).toRat = 0
      rw [hcoefficient, zero_pow (by omega), toRat_ofParts, Int.cast_zero, zero_mul]
  · refine power_ends_of_fractional hmode hp (fun e working _ => ?_) ?_ he hint
    · rw [outcome_powerBelowOne_of_zero hbase]
      exact toRat_zero
    · intro r working hr
      rw [toRat_truncate, toRat_mul, hr, zero_mul, Rounding.atPlace_zero]

/-- A negative power is a division by zero exactly if the positive power is zero. -/
theorem power_eq_divisionByZero_iff (hmode : ctx.resolveRounding .none = .ok mode)
    (base : Decimal) (hp : p < 0) (he : e.toRat < 0) :
    (base.power ctx e (.int p)).outcome = .error (.error .divisionByZero) ↔
      ∃ r, (base.power ctx e.neg (.int p)).outcome = .ok r ∧ r.toRat = 0 := by
  rw [outcome_power_of_neg he, bind_eq_error_iff]
  simp only [divide_eq_divisionByZero_iff hmode hp]
  exact or_iff_right fun h => (power_ends hmode base hp (neg_toRat_pos he)).of_error h rfl

/-- **When a power is a division by zero.**  Under settings with a known rounding mode, a
negative power of zero is one, unless its exponent is an integer beyond the limit: that is
refused first, for every base.  Conversely, a power is a division by zero only if its
exponent is negative and the base is zero, or the exponent is no integer and the positive
power has come out as zero.  So a negative integral power of another base than zero never
is. -/
theorem power_divisionByZero (hrounding : ctx.settings.rounding = mode.name)
    (hdigits : 0 ≤ ctx.settings.maxResultDigits) (base exponent : Decimal) (hp : p < 0) :
    (base.toRat = 0 → exponent.toRat < 0 →
      (∀ i : Int, exponent.toRat = -i → i ≤ ctx.settings.maxIntegerPower) →
        (base.power ctx exponent (.int p)).outcome = .error (.error .divisionByZero)) ∧
    (∀ i : Int, exponent.toRat = -i → 0 < i → ctx.settings.maxIntegerPower < i →
      (base.power ctx exponent (.int p)).outcome = shownInt i >>= fun text =>
        .error (.error (.exponentTooLarge text ctx.settings.maxIntegerPower))) ∧
    ((base.power ctx exponent (.int p)).outcome = .error (.error .divisionByZero) →
      exponent.toRat < 0 ∧ (base.toRat = 0 ∨ (¬ ∃ i : Int, exponent.toRat = i) ∧
        ∃ r, (base.power ctx exponent.neg (.int p)).outcome = .ok r ∧ r.toRat = 0)) := by
  have hmode := Context.resolveRounding_default hrounding
  have hpositive : exponent.toRat < 0 → 0 < exponent.neg.toRat := by
    intro hneg
    rw [toRat_neg]
    exact neg_pos.mpr hneg
  refine ⟨?_, ?_, ?_⟩
  · intro hbase hneg hlimit
    have hends := power_zero_ends hmode hdigits hbase hp (hpositive hneg)
    refine (power_eq_divisionByZero_iff hmode base hp hneg).mpr ?_
    cases hpower : (base.power ctx exponent.neg (.int p)).outcome with
    | ok r => exact ⟨r, rfl, hends.of_ok hpower⟩
    | error f =>
        obtain ⟨i, hi, habove⟩ := hends.of_error hpower
        rw [toRat_neg, neg_eq_iff_eq_neg] at hi
        exact absurd (hlimit i hi) (not_le.mpr habove)
  · intro i hi hpos habove
    have hneg : exponent.toRat < 0 := by
      rw [hi]
      exact neg_neg_of_pos (by exact_mod_cast hpos)
    have hexponent : exponent.neg.toRat = i := by rw [toRat_neg, hi, neg_neg]
    rw [outcome_power_of_neg hneg, outcome_power_of_int hexponent hpos, integralPower_of_lt habove]
    cases shownInt i with
    | ok text => rfl
    | error f => rfl
  · intro h
    rcases lt_trichotomy exponent.toRat 0 with hneg | hzero | hpos
    · obtain ⟨r, hpower, hr⟩ := (power_eq_divisionByZero_iff hmode base hp hneg).mp h
      have hcause := (power_ends hmode base hp (hpositive hneg)).of_ok hpower hr
      refine ⟨hneg, hcause.imp_right fun hint => ⟨?_, r, hpower, hr⟩⟩
      rintro ⟨i, hi⟩
      exact hint ⟨-i, by rw [toRat_neg, hi, Int.cast_neg]⟩
    · rw [power_of_zero hzero] at h
      cases h
    · exact absurd rfl ((power_ends hmode base hp hpos).of_error h)

/-- The inverse of the square root of zero. -/
theorem power_divisionByZero_root :
    (zero.power (Context.initial {}) ⟨-5, -1⟩ (.int (-4))).outcome =
      .error (.error .divisionByZero) := by
  have hneg : (⟨-5, -1⟩ : Decimal).toRat < 0 := by norm_num [toRat]
  have hsmall : ∀ i : Int, (⟨-5, -1⟩ : Decimal).toRat = -i →
      i ≤ (Context.initial {}).settings.maxIntegerPower := by
    intro i hi
    have hhalf : (i : ℚ) ≤ (100000 : Int) := by
      norm_num [toRat] at hi ⊢
      linarith
    exact_mod_cast hhalf
  have hrounding : (Context.initial {}).settings.rounding = Rounding.truncate.name := rfl
  have hdigits : 0 ≤ (Context.initial {}).settings.maxResultDigits := by decide
  exact (power_divisionByZero hrounding hdigits zero ⟨-5, -1⟩ (by decide)).1 toRat_zero hneg hsmall

/-- **A division by zero is not decided by the base and the sign of the exponent.**  Zero to
a negative power beyond the limit is refused for the limit, and the inverse of the fourth
root of `16 * 10 ^ 244` is a division by zero, since the root itself comes out as zero. -/
theorem power_divisionByZero_not_iff :
    (zero.power (Context.initial {}) ⟨-100001, 0⟩ (.int (-4))).outcome =
      .error (.error (.exponentTooLarge "100001" 100000)) ∧
    ¬ ((zero.power (Context.initial {}) ⟨-100001, 0⟩ (.int (-4))).outcome =
        .error (.error .divisionByZero) ↔
      zero.toRat = 0 ∧ (⟨-100001, 0⟩ : Decimal).toRat < 0) ∧
    ¬ ((power (Context.initial {}) ⟨16, 244⟩ ⟨-25, -2⟩ (.int (-4))).outcome =
        .error (.error .divisionByZero) ↔
      (⟨16, 244⟩ : Decimal).toRat = 0 ∧ (⟨-25, -2⟩ : Decimal).toRat < 0) := by
  have hrefused : (zero.power (Context.initial {}) ⟨-100001, 0⟩ (.int (-4))).outcome =
      .error (.error (.exponentTooLarge "100001" 100000)) := by
    have hneg : (⟨-100001, 0⟩ : Decimal).toRat < 0 := by norm_num [toRat]
    have hint : (⟨-100001, 0⟩ : Decimal).neg.toRat = (100001 : Int) := by
      rw [toRat_neg]
      norm_num [toRat]
    have hshown : shownInt 100001 = .ok "100001" := eq_ok_of_toOption (by decide +kernel)
    have hlimit : (Context.initial {}).settings.maxIntegerPower < 100001 := by decide
    rw [outcome_power_of_neg hneg, outcome_power_of_int hint (by norm_num),
      integralPower_of_lt hlimit, hshown]
    rfl
  have hlost : (power (Context.initial {}) ⟨16, 244⟩ ⟨25, -2⟩ (.int (-4))).outcome = .ok zero :=
    eq_ok_of_toOption (by decide +kernel)
  have hbase : (⟨16, 244⟩ : Decimal).toRat ≠ 0 := by norm_num [toRat]
  have hneg : (⟨-25, -2⟩ : Decimal).toRat < 0 := by norm_num [toRat]
  have hfourth : (⟨-25, -2⟩ : Decimal).neg = ⟨25, -2⟩ := by decide
  refine ⟨hrefused, ?_, ?_⟩
  · rw [hrefused]
    intro h
    cases h.mpr ⟨toRat_zero, by norm_num [toRat]⟩
  · rw [outcome_power_of_neg hneg, hfourth, hlost]
    intro h
    exact hbase (h.mp rfl).1

end Powers

end DecimalCalc.Decimal
