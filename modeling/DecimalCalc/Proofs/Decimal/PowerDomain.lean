import DecimalCalc.Proofs.Decimal.PowerRoots
/-!
# The domain of powers

A negative number has no powers with exponents that are no integers.  Nothing checks this in
advance.  Such an exponent is halved until it is below one, which leaves no integer and does not
touch the base, and then the first square root refuses the base
(`outcome_power_of_negative_base`).  No other power meets a root of a negative number
(`power_ends_of_domain`).

`power_domain_iff` says both, and of a positive base that no root is taken but of positive
numbers.
-/

namespace DecimalCalc.Decimal

variable {ctx : Context} {mode : Rounding} {p : Int} {base e : Decimal}

/-! ## Powers outside the domain -/

/-- A negative base and a positive exponent that is no integer lead to the root of the
base. -/
theorem outcome_power_of_negative_base_pos (hmode : ctx.resolveRounding .none = .ok mode)
    (hbase : base.toRat < 0) (hp : p < 0) (he : 0 < e.toRat)
    (hint : ¬ ∃ i : Int, e.toRat = i) :
    (base.power ctx e (.int p)).outcome = .error (.error (.negativeRoot base.plainText)) := by
  have hends : Ends (fun _ => False) (· = .error (.negativeRoot base.plainText))
      (base.power ctx e (.int p)).outcome := by
    refine power_ends_of_fractional hmode hp ?_ (fun _ _ h => h) he hint
    intro e working _
    rw [outcome_powerBelowOne_of_neg hbase]
    exact rfl
  cases hpower : (base.power ctx e (.int p)).outcome with
  | ok r => exact (hends.of_ok hpower).elim
  | error f => rw [hends.of_error hpower]

/-- **Outside the domain** a power is refused as the root of its base, with a negative
exponent before there is anything to invert. -/
theorem outcome_power_of_negative_base (hmode : ctx.resolveRounding .none = .ok mode)
    (hbase : base.toRat < 0) (hp : p < 0) (hint : ¬ ∃ i : Int, e.toRat = i) :
    (base.power ctx e (.int p)).outcome = .error (.error (.negativeRoot base.plainText)) := by
  rcases lt_trichotomy e.toRat 0 with hneg | hzero | hpos
  · rw [outcome_power_of_neg hneg, outcome_power_of_negative_base_pos hmode hbase hp
      (neg_toRat_pos hneg) (fun h => hint (exists_int_neg_iff.mp h)), error_bind]
  · exact absurd ⟨0, by rw [hzero, Int.cast_zero]⟩ hint
  · exact outcome_power_of_negative_base_pos hmode hbase hp hpos hint

/-! ## Powers inside the domain -/

/-- A failure that is no root of a negative number. -/
def InDomain (f : Failure) : Prop := ∀ c : Error, f = .error c → c.kind ≠ .domain

theorem inDomain_notFound {f : Failure} (h : NotFound ctx.settings f) : InDomain f := by
  rintro c rfl
  cases h
  exact nofun

theorem inDomain_refusal {i : Int} {f : Failure} (h : PowerRefusal ctx.settings base i f) :
    InDomain f := by
  intro c hc
  cases h with
  | exponent =>
      cases hc
      exact nofun
  | unwritten => cases hc
  | result =>
      cases hc
      exact nofun

theorem divide_ends_inDomain (hmode : ctx.resolveRounding .none = .ok mode) (hp : p < 0)
    (a b : Decimal) : Ends (fun _ => True) InDomain (a.divide ctx b (.int p) .none) := by
  by_cases hb : b.toRat = 0
  · rw [(divide_eq_divisionByZero_iff hmode hp).mpr hb]
    intro c hc
    cases hc
    exact nofun
  · rw [divide_eq_quotient a hb (ctx.resolvePrecision_int hp) hmode]
    exact trivial

theorem power_ends_inDomain_of_pos (hmode : ctx.resolveRounding .none = .ok mode) (hp : p < 0)
    (hdomain : base.toRat < 0 → ∃ i : Int, e.toRat = i) (he : 0 < e.toRat) :
    Ends (fun _ => True) InDomain (base.power ctx e (.int p)).outcome := by
  by_cases hint : ∃ i : Int, e.toRat = i
  · obtain ⟨n, hn⟩ := exists_nat_of_int hint he
    exact (power_ends_of_nat ctx base hn (.int p)).mono (fun _ _ => trivial)
      fun _ hf => inDomain_refusal hf.2
  · refine power_ends_of_fractional hmode hp ?_ (fun _ _ _ => trivial) he hint
    intro e working hworking
    rcases lt_trichotomy base.toRat 0 with hneg | hzero | hpos
    · exact absurd (hdomain hneg) hint
    · rw [outcome_powerBelowOne_of_zero hzero]
      exact trivial
    · exact (powerBelowOne_ends_of_pos hmode hpos e hworking).mono_error
        fun _ => inDomain_notFound

/-- **Inside the domain**, of a base that is not negative or with an integer as the exponent,
no root of a negative number is met. -/
theorem power_ends_of_domain (hmode : ctx.resolveRounding .none = .ok mode) (hp : p < 0)
    (hdomain : base.toRat < 0 → ∃ i : Int, e.toRat = i) :
    Ends (fun _ => True) InDomain (base.power ctx e (.int p)).outcome := by
  rcases lt_trichotomy e.toRat 0 with hneg | hzero | hpos
  · rw [outcome_power_of_neg hneg]
    refine (power_ends_inDomain_of_pos hmode hp
      (fun h => exists_int_neg_iff.mpr (hdomain h)) (neg_toRat_pos hneg)).bind ?_
    intro r _
    exact divide_ends_inDomain hmode hp one r
  · rw [power_of_zero hzero]
    exact trivial
  · exact power_ends_inDomain_of_pos hmode hp hdomain hpos

/-! ## The domain -/

/-- **The domain of powers.**  Under settings with a known rounding mode, a power is refused as
outside the domain exactly if its base is negative and its exponent is no integer, of either
sign and any size.  For a positive base no root is taken of zero or of a negative number: with
any function in the place of the square root that agrees with it on the positive numbers, the
power is the same, with the same reports. -/
theorem power_domain_iff (hrounding : ctx.settings.rounding = mode.name)
    (base exponent : Decimal) (hp : p < 0) :
    ((∃ c : Error, (base.power ctx exponent (.int p)).outcome = .error (.error c) ∧
        c.kind = .domain) ↔
      base.toRat < 0 ∧ ¬ ∃ i : Int, exponent.toRat = i) ∧
    (0 < base.toRat → ∀ root : Decimal → Int → Traced Decimal,
      (∀ n working, 0 < n.toRat → root n working = n.sqrt ctx (.int working)) →
        powerWith root ctx base exponent (.int p) = base.power ctx exponent (.int p)) := by
  have hmode := Context.resolveRounding_default hrounding
  refine ⟨⟨?_, ?_⟩, ?_⟩
  · rintro ⟨c, hc, hkind⟩
    by_contra hnot
    have hdomain : base.toRat < 0 → ∃ i : Int, exponent.toRat = i := by
      intro hbase
      by_contra hint
      exact hnot ⟨hbase, hint⟩
    exact (power_ends_of_domain hmode hp hdomain).of_error hc c rfl hkind
  · rintro ⟨hbase, hint⟩
    exact ⟨.negativeRoot base.plainText, outcome_power_of_negative_base hmode hbase hp hint, rfl⟩
  · intro hbase root hroot
    have hpositive : RootsWithin ctx root (fun n => 0 < n.toRat) :=
      ⟨hroot, fun n working r hn h => sqrt_pos hmode hn h⟩
    exact hpositive.powerWith_eq hbase exponent (.int p)

/-- The power of minus two to minus two and a half is outside the domain, and that of two to two
and a half is the same with a root that fails for all numbers that are not positive. -/
theorem power_domain_iff_half :
    let ctx := Context.initial {}
    (⟨-2, 0⟩ : Decimal).toRat < 0 ∧ (¬ ∃ i : Int, (⟨-25, -1⟩ : Decimal).toRat = i) ∧
      (∃ c : Error, (power ctx ⟨-2, 0⟩ ⟨-25, -1⟩ (.int (-4))).outcome = .error (.error c) ∧
        c.kind = .domain) ∧
      0 < two.toRat ∧
      powerWith (fun n working => if n.isPositive then n.sqrt ctx (.int working)
          else .fail (.error .divisionByZero)) ctx two ⟨25, -1⟩ (.int (-4)) =
        two.power ctx ⟨25, -1⟩ (.int (-4)) := by
  intro ctx
  have hrounding : ctx.settings.rounding = Rounding.truncate.name := rfl
  have hp : (-4 : Int) < 0 := by decide
  have hbase : (⟨-2, 0⟩ : Decimal).toRat < 0 := by norm_num [toRat]
  have hint : ¬ ∃ i : Int, (⟨-25, -1⟩ : Decimal).toRat = i := by
    rintro ⟨i, hi⟩
    have hdouble : (-5 : ℚ) = 2 * i := by
      rw [← hi]
      norm_num [toRat]
    have hodd : (-5 : Int) = 2 * i := by exact_mod_cast hdouble
    omega
  have htwo : 0 < two.toRat := by
    rw [toRat_two]
    norm_num
  refine ⟨hbase, hint, (power_domain_iff hrounding _ _ hp).1.mpr ⟨hbase, hint⟩, htwo, ?_⟩
  refine (power_domain_iff hrounding two ⟨25, -1⟩ hp).2 htwo _ ?_
  intro n working hn
  rw [if_pos ((isPositive_iff n).mpr hn)]

end DecimalCalc.Decimal
