import DecimalCalc.Proofs.Decimal.ExponentSearch
/-!
# Powers and the forms of their exponents

A power asks of its exponent only what its number answers: whether it is zero, negative or an
integer, which integer, and on which side of one and of the middle of an interval it is.  The
one place where the form is read is the precision at which the exponent is halved, one digit
below the form itself; and there the half is exact, so that the halves of two forms of a
number are forms of a number again.

* `Bisection.runWith_congr` and `fractionalPowerWith_congr` compare the two computations, step
  by step and halving by halving, with any function that takes the roots.
* `power_congr_exponent`: forms of a number lead to the same computation as exponents.
* `power_of_one_le`: the halvings, which are counted in advance, are the recursion of the power
  itself, down to the search (`power_of_lt_one`).
-/

namespace DecimalCalc.Decimal

variable {ctx : Context} {a b e e' : Decimal} {root : Decimal → Int → Traced Decimal}

/-! ## The search -/

theorem farApart_congr_right (h : a.toRat = b.toRat) (s : Settings) (c : Decimal) :
    c.farApart s a = c.farApart s b := by
  rw [Bool.eq_iff_iff, farApart_iff, farApart_iff, h]

namespace Bisection

variable (h : e.toRat = e'.toRat) (working : Int)

include h

/-- A step looks on which side of the middle the exponent is. -/
theorem stepWith_congr (b : Bisection) :
    b.stepWith root ctx e working = b.stepWith root ctx e' working := by
  rw [stepWith, stepWith, greater_congr_right h]

/-- The search for a number goes the same way in every form, by induction on the steps
left. -/
theorem runWith_congr (left done : Nat) (b : Bisection) :
    runWith root ctx e working left done b = runWith root ctx e' working left done b := by
  induction left generalizing done b with
  | zero => rfl
  | succ left ih =>
      rw [runWith, runWith, farApart_congr_right h, stepWith_congr h]
      simp only [ih]

end Bisection

theorem powerBelowOneWith_congr (h : e.toRat = e'.toRat) (base : Decimal) (working : Int) :
    powerBelowOneWith root ctx base e working = powerBelowOneWith root ctx base e' working := by
  simp only [powerBelowOneWith, Bisection.runWith_congr h]

/-! ## The halvings -/

/-- An exponent that is no integer is halved in the rounding mode of the settings, or is not
where that is unknown. -/
theorem halve_eq (he : e.exponent ≤ 0) :
    e.divide ctx two (.int (e.exponent - 1)) .none =
      ctx.resolveRounding .none >>= fun mode => .ok (e.quotient two (e.exponent - 1) mode) := by
  rw [divide, ctx.resolvePrecision_int (by omega : e.exponent - 1 < 0)]
  rfl

/-- **Halving the exponent** keeps two forms of a number equal, by induction on the
halvings: the half is exact in both. -/
theorem fractionalPowerWith_congr (base : Decimal) (precision : Value) (halvings : Nat)
    (h : e.toRat = e'.toRat) (he : e.exponent ≤ 0) (he' : e'.exponent ≤ 0) :
    fractionalPowerWith root ctx base precision halvings e =
      fractionalPowerWith root ctx base precision halvings e' := by
  induction halvings generalizing e e' with
  | zero => simp only [fractionalPowerWith, powerBelowOneWith_congr h]
  | succ halvings ih =>
      rw [fractionalPowerWith, fractionalPowerWith, less_congr_left h]
      refine Traced.bind_congr fun working _ => ?_
      rw [powerBelowOneWith_congr h]
      split
      · rfl
      · rw [halve_eq he, halve_eq he']
        cases ctx.resolveRounding .none with
        | error f => rfl
        | ok mode =>
            have hhalves : (e.quotient two (e.exponent - 1) mode).toRat =
                (e'.quotient two (e'.exponent - 1) mode).toRat := by
              rw [toRat_quotient_two e le_rfl, toRat_quotient_two e' le_rfl, h]
            rw [ok_bind, ok_bind, Traced.liftM_ok_bind, Traced.liftM_ok_bind,
              ih hhalves (e.quotient_exponent two (by omega) mode)
                (e'.quotient_exponent two (by omega) mode)]

/-! ## Powers -/

/-- A positive exponent is an integer in all of its forms or in none, and where it is none its
forms have no exponent above zero. -/
theorem positivePowerWith_congr (h : e.toRat = e'.toRat) (base : Decimal) (precision : Value) :
    positivePowerWith root ctx base e precision = positivePowerWith root ctx base e' precision := by
  have hwhole : e.integer.coefficient = e'.integer.coefficient := by
    rw [coefficient_integer, coefficient_integer, h]
  have hinteger := isInteger_congr h
  by_cases hint : e.isInteger = true
  · have hint' : e'.isInteger = true := hinteger ▸ hint
    simp only [positivePowerWith, hint, hint', if_true, hwhole]
  · have hint' : ¬ e'.isInteger = true := hinteger ▸ hint
    simp only [positivePowerWith, hint, hint', hwhole]
    exact fractionalPowerWith_congr base precision _ h (exponent_le_of_not_isInteger hint)
      (exponent_le_of_not_isInteger hint')

/-- **A power does not depend on the form of its exponent.**  Two forms of a number, as the
exponents of one base, lead to the same computation, at every precision and under all
settings: to the same form of the result or to the same failure, and to the same reports on
the way. -/
theorem power_congr_exponent (ctx : Context) (base : Decimal) (h : e.equal e' = true)
    (precision : Value) : base.power ctx e precision = base.power ctx e' precision := by
  have hnumber := (equal_iff e e').mp h
  have hopposite : e.neg.toRat = e'.neg.toRat := by rw [toRat_neg, toRat_neg, hnumber]
  rw [power, power, powerWith, powerWith, isZero_congr hnumber, isNegative_congr hnumber,
    positivePowerWith_congr hnumber, positivePowerWith_congr hopposite]

/-- Two to the power two and a half, which is halved twice. -/
theorem power_congr_exponent_long :
    (⟨25, -1⟩ : Decimal).equal ⟨2500, -3⟩ = true ∧
      two.power (Context.initial {}) ⟨25, -1⟩ (.int (-4)) =
        two.power (Context.initial {}) ⟨2500, -3⟩ (.int (-4)) := by
  have hequal : (⟨25, -1⟩ : Decimal).equal ⟨2500, -3⟩ = true := by decide
  exact ⟨hequal, power_congr_exponent (Context.initial {}) two hequal (.int (-4))⟩

/-! ## Halving as a recursion -/

/-- The integer part of a number that is not negative is its floor. -/
theorem coefficient_integer_of_nonneg (ha : 0 ≤ a.toRat) :
    a.integer.coefficient = ⌊a.toRat⌋ := by
  rw [coefficient_integer, Rounding.nearby_of_nonneg _ ha, Rounding.offset, add_zero]

section Recursion

variable {half : Decimal} (hhalf : half.toRat = e.toRat / 2)

include hhalf

/-- The half of a number that is no integer is none either. -/
theorem not_isInteger_half (hint : ¬ e.isInteger = true) : ¬ half.isInteger = true := by
  intro h
  obtain ⟨i, hi⟩ := (isInteger_iff half).mp h
  refine hint ((isInteger_iff e).mpr ⟨2 * i, ?_⟩)
  rw [Int.cast_mul, ← hi, hhalf, Int.cast_ofNat]
  ring

/-- The integer part of the half is half of the integer part. -/
theorem coefficient_integer_half (he : 0 ≤ e.toRat) :
    half.integer.coefficient = e.integer.coefficient / 2 := by
  have htwo : e.toRat / 2 = e.toRat / (2 : ℕ) := by norm_num
  rw [coefficient_integer_of_nonneg he, coefficient_integer_of_nonneg (by linarith), hhalf, htwo,
    Int.floor_div_natCast]
  rfl

/-- The halvings that are counted for an exponent are one more than those for its half. -/
theorem fractionalPower_half (he : 1 ≤ e.toRat) (hint : ¬ e.isInteger = true) (base : Decimal)
    (precision : Value) :
    fractionalPower ctx base precision (Nat.log2 e.integer.coefficient.natAbs) half =
      base.power ctx half precision := by
  have hnonneg : 0 ≤ e.toRat := by linarith
  have hfloor := coefficient_integer_of_nonneg hnonneg
  have hpos : 0 < half.toRat := by linarith
  have hone : 1 ≤ e.integer.coefficient := by
    rw [hfloor]
    exact Int.le_floor.mpr (by exact_mod_cast he)
  have hhalves : half.integer.coefficient.natAbs = e.integer.coefficient.natAbs / 2 := by
    have hwhole := coefficient_integer_half hhalf hnonneg
    omega
  rw [power_of_pos hpos, positivePower, positivePowerWith]
  simp only [not_isInteger_half hhalf hint, hhalves]
  by_cases htwo : 2 ≤ e.integer.coefficient.natAbs
  · rw [Nat.log2_def e.integer.coefficient.natAbs, if_pos htwo]
    rfl
  · -- the half is below one: no halving is left, and none is needed
    have hcoefficient : e.integer.coefficient = 1 := by omega
    have hbelow : half.less one = true := by
      have hlt := Int.lt_floor_add_one e.toRat
      rw [← hfloor, hcoefficient] at hlt
      rw [less_iff, toRat_one, hhalf]
      norm_num at hlt ⊢
      linarith
    rw [hcoefficient]
    change fractionalPower ctx base precision 0 half = fractionalPower ctx base precision 1 half
    rw [fractionalPower, fractionalPower, fractionalPowerWith, fractionalPowerWith]
    simp only [hbelow, if_true]

end Recursion

/-- **A power with an exponent below one** is what the search finds. -/
theorem power_of_lt_one (hpos : 0 < e.toRat) (hone : e.toRat < 1) (base : Decimal)
    (precision : Value) :
    base.power ctx e precision = (do
      let working ← ctx.workingPrecision precision
      powerBelowOne ctx base e working) := by
  have hint : ¬ e.isInteger = true := by
    intro h
    obtain ⟨i, hi⟩ := (isInteger_iff e).mp h
    rw [hi] at hpos hone
    have hlower : 0 < i := by exact_mod_cast hpos
    have hupper : i < 1 := by exact_mod_cast hone
    omega
  have hless : e.less one = true := by
    rw [less_iff, toRat_one]
    exact hone
  rw [power_of_pos hpos, positivePower, positivePowerWith, if_neg hint, fractionalPowerWith]
  simp only [if_pos hless]
  rfl

/-- **A power with an exponent above one** is the square of the power with half of the
exponent, where all questions are asked anew: the half is positive again and no integer. -/
theorem power_of_one_le (he : 1 ≤ e.toRat) (hint : ¬ e.isInteger = true) (base : Decimal)
    (precision : Value) :
    base.power ctx e precision = (do
      let working ← ctx.workingPrecision precision
      let half ← e.divide ctx two (.int (e.exponent - 1)) .none
      let root ← base.power ctx half precision
      return (root.mul root).truncate working) := by
  have hnotless : ¬ e.less one = true := by
    rw [less_iff, toRat_one]
    exact not_lt.mpr he
  rw [power_of_pos (by linarith), positivePower, positivePowerWith]
  simp only [hint]
  change fractionalPowerWith (squareRoot ctx) ctx base precision _ e = _
  rw [fractionalPowerWith]
  refine Traced.bind_congr fun working _ => ?_
  rw [if_neg hnotless]
  refine Traced.bind_congr fun half hdivide => ?_
  obtain ⟨-, mode, -, rfl⟩ := eq_quotient_of_divide hdivide
  rw [← fractionalPower_half (toRat_quotient_two e le_rfl mode) he hint]
  rfl

end DecimalCalc.Decimal
