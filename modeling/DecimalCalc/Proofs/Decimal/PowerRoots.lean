import DecimalCalc.Proofs.Decimal.PowerFailures
/-!
# The roots that a power takes

Of which numbers a power takes square roots shows if another function takes the roots:
`powerWith` is the power with any function as the root, and `power` is the case of the square
root.

It is `power` as soon as the function is the square root on a set of numbers which square roots
do not leave and which holds the base: `RootsWithin.powerWith_eq`.  What the function makes of
other numbers is never asked for.  The positive numbers are such a set (`sqrt_pos`).
-/

namespace DecimalCalc.Decimal

variable {ctx : Context} {mode : Rounding} {working : Int} {base : Decimal}

/-- A function is the square root on a set of numbers that square roots do not leave. -/
structure RootsWithin (ctx : Context) (root : Decimal → Int → Traced Decimal)
    (D : Decimal → Prop) : Prop where
  agrees : ∀ n working, D n → root n working = n.sqrt ctx (.int working)
  closed : ∀ n working r, D n → (n.sqrt ctx (.int working)).outcome = .ok r → D r

section Agreement

variable {root : Decimal → Int → Traced Decimal} {D : Decimal → Prop}

/-- The root that a step takes is in the set, and so is the number of which the next one is
taken; by induction on the steps left. -/
theorem RootsWithin.runWith_eq (h : RootsWithin ctx root D) (exponent : Decimal) (working : Int)
    (left done : Nat) {b : Bisection} (hb : D b.root) :
    b.runWith root ctx exponent working left done =
      b.run ctx exponent working left done := by
  induction left generalizing done b with
  | zero => rfl
  | succ left ih =>
      have hstep : b.stepWith root ctx exponent working = b.step ctx exponent working := by
        rw [Bisection.stepWith, h.agrees b.root working hb]
        rfl
      rw [Bisection.runWith, hstep, Bisection.run, Bisection.runWith]
      split
      · refine Traced.bind_congr fun next hnext => ?_
        obtain ⟨_, hsqrt, -⟩ := Bisection.step_eq_ok hnext
        exact ih (done + 1) (h.closed b.root working next.root hb hsqrt)
      · rfl

theorem RootsWithin.powerBelowOneWith_eq (h : RootsWithin ctx root D) (hbase : D base)
    (exponent : Decimal) (working : Int) :
    powerBelowOneWith root ctx base exponent working =
      powerBelowOne ctx base exponent working := by
  rw [powerBelowOneWith, h.agrees base working hbase, powerBelowOne, powerBelowOneWith]
  split
  · rfl
  · refine Traced.bind_congr fun first hfirst => ?_
    exact h.runWith_eq exponent working _ 0 (h.closed base working first hbase hfirst)

/-- Halvings leave the base as it is; by induction on them. -/
theorem RootsWithin.fractionalPowerWith_eq (h : RootsWithin ctx root D) (hbase : D base)
    (precision : Value) (halvings : Nat) (exponent : Decimal) :
    fractionalPowerWith root ctx base precision halvings exponent =
      fractionalPower ctx base precision halvings exponent := by
  induction halvings generalizing exponent with
  | zero =>
      rw [fractionalPowerWith]
      simp only [h.powerBelowOneWith_eq hbase]
      rfl
  | succ halvings ih =>
      rw [fractionalPowerWith]
      simp only [h.powerBelowOneWith_eq hbase, ih]
      rfl

/-- **A power takes roots within a set** that holds the base and that square roots do not
leave: what is in the place of the square root elsewhere makes no difference. -/
theorem RootsWithin.powerWith_eq (h : RootsWithin ctx root D) (hbase : D base)
    (exponent : Decimal) (precision : Value) :
    powerWith root ctx base exponent precision = base.power ctx exponent precision := by
  simp only [powerWith, positivePowerWith, h.fractionalPowerWith_eq hbase]
  rfl

end Agreement

/-- Square roots do not leave the positive numbers: those that are found have been taken at a
negative precision. -/
theorem sqrt_pos (hmode : ctx.resolveRounding .none = .ok mode) {n r : Decimal}
    (hn : 0 < n.toRat) (h : (n.sqrt ctx (.int working)).outcome = .ok r) : 0 < r.toRat := by
  have hneg : working < 0 := by
    have hfound := h
    rw [outcome_sqrt_of_pos hn] at hfound
    obtain ⟨w, hw, -⟩ := bind_eq_ok_iff.mp hfound
    obtain ⟨p, hp, -⟩ := bind_eq_ok_iff.mp hw
    have hvalid : validatePrecision (.int working) = .ok p := hp
    rw [← eq_of_validatePrecision_int hvalid]
    exact validatePrecision_neg hvalid
  exact (sqrt_ends hmode hn hneg).of_ok h

end DecimalCalc.Decimal
