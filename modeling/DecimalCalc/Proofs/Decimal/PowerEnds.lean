import DecimalCalc.Decimal.Power
import DecimalCalc.Proofs.Outcome
/-!
# How roots and powers end

The iteration for a root, the search for an exponent and the halvings around it end as the
divisions and the roots in them do.  The lemmas here say so for any property of the results and
any property of the failures, and ask only that each part keeps them: so the ways through the
iteration, the search and the halvings are gone through once, whatever is to be said of them.
-/

namespace DecimalCalc.Decimal

variable {ctx : Context} {E : Failure → Prop}

/-- The iteration for a root, by induction on the steps left: it goes on with numbers that have
a property, and their quotients have one with them. -/
theorem refineRoot_ends_of {n : Decimal} {working : Value} {D R : Decimal → Prop}
    {Q : Decimal → Decimal → Prop}
    (hlimit : E (.error (.noConvergence ctx.settings.maxRootIterations)))
    (hquotient : ∀ x, D x → Ends (Q x) E (n.divide ctx x working .none))
    (hmean : ∀ x y, D x → Q x y → x.farApart ctx.settings y = true →
      Ends D E ((x.add y).divide ctx two working .none))
    (hstop : ∀ x y, D x → Q x y → ¬ x.farApart ctx.settings y = true → R x)
    (left done : Nat) {x : Decimal} (hx : D x) :
    Ends R E (n.refineRoot ctx working left done x).outcome := by
  induction left generalizing done x with
  | zero => exact hlimit
  | succ left ih =>
      simp only [refineRoot, Traced.outcome_bind, Traced.outcome_liftM]
      refine (hquotient x hx).bind fun y hy => ?_
      by_cases hfar : x.farApart ctx.settings y = true
      · rw [if_pos hfar, Traced.outcome_bind, Traced.outcome_liftM]
        exact (hmean x y hx hy hfar).bind fun z hz => ih (done + 1) hz
      · rw [if_neg hfar]
        exact hstop x y hx hy hfar

section Search

variable {exponent : Decimal} {working : Int} {R L : Decimal → Prop} {B : Bisection → Prop}

/-- One step of the search: the next root has a property and an inverse, and the half that the
step goes on with has a middle. -/
theorem Bisection.step_ends_of {b : Bisection}
    (hroot : Ends R E (b.root.sqrt ctx (.int working)).outcome)
    (hinverse : ∀ root, R root →
      Ends (fun _ => True) E (one.divide ctx root (.int working) .none))
    (hlow : L b.low) (hmiddle : L b.middle) (hhigh : L b.high)
    (hhalf : ∀ root power low high, R root → L low → L high →
      Ends (fun middle => B ⟨low, high, middle, root, power⟩) E
        ((low.add high).divide ctx two (.int (min low.exponent high.exponent - 1)) .none)) :
    Ends B E (b.step ctx exponent working).outcome := by
  simp only [step, stepWith, squareRoot, Traced.outcome_bind]
  refine hroot.bind fun root hroot => ?_
  by_cases habove : b.middle.greater exponent = true
  · simp only [if_pos habove, Traced.outcome_bind, Traced.outcome_liftM, Traced.outcome_pure]
    refine (hinverse root hroot).bind fun inverse _ => ?_
    exact (hhalf root _ b.low b.middle hroot hlow hmiddle).bind fun middle h => h
  · simp only [if_neg habove, Traced.outcome_bind, Traced.outcome_liftM, Traced.outcome_pure]
    exact (hhalf root _ b.middle b.high hroot hmiddle hhigh).bind fun middle h => h

/-- The search, by induction on the steps left. -/
theorem Bisection.run_ends_of
    (hstep : ∀ b, B b → Ends B E (b.step ctx exponent working).outcome) (left done : Nat)
    {b : Bisection} (hb : B b) :
    Ends (fun _ => True) E (b.run ctx exponent working left done).outcome := by
  induction left generalizing done b with
  | zero => exact trivial
  | succ left ih =>
      by_cases hfar : b.middle.farApart ctx.settings exponent = true
      · rw [run_of_farApart hfar, Traced.outcome_bind]
        exact (hstep b hb).bind fun next hnext => ih (done + 1) hnext
      · rw [run_of_near hfar]
        exact trivial

theorem powerBelowOne_ends_of {base : Decimal}
    (hroot : ¬ base.isZero = true → Ends R E (base.sqrt ctx (.int working)).outcome)
    (hstart : ∀ root, R root → B (Bisection.start root))
    (hstep : ∀ b, B b → Ends B E (b.step ctx exponent working).outcome) :
    Ends (fun _ => True) E (powerBelowOne ctx base exponent working).outcome := by
  by_cases hzero : base.isZero = true
  · rw [powerBelowOne, powerBelowOneWith, if_pos hzero]
    exact trivial
  · rw [powerBelowOne, powerBelowOneWith, if_neg hzero, Traced.outcome_bind]
    exact (hroot hzero).bind fun root h => Bisection.run_ends_of hstep _ 0 (hstart root h)

end Search

/-- **Halving the exponent** adds no end: it ends as the power below one does, with squares of
its results.  By induction on the halvings, which keep a property of the exponent. -/
theorem fractionalPower_ends_of {base : Decimal} {precision : Value} {P X : Decimal → Prop}
    {W : Int → Prop} (hworking : Ends W E (ctx.workingPrecision precision))
    (hbelow : ∀ e working, X e → W working →
      Ends P E (powerBelowOne ctx base e working).outcome)
    (hhalf : ∀ e, X e → Ends X E (e.divide ctx two (.int (e.exponent - 1)) .none))
    (hsquare : ∀ (r : Decimal) (working : Int), P r → P ((r.mul r).truncate working))
    (halvings : Nat) {exponent : Decimal} (hexponent : X exponent) :
    Ends P E (fractionalPower ctx base precision halvings exponent).outcome := by
  induction halvings generalizing exponent with
  | zero =>
      rw [fractionalPower, fractionalPowerWith, Traced.outcome_bind, Traced.outcome_liftM]
      exact hworking.bind fun working => hbelow exponent working hexponent
  | succ halvings ih =>
      rw [fractionalPower, fractionalPowerWith, Traced.outcome_bind, Traced.outcome_liftM]
      refine hworking.bind fun working hw => ?_
      split
      · exact hbelow exponent working hexponent hw
      · simp only [Traced.outcome_bind, Traced.outcome_liftM]
        refine (hhalf exponent hexponent).bind fun halved hhalved => ?_
        exact (ih hhalved).bind fun root hroot => hsquare root working hroot

end DecimalCalc.Decimal
