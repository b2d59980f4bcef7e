import DecimalCalc.Proofs.Expression.Recursion
import DecimalCalc.Session.Basic
/-!
# Under a given precision

A computation that is given a precision does not look at the one in force.  The
division reads the precision it is given, and every other operation hands its own
one down: root, power, operators and trees, up to the value of a question
(`Question.compute_withPrecision`).
-/

namespace DecimalCalc

/-- The same settings with another precision in force. -/
def Context.withPrecision (ctx : Context) (p : Int) : Context := { ctx with precision := p }

@[simp] theorem Context.withPrecision_settings (ctx : Context) (p : Int) :
    (ctx.withPrecision p).settings = ctx.settings := rfl

variable (ctx : Context) (q : Int)

namespace Decimal

@[simp] theorem divide_withPrecision (a b : Decimal) (p : Int) (rounding : Value) :
    a.divide (ctx.withPrecision q) b (.int p) rounding = a.divide ctx b (.int p) rounding := rfl

/-! ## Roots -/

@[simp] theorem workingPrecision_withPrecision (p : Int) :
    (ctx.withPrecision q).workingPrecision (.int p) = ctx.workingPrecision (.int p) := rfl

@[simp] theorem refineRoot_withPrecision (n : Decimal) (p : Int) (left done : Nat)
    (x : Decimal) :
    n.refineRoot (ctx.withPrecision q) (.int p) left done x =
      n.refineRoot ctx (.int p) left done x := by
  induction left generalizing done x with
  | zero => rfl
  | succ left ih =>
      simp only [refineRoot, divide_withPrecision, Context.withPrecision_settings, ih]

@[simp] theorem sqrt_withPrecision (n : Decimal) (p : Int) :
    n.sqrt (ctx.withPrecision q) (.int p) = n.sqrt ctx (.int p) := by
  simp only [sqrt, workingPrecision_withPrecision, Context.withPrecision_settings,
    refineRoot_withPrecision]

/-! ## Powers -/

@[simp] theorem squareRoot_withPrecision : squareRoot (ctx.withPrecision q) = squareRoot ctx := by
  funext n working
  exact sqrt_withPrecision ctx q n working

section Root

variable (root : Decimal → Int → Traced Decimal)

@[simp] theorem stepWith_withPrecision (e : Decimal) (working : Int) (b : Bisection) :
    b.stepWith root (ctx.withPrecision q) e working = b.stepWith root ctx e working := by
  simp only [Bisection.stepWith, divide_withPrecision]

@[simp] theorem runWith_withPrecision (e : Decimal) (working : Int) (left done : Nat)
    (b : Bisection) :
    b.runWith root (ctx.withPrecision q) e working left done =
      b.runWith root ctx e working left done := by
  induction left generalizing done b with
  | zero => rfl
  | succ left ih =>
      simp only [Bisection.runWith, stepWith_withPrecision, Context.withPrecision_settings, ih]

@[simp] theorem powerBelowOneWith_withPrecision (a e : Decimal) (working : Int) :
    powerBelowOneWith root (ctx.withPrecision q) a e working =
      powerBelowOneWith root ctx a e working := by
  simp only [powerBelowOneWith, runWith_withPrecision, Context.withPrecision_settings]

@[simp] theorem fractionalPowerWith_withPrecision (a : Decimal) (p : Int) (halvings : Nat)
    (e : Decimal) :
    fractionalPowerWith root (ctx.withPrecision q) a (.int p) halvings e =
      fractionalPowerWith root ctx a (.int p) halvings e := by
  induction halvings generalizing e with
  | zero =>
      simp only [fractionalPowerWith, workingPrecision_withPrecision,
        powerBelowOneWith_withPrecision]
  | succ halvings ih =>
      simp only [fractionalPowerWith, workingPrecision_withPrecision,
        powerBelowOneWith_withPrecision, divide_withPrecision, ih]

@[simp] theorem positivePowerWith_withPrecision (a e : Decimal) (p : Int) :
    positivePowerWith root (ctx.withPrecision q) a e (.int p) =
      positivePowerWith root ctx a e (.int p) := by
  simp only [positivePowerWith, fractionalPowerWith_withPrecision,
    Context.withPrecision_settings]

end Root

@[simp] theorem power_withPrecision (a e : Decimal) (p : Int) :
    a.power (ctx.withPrecision q) e (.int p) = a.power ctx e (.int p) := by
  simp only [power, powerWith, squareRoot_withPrecision, positivePowerWith_withPrecision,
    divide_withPrecision]

end Decimal

/-! ## Expressions -/

@[simp] theorem Operator.apply_withPrecision (op : Operator) (v w : Datum) (p : Int)
    (rounding : Value) :
    op.apply (ctx.withPrecision q) v w (.int p) rounding =
      op.apply ctx v w (.int p) rounding := by
  simp only [apply, Decimal.divide_withPrecision, Decimal.power_withPrecision]

theorem Tree.evaluate_withPrecision (t : Tree) (p : Int) (rounding : Value) :
    t.evaluate (ctx.withPrecision q) (.int p) rounding =
      t.evaluate ctx (.int p) rounding := by
  rw [evaluate_eq_value, evaluate_eq_value]
  induction t with
  | number d => rfl
  | negate t ih => simp only [value, ih]
  | binary op l r ihLeft ihRight =>
      simp only [value, ihLeft, ihRight, Operator.apply_withPrecision]

theorem compute_withPrecision (source : Value) (p : Int) (rounding : Value) :
    compute (ctx.withPrecision q) source (.int p) rounding =
      compute ctx source (.int p) rounding := by
  have hprecision : (ctx.withPrecision q).resolvePrecision (.int p) =
      ctx.resolvePrecision (.int p) := rfl
  have hrounding : (ctx.withPrecision q).resolveRounding rounding =
      ctx.resolveRounding rounding := rfl
  simp only [compute, hprecision, hrounding, Context.withPrecision_settings,
    Tree.evaluate_withPrecision]

/-- **A question carries everything that its value depends on** besides the settings. -/
theorem Question.compute_withPrecision (question : Question) :
    question.compute (ctx.withPrecision q) = question.compute ctx :=
  DecimalCalc.compute_withPrecision ctx q _ _ _

end DecimalCalc
