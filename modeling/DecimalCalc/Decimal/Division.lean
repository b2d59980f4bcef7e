import DecimalCalc.Traced
/-!
# Quotients and square roots

A quotient is computed to the precision at least: its exponent is the difference
of the operands' exponents, or the precision if that is smaller.  The digits
beyond are cut off or rounded.

The root of a positive number is approached from a power of ten near it: with
`y = n / x`, the root lies between `x` and `y`, and their mean is the next `x`.
The iteration ends when `x` and `y` differ by at most epsilon.  Its divisions
run at a precision below epsilon, so that the difference can become so small.
-/

namespace DecimalCalc

open Numeral

/-! ## Quotients -/

namespace Decimal

/-- The quotient of two numbers at the smaller of the precision and the difference of
their exponents. -/
def quotient (a b : Decimal) (precision : Int) (rounding : Rounding) : Decimal :=
  if a.isZero then zero
  else
    let exponent := min (a.exponent - b.exponent) precision
    let dividend := a.coefficient * tenTo (a.exponent - b.exponent - exponent).toNat
    let q := dividend.tdiv b.coefficient
    let r := dividend.tmod b.coefficient
    let q := match rounding with
      | .truncate => q
      | .halfAway =>
        if b.coefficient.natAbs ≤ 2 * r.natAbs then q + dividend.sign * b.coefficient.sign else q
    ofParts q exponent

/-- Division with a precision and a rounding mode that a caller may leave out. -/
def divide (ctx : Context) (a b : Decimal) (precision rounding : Value) :
    Except Failure Decimal := do
  let p ← ctx.resolvePrecision precision
  let mode ← ctx.resolveRounding rounding
  if b.isZero then throw (.error .divisionByZero)
  return a.quotient b p mode

end Decimal

/-! ## Square roots -/

/-- The difference at which iterations stop. -/
def Settings.epsilon (s : Settings) : Decimal := Decimal.ofParts 1 s.epsilonExponent

/-- The precision of the divisions in an iteration: the one asked for, or a finer one that
the settings demand. -/
def Context.workingPrecision (ctx : Context) (precision : Value) : Except Failure Int := do
  let p ← ctx.resolvePrecision precision
  return min (min p ctx.settings.rootPrecision) (ctx.settings.epsilonExponent - 1)

namespace Decimal

/-- The number of bits of a coefficient, without its sign. -/
def bitLength (a : Decimal) : Nat :=
  if a.coefficient = 0 then 0 else Nat.log2 a.coefficient.natAbs + 1

/-- Whether two numbers differ by more than epsilon. -/
def farApart (s : Settings) (a b : Decimal) : Bool :=
  ((a.sub b).abs.sub s.epsilon).isPositive

/-- A power of ten near the root of a number: a bit is about 0.30103 digits. -/
def rootEstimate (n : Decimal) : Decimal :=
  let order : Int := (n.bitLength * 30103 / 100000 : Nat) + n.exponent
  ofParts 1 (order / 2)

/-- The iteration for the root of `n` from `x` on, with so many steps left and so many
done. -/
def refineRoot (ctx : Context) (n : Decimal) (working : Value) :
    (left done : Nat) → Decimal → Traced Decimal
  | 0, _, _ => .fail (.error (.noConvergence ctx.settings.maxRootIterations))
  | left + 1, done, x => do
    let y ← n.divide ctx x working .none
    if x.farApart ctx.settings y then
      let next ← (x.add y).divide ctx two working .none
      refineRoot ctx n working left (done + 1) next
    else
      Traced.report (.rootConverged done)
      return x

/-- The square root of a number. -/
def sqrt (ctx : Context) (n : Decimal) (precision : Value) : Traced Decimal := do
  if n.isNegative then Traced.fail (.error (.negativeRoot n.plainText))
  else if n.isZero then return zero
  else
    let working ← ctx.workingPrecision precision
    n.refineRoot ctx (.int working) ctx.settings.maxRootIterations.toNat 0 n.rootEstimate

end Decimal

end DecimalCalc
