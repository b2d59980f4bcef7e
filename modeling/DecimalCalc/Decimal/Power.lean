import DecimalCalc.Decimal.Division
/-!
# Powers

An integral power is exact, within limits on its exponent and its size.  A
fractional power is brought to an exponent below one by halving, and undone by
squaring.  Below one the exponent is searched for by bisection: the successive
square roots of the base are its powers to `1/2`, `1/4`, `1/8`, and so on, and
each step multiplies by the next root, or divides by it, as the exponent lies
above the middle of the interval or below.

All of this is written for any function that takes roots, of a number and at a
precision; a power takes the square root (`squareRoot`).
-/

namespace DecimalCalc.Decimal

open Numeral

/-- A positive integral power. -/
def integralPower (s : Settings) (base : Decimal) (power : Int) : Except Failure Decimal := do
  if s.maxIntegerPower < power then
    throw (.error (.exponentTooLarge (← shownInt power) s.maxIntegerPower))
  if s.maxResultDigits < (base.bitLength : Int) * power * 31 / 100 then
    throw (.error (.resultTooLarge base.plainText (intText power) s.maxResultDigits))
  return ofParts (base.coefficient.pow power.toNat) (base.exponent * power)

/-- A search for an exponent between zero and one: the interval it is known to lie in,
the middle of the interval, the last root of the base, and the power of the base to the
middle. -/
structure Bisection where
  low : Decimal
  high : Decimal
  middle : Decimal
  root : Decimal
  power : Decimal
deriving DecidableEq, Repr

/-- The search at its start, with the square root of the base. -/
def Bisection.start (root : Decimal) : Bisection := ⟨zero, one, half, root, root⟩

/-- Steps enough for any exponent: each halves the interval, and four halvings take off
more than a digit. -/
def Bisection.stepLimit (s : Settings) : Nat := 4 * (-s.epsilonExponent).toNat

/-! ## Powers by any root -/

section Root

variable (root : Decimal → Int → Traced Decimal)

/-- One halving of the interval. -/
def Bisection.stepWith (ctx : Context) (exponent : Decimal) (working : Int) (b : Bisection) :
    Traced Bisection := do
  let next ← root b.root working
  let (low, high, power) ←
    if b.middle.greater exponent then do
      let inverse ← one.divide ctx next (.int working) .none
      pure (b.low, b.middle, b.power.mul inverse)
    else
      pure (b.middle, b.high, b.power.mul next)
  let middle ← (low.add high).divide ctx two (.int (min low.exponent high.exponent - 1)) .none
  return ⟨low, high, middle, next, power.truncate working⟩

/-- The search with so many steps left and so many done, until the middle of the interval
is within epsilon of the exponent. -/
def Bisection.runWith (ctx : Context) (exponent : Decimal) (working : Int) :
    (left done : Nat) → Bisection → Traced Decimal
  | left + 1, done, b => do
    if b.middle.farApart ctx.settings exponent then
      let next ← b.stepWith root ctx exponent working
      runWith ctx exponent working left (done + 1) next
    else
      Traced.report (.bisectionFinished done)
      return b.power
  | 0, done, b => do
    Traced.report (.bisectionFinished done)
    return b.power

/-- A power with an exponent between zero and one. -/
def powerBelowOneWith (ctx : Context) (base exponent : Decimal) (working : Int) :
    Traced Decimal := do
  if base.isZero then return zero
  else
    let first ← root base working
    (Bisection.start first).runWith root ctx exponent working
      (Bisection.stepLimit ctx.settings) 0

/-- A power with a positive exponent that is not integral and below two to the number of
halvings.  A halving is a call inside the one before it; that a machine limits the depth of
calls is left out. -/
def fractionalPowerWith (ctx : Context) (base : Decimal) (precision : Value) :
    (halvings : Nat) → Decimal → Traced Decimal
  | 0, exponent => do
    powerBelowOneWith root ctx base exponent (← ctx.workingPrecision precision)
  | halvings + 1, exponent => do
    let working ← ctx.workingPrecision precision
    if exponent.less one then powerBelowOneWith root ctx base exponent working
    else
      let halved ← exponent.divide ctx two (.int (exponent.exponent - 1)) .none
      let half ← fractionalPowerWith ctx base precision halvings halved
      return (half.mul half).truncate working

/-- A power with a positive exponent. -/
def positivePowerWith (ctx : Context) (base exponent : Decimal) (precision : Value) :
    Traced Decimal :=
  let whole := exponent.integer.coefficient
  if exponent.isInteger then Traced.ofExcept (integralPower ctx.settings base whole)
  else fractionalPowerWith root ctx base precision (Nat.log2 whole.natAbs + 1) exponent

/-- A power with any exponent: the zeroth is one, also of zero, and a negative one is the
reciprocal of a positive one. -/
def powerWith (ctx : Context) (base exponent : Decimal) (precision : Value) :
    Traced Decimal := do
  if exponent.isZero then return one
  else if exponent.isNegative then
    let inverse ← positivePowerWith root ctx base exponent.neg precision
    one.divide ctx inverse precision .none
  else positivePowerWith root ctx base exponent precision

end Root

/-! ## Powers by the square root -/

section SquareRoot

variable (ctx : Context)

/-- The square root, as a function that takes roots. -/
def squareRoot (n : Decimal) (working : Int) : Traced Decimal := n.sqrt ctx (.int working)

def Bisection.step (exponent : Decimal) (working : Int) (b : Bisection) : Traced Bisection :=
  b.stepWith (squareRoot ctx) ctx exponent working

def Bisection.run (exponent : Decimal) (working : Int) (left done : Nat) (b : Bisection) :
    Traced Decimal :=
  b.runWith (squareRoot ctx) ctx exponent working left done

section Run

variable {ctx} {exponent : Decimal} {b : Bisection}

/-- The search goes on while the middle is far from the exponent. -/
theorem Bisection.run_of_farApart (h : b.middle.farApart ctx.settings exponent = true)
    (working : Int) (left done : Nat) :
    b.run ctx exponent working (left + 1) done =
      (b.step ctx exponent working >>= run ctx exponent working left (done + 1)) := by
  rw [run, runWith, if_pos h]
  rfl

theorem Bisection.run_of_near (h : ¬ b.middle.farApart ctx.settings exponent = true)
    (working : Int) (left done : Nat) :
    b.run ctx exponent working left done = (do
      Traced.report (.bisectionFinished done)
      return b.power) := by
  cases left with
  | zero => rfl
  | succ left => rw [run, runWith, if_neg h]

end Run

def powerBelowOne (base exponent : Decimal) (working : Int) : Traced Decimal :=
  powerBelowOneWith (squareRoot ctx) ctx base exponent working

/-- A power with a positive exponent that is not integral, by at most so many halvings, however
deep their calls are (see `fractionalPowerWith`). -/
def fractionalPower (base : Decimal) (precision : Value) (halvings : Nat)
    (exponent : Decimal) : Traced Decimal :=
  fractionalPowerWith (squareRoot ctx) ctx base precision halvings exponent

def positivePower (base exponent : Decimal) (precision : Value) : Traced Decimal :=
  positivePowerWith (squareRoot ctx) ctx base exponent precision

/-- The power of a number; the zeroth is one, also of zero. -/
def power (base exponent : Decimal) (precision : Value) : Traced Decimal :=
  powerWith (squareRoot ctx) ctx base exponent precision

end SquareRoot

end DecimalCalc.Decimal
