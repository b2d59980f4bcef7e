import DecimalCalc.Numeral.Digits
/-!
# Decimal numbers

A decimal number is an integer coefficient of any size times a power of ten.
Nothing is reduced on the way: `120 * 10 ^ 0` and `12 * 10 ^ 1` are two forms of
one number, and a sum or a product keeps the exponent that its operands lead to.
Only the coefficient zero is special: every operation that arrives at it gives
the one form `Decimal.zero`.

Two numbers compare as the sign of their difference says, so the forms of the
operands do not matter.  Every number has one normal form: its exponent is at
most zero, and it is zero or the coefficient does not end in the digit zero.  A
number is cut toward zero at a power of ten, or split at the point into an
integer and a fraction of the same sign.
-/

namespace DecimalCalc

/-! ## Forms and arithmetic -/

/-- The number `coefficient * 10 ^ exponent`. -/
structure Decimal where
  coefficient : Int
  exponent : Int
deriving DecidableEq, Repr, Inhabited

namespace Decimal

open Numeral

/-- The form of zero that operations give. -/
def zero : Decimal := ⟨0, 0⟩

/-- A number from its parts; every coefficient zero gives `zero`. -/
def ofParts (coefficient exponent : Int) : Decimal :=
  if coefficient = 0 then zero else ⟨coefficient, exponent⟩

/-- The form of an integer with exponent zero. -/
def ofInt (i : Int) : Decimal := ⟨i, 0⟩

def one : Decimal := ofInt 1

def two : Decimal := ofInt 2

/-- One half, in its reduced form. -/
def half : Decimal := ⟨5, -1⟩

/-- Every form with coefficient zero is zero. -/
def isZero (a : Decimal) : Bool := a.coefficient == 0

def isNegative (a : Decimal) : Bool := a.coefficient < 0

/-- Strictly greater than zero. -/
def isPositive (a : Decimal) : Bool := 0 < a.coefficient

/-- Whether no digit other than zero stands right of the point. -/
def isInteger (a : Decimal) : Bool :=
  0 ≤ a.exponent || a.coefficient % tenTo (-a.exponent).toNat == 0

/-- The coefficient of a number at an exponent not above its own. -/
def scaledTo (a : Decimal) (exponent : Int) : Int :=
  a.coefficient * tenTo (a.exponent - exponent).toNat

/-- An integer operation on two numbers brought to the smaller of their exponents. -/
def aligned (op : Int → Int → Int) (a b : Decimal) : Decimal :=
  let exponent := min a.exponent b.exponent
  ofParts (op (a.scaledTo exponent) (b.scaledTo exponent)) exponent

def add (a b : Decimal) : Decimal := aligned (· + ·) a b

def sub (a b : Decimal) : Decimal := aligned (· - ·) a b

def mul (a b : Decimal) : Decimal :=
  ofParts (a.coefficient * b.coefficient) (a.exponent + b.exponent)

def neg (a : Decimal) : Decimal := ofParts (-a.coefficient) a.exponent

/-- The absolute value; a number that is not negative keeps its form. -/
def abs (a : Decimal) : Decimal := if a.isNegative then a.neg else a

/-! ## Equality and order -/

/-- Equality of the numbers, whatever their forms. -/
def equal (a b : Decimal) : Bool := (a.sub b).isZero

def less (a b : Decimal) : Bool := (a.sub b).isNegative

def greater (a b : Decimal) : Bool := b.less a

def atMost (a b : Decimal) : Bool := !a.greater b

def atLeast (a b : Decimal) : Bool := !a.less b

/-- The order of two numbers by the sign of their difference. -/
def compare (a b : Decimal) : Ordering :=
  let d := a.sub b
  if d.isNegative then .lt else if d.isPositive then .gt else .eq

/-- Numbers in ascending order; equal ones keep the order they came in. -/
def sort (ds : List Decimal) : List Decimal :=
  ds.mergeSort fun a b => !b.less a

/-! ## The normal form -/

/-- Takes `width + 1` zeros at a time off the end of a coefficient, as long as the
exponent stays at most zero. -/
def shedZeros (width : Nat) (a : Decimal) : Decimal :=
  if a.exponent ≤ -(width + 1) ∧ a.coefficient % tenTo (width + 1) = 0 then
    shedZeros width ⟨a.coefficient / tenTo (width + 1), a.exponent + (width + 1)⟩
  else a
termination_by (-a.exponent).toNat
decreasing_by omega

/-- The normal form: a positive exponent is multiplied out, and zeros at the end of the
coefficient raise a negative one, seven at a time as long as there are so many. -/
def normalize (a : Decimal) : Decimal :=
  if a.coefficient = 0 then zero
  else if 0 < a.exponent then ⟨a.scaledTo 0, 0⟩
  else (a.shedZeros 6).shedZeros 0

/-- The different numbers among some forms, in the order of their first forms. -/
def distinct (ds : List Decimal) : List Decimal :=
  (ds.map normalize).eraseDups

/-! ## Cutting -/

/-- The number without its digits right of the point, cut toward zero. -/
def integer (a : Decimal) : Decimal :=
  if a.exponent = 0 then a
  else if 0 < a.exponent then ofParts (a.scaledTo 0) 0
  else ofParts (a.coefficient.tdiv (tenTo (-a.exponent).toNat)) 0

/-- What `integer` cuts off. -/
def fraction (a : Decimal) : Decimal := a.sub a.integer

/-- The number cut toward zero to a multiple of `10 ^ place`; one without digits below
that place keeps its form. -/
def truncate (a : Decimal) (place : Int) : Decimal :=
  if place ≤ a.exponent then a
  else ofParts (a.coefficient.tdiv (tenTo (place - a.exponent).toNat)) place

/-- The same as `integer`: cut toward zero, for negative numbers too. -/
def floor (a : Decimal) : Decimal := a.integer

/-- One more than `integer` unless the number is integral, so the ceiling of `-1.5` is
zero. -/
def ceil (a : Decimal) : Decimal :=
  if a.isInteger then a.integer else a.integer.add one

end Decimal

end DecimalCalc
