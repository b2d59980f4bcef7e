import DecimalCalc.Numeral.Digits
/-!
# Binary floating point numbers of 64 bits

A number of the binary64 format is a sign, a significand below `2 ^ 53` and a
power of two, an infinity, or not a number.  Every number of the format has one
*canonical* form: the significand is at least `2 ^ 52`, or the exponent is the
least one.  Rounding (`Binary64.nearest`) and decoding of bit patterns give
canonical forms only.
-/

namespace DecimalCalc

/-- A number of the binary64 format: the finite ones are
`± significand * 2 ^ exponent`. -/
inductive Binary64 where
  | finite (negative : Bool) (significand : Nat) (exponent : Int)
  | infinite (negative : Bool)
  | nan
deriving DecidableEq, Repr

namespace Binary64

open Numeral

/-- The exponent of the subnormal numbers and of zero. -/
def leastExponent : Int := -1074

/-- The exponent of the largest finite numbers. -/
def greatestExponent : Int := 971

/-- Zero of a sign. -/
def zero (negative : Bool) : Binary64 := finite negative 0 leastExponent

/-- The one form of each number that decoding and rounding give. -/
def IsCanonical : Binary64 → Prop
  | finite _ m q =>
    m < twoTo 53 ∧ leastExponent ≤ q ∧ q ≤ greatestExponent ∧ (twoTo 52 ≤ m ∨ q = leastExponent)
  | _ => True

/-- The number of a bit pattern: one bit of sign, eleven of exponent, fifty-two of
significand. -/
def ofBits (bits : Nat) : Binary64 :=
  let negative := bits / twoTo 63 % 2 == 1
  let e : Nat := bits / twoTo 52 % twoTo 11
  let f := bits % twoTo 52
  if e = 2047 then
    if f = 0 then infinite negative else nan
  else if e = 0 then finite negative f leastExponent
  else finite negative (f + twoTo 52) ((e : Int) - 1075)

/-- The bit pattern of a canonical number; the quiet pattern for `nan`. -/
def toBits : Binary64 → Nat
  | finite negative m q =>
    let sign := if negative then twoTo 63 else 0
    if m < twoTo 52 then sign + m else sign + (q + 1074).toNat * twoTo 52 + m
  | infinite negative => (if negative then twoTo 63 else 0) + 2047 * twoTo 52
  | nan => 2047 * twoTo 52 + twoTo 51

/-- The quotient of two naturals rounded to the nearest natural, a half to the even one. -/
def roundedQuotient (num den : Nat) : Nat :=
  let q := num / den
  let r := num % den
  if 2 * r < den ∨ (2 * r = den ∧ q % 2 = 0) then q else q + 1

/-- The greatest `k` with `2 ^ k ≤ num / den`, for positive numbers. -/
def floorLog2 (num den : Nat) : Int :=
  let k : Int := (Nat.log2 num : Int) - (Nat.log2 den : Int)
  if den * twoTo k.toNat ≤ num * twoTo (-k).toNat then k else k - 1

/-- The number nearest to `± num / den`, a tie going to the even significand.  What is
half a step or more beyond the greatest finite number is infinite. -/
def nearest (negative : Bool) (num den : Nat) : Binary64 :=
  if num = 0 then zero negative
  else
    let q := max (floorLog2 num den - 52) leastExponent
    let m := roundedQuotient (num * twoTo (-q).toNat) (den * twoTo q.toNat)
    let (m, q) := if m = twoTo 53 then (twoTo 52, q + 1) else (m, q)
    if greatestExponent < q then infinite negative else finite negative m q

/-- The number nearest to a quotient of integers with a positive divisor. -/
def ofRatio (num : Int) (den : Nat) : Binary64 :=
  nearest (num < 0) num.natAbs den

/-- Whether a number is neither infinite nor undefined. -/
def isFinite : Binary64 → Bool
  | finite .. => true
  | _ => false

end Binary64

end DecimalCalc
