import DecimalCalc.Numeral.Integer
import DecimalCalc.Decimal.Basic
/-!
# The text of a decimal number

Plain text has neither an exponent nor a superfluous zero: equal numbers have
equal texts.  Scientific text has one digit before the point and names the power
of ten unless it is the zeroth.
-/

namespace DecimalCalc.Decimal

open Numeral

/-- Digits with a point in front of the last `places` of them, and zeros on the left as
far as the point needs a digit before it. -/
def placePoint (places : Nat) (cs : List Char) : List Char :=
  if places = 0 then cs
  else
    let cs := List.replicate (places + 1 - cs.length) '0' ++ cs
    cs.take (cs.length - places) ++ '.' :: cs.drop (cs.length - places)

/-- Characters with a minus in front where a number is negative. -/
def signed (a : Decimal) (cs : List Char) : List Char :=
  if a.isNegative then '-' :: cs else cs

/-- The plain decimal numeral of a number.  It has a digit for every power of ten between the
first digit and the point; that such a text may be more than a memory holds is left out. -/
def plainText (a : Decimal) : String :=
  if a.isZero then "0"
  else
    let a := a.normalize
    String.ofList (a.signed (placePoint (-a.exponent).toNat (natChars a.coefficient.natAbs)))

/-- The integer part of a number in a radix from two to thirty-six. -/
def radixText (a : Decimal) (radix : Nat) : String :=
  Numeral.radixText radix a.integer.coefficient

/-- The power of ten of the first digit of a number, in any form other than zero. -/
def order (a : Decimal) : Int :=
  a.exponent + (natChars a.coefficient.natAbs).length - 1

/-- A number with one digit before the point, none that is zero at the end, and the
power of ten of the first digit. -/
def scientificText (a : Decimal) : String :=
  if a.isZero then "0"
  else
    let a := a.normalize
    let cs := natChars a.coefficient.natAbs
    let kept := (cs.reverse.dropWhile (· == '0')).reverse
    let mantissa :=
      match kept with
      | d :: d' :: rest => d :: '.' :: d' :: rest
      | cs => cs
    let power := if a.order = 0 then [] else 'e' :: intChars a.order
    String.ofList (a.signed (mantissa ++ power))

end DecimalCalc.Decimal
