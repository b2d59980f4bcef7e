import DecimalCalc.Decimal.Division
import DecimalCalc.Decimal.Literal
/-!
# Conversions

Decimal numbers from values of other kinds, and back to fractions and floats.
A fraction is exact where its reduced denominator has no prime factor but two
and five, and is divided at a precision otherwise.  The float of a number is the
nearest one.
-/

namespace DecimalCalc

open Numeral Text

/-- A number without its factors `p`, and how many there were. -/
def removeFactor (p n : Nat) : Nat × Nat :=
  if 2 ≤ p ∧ 0 < n ∧ n % p = 0 then
    let (rest, count) := removeFactor p (n / p)
    (rest, count + 1)
  else (n, 0)
termination_by n
decreasing_by exact Nat.div_lt_self (by omega) (by omega)

namespace Binary64

/-- A float as sign, odd significand and power of two; zero has the significand zero. -/
def parts : Binary64 → Except Failure (Int × Nat × Int)
  | finite negative m q =>
    if m = 0 then .ok (1, 0, 0)
    else
      let (odd, twos) := removeFactor 2 m
      .ok (if negative then -1 else 1, odd, q + twos)
  | infinite _ => .error (.fault .infiniteFloat)
  | nan => .error (.fault .undefinedFloat)

end Binary64

namespace Decimal

/-- The reduced fraction that a number is. -/
def ratio (a : Decimal) : Int × Nat :=
  if 0 ≤ a.exponent then (a.scaledTo 0, 1)
  else
    let den := tenTo (-a.exponent).toNat
    let g := Nat.gcd a.coefficient.natAbs den
    (a.coefficient / g, den / g)

/-- The nearest float to a number; beyond the finite ones an infinity, as long as the
coefficient itself has a nearest finite float. -/
def toBinary64 (a : Decimal) : Except Failure Binary64 :=
  let x :=
    if 0 ≤ a.exponent then Binary64.ofRatio (a.scaledTo 0) 1
    else Binary64.ofRatio a.coefficient (tenTo (-a.exponent).toNat)
  if x.isFinite then .ok x
  else if (Binary64.ofRatio a.coefficient 1).isFinite then .ok (.infinite a.isNegative)
  else .error (.fault .integerBeyondFloat)

/-- The number of a fraction with a positive denominator: exact if a power of ten is a
multiple of the denominator, else divided at a precision. -/
def ofFraction (ctx : Context) (num : Int) (den : Nat) (precision : Value) :
    Except Failure Decimal :=
  let (rest, twos) := removeFactor 2 den
  let (rest, fives) := removeFactor 5 rest
  if rest = 1 then
    let places := max twos fives
    .ok (ofParts (num * tenTo places / den) (-(places : Int)))
  else (ofInt num).divide ctx (ofInt den) precision .none

/-- The number of a finite float.  A negative power of two is divided at a precision. -/
def ofBinary64 (ctx : Context) (x : Binary64) (precision : Value) : Except Failure Decimal := do
  if !x.isFinite then throw (.error (.notFinite x.text))
  let (sign, m, q) ← x.parts
  if m = 0 then return zero
  else if q < 0 then
    let d ← (ofInt (sign * m)).divide ctx (ofInt (twoTo (-q).toNat)) precision .none
    return d.normalize
  else return ofInt (sign * m * twoTo q.toNat)

/-- The number of a symbolic float: exactly its value. -/
def ofSymbolicFloat (ctx : Context) (x : Binary64) (precision : Value) :
    Except Failure Decimal := do
  if !x.isFinite then throw (.error (.notRational (← (Value.symbolicFloat x).shown)))
  let (sign, m, q) ← x.parts
  ofFraction ctx (sign * m * twoTo q.toNat) (twoTo (-q).toNat) precision

/-- The radix that a value is: an integer from two to thirty-six, or a number that is
one. -/
def resolveRadix (v : Value) : Except Failure Nat := do
  let v ← match v with
    | .number d =>
      let d := d.normalize
      if d.exponent ≠ 0 then throw (.error (.radixNotInteger d.plainText))
      pure (Value.int d.coefficient)
    | v => pure v
  match v with
  | .int radix =>
    if 2 ≤ radix ∧ radix ≤ 36 then return radix.toNat
    throw (.error (.radixOutOfRange (← shownInt radix)))
  | v => throw (.error (.radixOutOfRange (← v.shown)))

/-- The number of a text: a literal, or an integer in a radix if one is given. -/
def ofText (s : String) (radix : Value) : Except Failure Decimal :=
  match radix with
  | .none =>
    match ofLiteral? s.toList with
    | some d => .ok d
    | none => .error (.error (.invalidLiteral (quoted s)))
  | radix => do
    let r ← resolveRadix radix
    match readLongInteger? r s.toList with
    | some i => return ofInt i
    | none => throw (.error (.invalidRadixLiteral r (quoted s)))

/-- The number of an integer and a power of ten. -/
def ofInteger (i : Int) (exponent : Value) : Except Failure Decimal :=
  match exponent with
  | .none => .ok (ofParts i 0)
  | .int e => .ok (ofParts i e)
  | v => do throw (.error (.exponentNotInteger (← v.shown)))

/-- The number that a value is.  The modifier is a power of ten for an integer, a radix
for a text, and a precision for a number that may have no finite expansion. -/
def ofValue (ctx : Context) (v modifier : Value) : Except Failure Decimal :=
  match v with
  | .number d => .ok d
  | .bool _ => .error (.error .truthValue)
  | .int i => ofInteger i modifier
  | .text s => ofText s modifier
  | .float x => ofBinary64 ctx x modifier
  | .decimal negative digits exponent =>
    .ok (ofParts (if negative then -(digits : Int) else digits) exponent)
  | .decimalSpecial _ => do throw (.error (.notFinite (← v.shown)))
  | .fraction num den | .symbolicRatio num den => ofFraction ctx num den modifier
  | .symbolicFloat x => ofSymbolicFloat ctx x modifier
  | .symbolic name => .error (.error (.notRational name))
  | .none | .list _ | .emptyTable => .error (.error (.unsupportedType v.typeName))

/-- The text of a number: plain, or its integer part in a radix if one is given.  Zero is
the same in every radix. -/
def text (a : Decimal) (radix : Value) : Except Failure String :=
  match radix with
  | .none => .ok a.plainText
  | radix =>
    if a.isZero then .ok "0"
    else do
      let r ← resolveRadix radix
      return a.radixText r

/-- The scientific text of a number on its own: its power of ten is written as an integer
in a message is, so it has the limit of those.  (In an answer the plain text stands before
it, which has more characters than that.) -/
def scientific (a : Decimal) : Except Failure String :=
  if a.isZero then .ok a.scientificText
  else (shownInt a.normalize.order).map fun _ => a.scientificText

end Decimal

end DecimalCalc
