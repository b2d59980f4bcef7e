import DecimalCalc.Numeral.Digits
import DecimalCalc.Decimal.Basic
/-!
# Number literals

A literal is an optional minus, digits, optionally a point with any number of
digits after it, and optionally the letter `e` with a power of ten, which may
have a minus.  The digits may be of any script.
-/

namespace DecimalCalc

open Text Numeral

/-- The parts of a number literal; the fraction is empty where there is no point. -/
structure Literal where
  negative : Bool
  whole : List Char
  fraction : List Char
  powerNegative : Bool
  power : List Char
deriving DecidableEq, Repr

namespace Literal

/-- The number that digit characters stand for. -/
def digitsValue (cs : List Char) : Nat :=
  ofDigits 10 (cs.filterMap digitValue?)

/-- The digits after a point, if the text begins with one, and the rest. -/
def splitFraction : List Char → List Char × List Char
  | '.' :: rest => (rest.takeWhile isDigit, rest.dropWhile isDigit)
  | cs => ([], cs)

/-- A power of ten that takes up the whole text: its sign and digits, no digits for the
empty text. -/
def readPower? : List Char → Option (Bool × List Char)
  | [] => some (false, [])
  | 'e' :: '-' :: ds => if ds ≠ [] ∧ ds.all isDigit then some (true, ds) else none
  | 'e' :: ds => if ds ≠ [] ∧ ds.all isDigit then some (false, ds) else none
  | _ => none

/-- A literal without its sign. -/
def readUnsigned? (negative : Bool) (cs : List Char) : Option Literal :=
  let whole := cs.takeWhile isDigit
  let (fraction, rest) := splitFraction (cs.dropWhile isDigit)
  if whole = [] then none
  else (readPower? rest).map fun (powerNegative, power) =>
    ⟨negative, whole, fraction, powerNegative, power⟩

/-- The literal that a whole text is. -/
def read? : List Char → Option Literal
  | '-' :: rest => readUnsigned? true rest
  | cs => readUnsigned? false cs

/-- The number of a literal, not reduced: the digits before and after the point as one
coefficient. -/
def value (l : Literal) : Decimal :=
  let n : Int := digitsValue (l.whole ++ l.fraction)
  let p : Int := digitsValue l.power
  Decimal.ofParts (if l.negative then -n else n)
    ((if l.powerNegative then -p else p) - l.fraction.length)

end Literal

/-- The number of a text that is a literal. -/
def Decimal.ofLiteral? (cs : List Char) : Option Decimal :=
  (Literal.read? cs).map Literal.value

end DecimalCalc
