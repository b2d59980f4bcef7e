import DecimalCalc.Numeral.Integer
import DecimalCalc.Binary64.Text
import DecimalCalc.Decimal.Text
/-!
# Values

What a caller may hand over where a number, a radix, a precision or a rounding
mode is due: numbers of several kinds, texts, truth values, and things that are
none of these.

A message that names a value shows texts between quotes, floats by their shortest
decimal text, symbolic ones with fifteen digits, numbers and fractions with the
name of their type.  An integer too long to be shown is a fault.
-/

namespace DecimalCalc

/-! ## Values -/

/-- A value of a caller.  `none` stands for a value that was left out. -/
inductive Value where
  | none
  | bool (b : Bool)
  | int (i : Int)
  | text (s : String)
  | list (vs : List Value)
  /-- A table without entries. -/
  | emptyTable
  | float (x : Binary64)
  /-- A decimal number of the library. -/
  | number (d : Decimal)
  /-- A decimal floating point number: a sign, digits and a power of ten. -/
  | decimal (negative : Bool) (digits : Nat) (exponent : Int)
  /-- A decimal infinity or undefined number, by its name. -/
  | decimalSpecial (name : String)
  /-- A reduced fraction with a positive denominator. -/
  | fraction (num : Int) (den : Nat)
  /-- A symbolic rational number, reduced, with a positive denominator. -/
  | symbolicRatio (num : Int) (den : Nat)
  /-- A symbolic number that stands for exactly the value of a float. -/
  | symbolicFloat (x : Binary64)
  /-- Any other symbolic object, by its name. -/
  | symbolic (name : String)
deriving Inhabited

namespace Value

/-- The reduced form of a quotient of integers: its denominator is positive, and without a
divisor common with the numerator. -/
def reducedQuotient (num den : Int) : Int × Nat :=
  let g := Int.gcd num den
  (num * den.sign / g, den.natAbs / g)

/-- A quotient of integers as a fraction. -/
def ofQuotient (num den : Int) : Value :=
  let (n, d) := reducedQuotient num den
  fraction n d

/-- A quotient of integers as a symbolic number. -/
def ofSymbolicQuotient (num den : Int) : Value :=
  let (n, d) := reducedQuotient num den
  symbolicRatio n d

/-- The type of a symbolic object, told by its name. -/
def symbolicTypeName (name : String) : String :=
  match name with
  | "pi" => "Pi"
  | "oo" => "Infinity"
  | "-oo" => "NegativeInfinity"
  | "zoo" => "ComplexInfinity"
  | "nan" => "NaN"
  | "I" => "ImaginaryUnit"
  | "sqrt(2)" => "Pow"
  | _ => "Symbol"

/-- The type of a symbolic rational number. -/
def ratioTypeName (num : Int) (den : Nat) : String :=
  if den = 1 then
    if num = 0 then "Zero" else if num = 1 then "One" else if num = -1 then "NegativeOne"
    else "Integer"
  else if num = 1 ∧ den = 2 then "Half"
  else "Rational"

/-- The name of a value's type in the messages of errors. -/
def typeName : Value → String
  | none => "NoneType"
  | bool _ => "bool"
  | int _ => "int"
  | text _ => "str"
  | list _ => "list"
  | emptyTable => "dict"
  | float _ => "float"
  | number _ => "BigFloat"
  | decimal .. | decimalSpecial _ => "Decimal"
  | fraction .. => "Fraction"
  | symbolicRatio num den => ratioTypeName num den
  | symbolicFloat x =>
    match x with
    | .finite .. => "Float"
    | .infinite negative => if negative then "NegativeInfinity" else "Infinity"
    | .nan => "NaN"
  | symbolic name => symbolicTypeName name

/-- The name of a value's type in faults, which name the library that a decimal floating
point number belongs to. -/
def qualifiedTypeName (v : Value) : String :=
  match v with
  | decimal .. | decimalSpecial _ => "decimal." ++ v.typeName
  | v => v.typeName

/-! ## Values in messages -/

open Text Numeral

/-- The numeral of a decimal floating point number: positional where the exponent is not
positive and the first digit not beyond the sixth place, else with a power of ten. -/
def decimalChars (negative : Bool) (digits : Nat) (exponent : Int) : List Char :=
  let cs := natChars digits
  let order : Int := exponent + cs.length
  let body :=
    if exponent ≤ 0 ∧ -6 < order then Decimal.placePoint (-exponent).toNat cs
    else
      let mantissa := Decimal.placePoint (cs.length - 1) cs
      let power := order - 1
      let sign := if power < 0 then '-' else '+'
      if power = 0 then mantissa else mantissa ++ 'E' :: sign :: natChars power.natAbs
  if negative then '-' :: body else body

mutual

/-- A value as messages show it. -/
def shown : Value → Except Failure String
  | none => .ok "None"
  | bool b => .ok (if b then "True" else "False")
  | int i => shownInt i
  | text s => .ok (quoted s)
  | list vs => do
    let parts ← shownList vs
    return "[" ++ ", ".intercalate parts ++ "]"
  | emptyTable => .ok "\x7b\x7d"
  | float x => .ok x.text
  | number d => .ok ("BigFloat(" ++ quoted d.plainText ++ ")")
  | decimal negative digits exponent =>
    .ok ("Decimal('" ++ String.ofList (decimalChars negative digits exponent) ++ "')")
  | decimalSpecial name => .ok ("Decimal('" ++ name ++ "')")
  | fraction num den => do
    let n ← shownInt num
    let d ← shownInt den
    return "Fraction(" ++ n ++ ", " ++ d ++ ")"
  | symbolicRatio num den =>
    .ok (if den = 1 then intText num else intText num ++ "/" ++ natText den)
  | symbolicFloat x => .ok (x.significantText 15)
  | symbolic name => .ok name

/-- The values of a list as messages show them. -/
def shownList : List Value → Except Failure (List String)
  | [] => .ok []
  | v :: vs => do
    let s ← v.shown
    let rest ← shownList vs
    return s :: rest

end

end Value

end DecimalCalc
