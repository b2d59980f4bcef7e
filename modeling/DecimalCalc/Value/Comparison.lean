import DecimalCalc.Value.Basic
import DecimalCalc.Decimal.Basic
/-!
# Comparison with any value

A number equals only numbers.  It has an order with numbers only too, and to ask
for another one is a fault.
-/

namespace DecimalCalc

/-- Whether a value is a decimal number of the library. -/
def Value.isNumber : Value → Bool
  | .number _ => true
  | _ => false

namespace Decimal

/-- Whether a value is a number equal to this one. -/
def equalsValue (a : Decimal) : Value → Bool
  | .number b => a.equal b
  | _ => false

/-- The order relations, with the signs they are written with. -/
inductive Relation where
  | less
  | atMost
  | greater
  | atLeast
deriving DecidableEq, Repr

namespace Relation

def symbol : Relation → String
  | less => "<"
  | atMost => "<="
  | greater => ">"
  | atLeast => ">="

/-- Whether two numbers are in a relation. -/
def holds : Relation → Decimal → Decimal → Bool
  | less => Decimal.less
  | atMost => Decimal.atMost
  | greater => Decimal.greater
  | atLeast => Decimal.atLeast

end Relation

/-- Whether a number is in a relation to a value. -/
def relatesTo (a : Decimal) (r : Relation) : Value → Except Failure Bool
  | .number b => .ok (r.holds a b)
  | v => .error (.fault (.notComparable r.symbol v.qualifiedTypeName))

end Decimal

end DecimalCalc
