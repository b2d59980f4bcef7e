import DecimalCalc.Decimal.Text
/-!
# Expression trees

A tree is a number, a negation, or two trees joined by an operator.  Trees that
are built by hand may name operators that the language does not have.
-/

namespace DecimalCalc

/-- The operators of the language, and names that are none of them. -/
inductive Operator where
  | add
  | sub
  | mul
  | div
  | pow
  | eq
  | ne
  | lt
  | gt
  | le
  | ge
  | unknown (name : String)
deriving DecidableEq, Repr

namespace Operator

/-- An operator as it is written. -/
def name : Operator → String
  | add => "+"
  | sub => "-"
  | mul => "*"
  | div => "/"
  | pow => "**"
  | eq => "=="
  | ne => "!="
  | lt => "<"
  | gt => ">"
  | le => "<="
  | ge => ">="
  | unknown name => name

/-- The operators of the language. -/
def known : List Operator := [add, sub, mul, div, pow, eq, ne, lt, gt, le, ge]

/-- The operator that is written so. -/
def ofName (name : String) : Operator :=
  (known.find? fun op => op.name == name).getD (unknown name)

def isComparison : Operator → Bool
  | eq | ne | lt | gt | le | ge => true
  | _ => false

def isAdditive : Operator → Bool
  | add | sub => true
  | _ => false

def isMultiplicative : Operator → Bool
  | mul | div => true
  | _ => false

end Operator

/-- An expression as a tree. -/
inductive Tree where
  | number (d : Decimal)
  | negate (operand : Tree)
  | binary (op : Operator) (left right : Tree)
deriving DecidableEq, Repr, Inhabited

namespace Tree

/-- A tree as an expression with parentheses around every operation. -/
def parenthesized : Tree → String
  | number d => d.plainText
  | negate t => "(-" ++ t.parenthesized ++ ")"
  | binary op l r => "(" ++ l.parenthesized ++ " " ++ op.name ++ " " ++ r.parenthesized ++ ")"

end Tree

end DecimalCalc
