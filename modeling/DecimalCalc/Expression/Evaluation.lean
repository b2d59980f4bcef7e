import DecimalCalc.Decimal.Power
import DecimalCalc.Expression.Parser
/-!
# The value of a tree

Operators take numbers and yield a number, or a truth value if they compare.  A
tree is evaluated from the left to the right without recursion: a list of tasks
says what is left to do, and a stack holds the values that wait for their
operator.
-/

namespace DecimalCalc

/-- What an expression yields. -/
inductive Datum where
  | number (d : Decimal)
  | truth (b : Bool)
deriving DecidableEq, Repr

namespace Operator

/-- The number that an operand is; a truth value is an error of the operator. -/
def operand (name : String) : Datum → Except Failure Decimal
  | .number d => .ok d
  | .truth _ => .error (.error (.truthOperand name))

/-- An operator applied to its operands.  A quotient by zero is zero. -/
def apply (ctx : Context) (op : Operator) (left right : Datum) (precision rounding : Value) :
    Traced Datum := do
  let a ← operand op.name left
  let b ← operand op.name right
  match op with
  | .add => return .number (a.add b)
  | .sub => return .number (a.sub b)
  | .mul => return .number (a.mul b)
  | .eq => return .truth (a.equal b)
  | .ne => return .truth (!a.equal b)
  | .lt => return .truth (a.less b)
  | .gt => return .truth (a.greater b)
  | .le => return .truth (a.atMost b)
  | .ge => return .truth (a.atLeast b)
  | .div =>
    if b.isZero then return .number .zero
    else
      let q ← a.divide ctx b precision rounding
      return .number q
  | .pow =>
    let p ← a.power ctx b precision
    return .number p
  | .unknown name => Traced.fail (.error (.unknownOperator name))

/-- The value of a negation. -/
def negate (operand : Datum) : Except Failure Datum := do
  let d ← Operator.operand Operator.sub.name operand
  return .number d.neg

end Operator

namespace Tree

/-- One thing that is left to do. -/
inductive Task where
  | visit (t : Tree)
  /-- Negate the last value. -/
  | negate
  /-- Join the last two values. -/
  | join (op : Operator)
deriving DecidableEq, Repr

/-- The number of nodes of a tree. -/
def size : Tree → Nat
  | number _ => 1
  | negate t => t.size + 2
  | binary _ l r => l.size + r.size + 2

/-- The number of steps that a task leads to. -/
def Task.size : Task → Nat
  | visit t => t.size
  | _ => 1

/-- The number of steps that tasks lead to. -/
def Task.total : List Task → Nat
  | [] => 0
  | task :: tasks => task.size + total tasks

/-- Does what is left to do, with the values that wait, the last one first, and gives the
values that are there in the end. -/
def perform (ctx : Context) (precision rounding : Value) :
    List Task → List Datum → Traced (List Datum)
  | [], values => return values
  | .visit (number d) :: tasks, values =>
    perform ctx precision rounding tasks (.number d :: values)
  | .visit (negate t) :: tasks, values =>
    perform ctx precision rounding (.visit t :: .negate :: tasks) values
  | .visit (binary op l r) :: tasks, values =>
    perform ctx precision rounding (.visit l :: .visit r :: .join op :: tasks) values
  | .negate :: tasks, v :: values => do
    let w ← Operator.negate v
    perform ctx precision rounding tasks (w :: values)
  | .join op :: tasks, right :: left :: values => do
    let v ← op.apply ctx left right precision rounding
    perform ctx precision rounding tasks (v :: values)
  | .negate :: _, [] | .join _ :: _, [] | .join _ :: _, [_] => Traced.fail (.fault .noOperand)
termination_by tasks => Task.total tasks
decreasing_by
  all_goals simp [Task.total, Task.size, size]
  all_goals omega

/-- The value of a tree: the last one that is there when nothing is left to do. -/
def evaluate (ctx : Context) (t : Tree) (precision rounding : Value) : Traced Datum := do
  match ← perform ctx precision rounding [.visit t] [] with
  | v :: _ => return v
  | [] => Traced.fail (.fault .noOperand)

end Tree

/-- The value of a source.  The precision and the rounding mode are settled before the
source is read. -/
def compute (ctx : Context) (source precision rounding : Value) : Traced Datum := do
  let p ← ctx.resolvePrecision precision
  let mode ← ctx.resolveRounding rounding
  match Tree.ofValue ctx.settings source with
  | .error e => Traced.fail (.error e)
  | .ok (source, tree) =>
    let _ ← Numeral.shownInt p
    Traced.report (.evaluating source p mode)
    tree.evaluate ctx (.int p) (.text mode.name)

/-- The value of an expression as it is written: a plain numeral or a truth value. -/
inductive Written where
  | numeral (text : String)
  | truth (b : Bool)
deriving DecidableEq, Repr

/-- How a value is written. -/
def Datum.written : Datum → Written
  | .number d => .numeral d.plainText
  | .truth b => .truth b

/-- The value of a source as it is written. -/
def evaluate (ctx : Context) (source precision rounding : Value) : Traced Written := do
  let v ← compute ctx source precision rounding
  return v.written

/-- Whether a value is an expression of the language, and if not, why. -/
def validateExpression (s : Settings) (source : Value) : Option Error :=
  match Tree.ofValue s source with
  | .ok _ => none
  | .error e => some e

end DecimalCalc
