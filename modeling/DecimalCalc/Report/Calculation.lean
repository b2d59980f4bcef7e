import DecimalCalc.Decimal.Conversion
import DecimalCalc.Report.Basic
/-!
# Calculations by name

An operation is named and its operands are values.  The operands are read
before the name is looked up, and an operation takes one or two of them.
-/

namespace DecimalCalc

namespace Calculation

/-- The operations on one number.  Only the root divides. -/
def unary? (ctx : Context) (precision : Value) (name : String) :
    Option (Decimal → Traced Decimal) :=
  match name with
  | "neg" => some fun a => pure a.neg
  | "abs" => some fun a => pure a.abs
  | "normalize" => some fun a => pure a.normalize
  | "integer" => some fun a => pure a.integer
  | "fraction" => some fun a => pure a.fraction
  | "ceil" => some fun a => pure a.ceil
  | "floor" => some fun a => pure a.floor
  | "sqrt" => some fun a => a.sqrt ctx precision
  | _ => none

/-- The operations on two numbers. -/
def binary? (ctx : Context) (precision : Value) (name : String) :
    Option (Decimal → Decimal → Traced Decimal) :=
  match name with
  | "add" => some fun a b => pure (a.add b)
  | "sub" => some fun a b => pure (a.sub b)
  | "mul" => some fun a b => pure (a.mul b)
  | "div" => some fun a b => Traced.ofExcept (a.divide ctx b precision .none)
  | "pow" => some fun a b => a.power ctx b precision
  | _ => none

/-- Why a calculation has no number: an operation or operand that is at fault, or a call
that is. -/
inductive Refusal where
  | failure (f : Failure)
  /-- An operation that there is not, or not with so many operands. -/
  | call (message : String)

/-- The number of a calculation. -/
def run (ctx : Context) (name : String) (operands : List Value) (precision : Value) :
    Except Refusal (Traced Decimal) :=
  match operands.mapM fun v => Decimal.ofValue ctx v .none with
  | .error f => .error (.failure f)
  | .ok numbers =>
    match unary? ctx precision name, binary? ctx precision name with
    | some op, _ =>
      match numbers with
      | [a] => .ok (op a)
      | _ => .error (.call (name ++ " takes exactly one operand"))
    | none, some op =>
      match numbers with
      | [a, b] => .ok (op a b)
      | _ => .error (.call (name ++ " takes exactly two operands"))
    | none, none => .error (.call ("Unknown operation: " ++ name))

/-- The report of a failure.  A fault of reading or writing an integer counts as an
invalid operation; other faults are not reported but passed on. -/
def reportFailure : Failure → Except Failure Report
  | .error e => .ok (Report.refused e.message e.code)
  | .fault f =>
    if f.kind = .value then .ok (Report.refused f.message "INVALID_OPERATION")
    else .error (.fault f)

/-- The report of a calculation. -/
def report (ctx : Context) (name : String) (operands : List Value) (precision : Value) :
    Traced Report :=
  match run ctx name operands precision with
  | .error (.failure f) => Traced.ofExcept (reportFailure f)
  | .error (.call message) => pure (Report.refused message "INVALID_OPERATION")
  | .ok t =>
    match t.outcome with
    | .ok d => ⟨t.events, .ok (Report.ofDecimal d)⟩
    | .error f => ⟨t.events, reportFailure f⟩

end Calculation

end DecimalCalc
