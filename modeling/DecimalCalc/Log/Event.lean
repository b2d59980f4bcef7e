import DecimalCalc.Settings
import DecimalCalc.Log.Record
/-!
# Events

What a computation reports on its way, besides its result.  Each event is one
record of the log.
-/

namespace DecimalCalc

open Text Numeral

/-- What a computation reports. -/
inductive Event where
  /-- The iteration for a square root ended. -/
  | rootConverged (iterations : Nat)
  /-- The search for a fractional exponent ended. -/
  | bisectionFinished (steps : Nat)
  /-- An expression was read and is about to be computed. -/
  | evaluating (source : String) (precision : Int) (rounding : Rounding)
  /-- An expression has no value for a known cause. -/
  | evaluationFailed (source : String) (e : Error)
  /-- An expression has no value because of a fault. -/
  | evaluationFaulted (source : String) (f : Fault)
deriving DecidableEq, Repr

namespace Event

/-- The part of the program that reports an event. -/
def part : Event → String
  | rootConverged _ | bisectionFinished _ => "arithmetic"
  | evaluating .. | evaluationFailed .. | evaluationFaulted .. => "evaluator"

def level : Event → Log.Level
  | evaluationFaulted .. => .error
  | _ => .debug

def message : Event → String
  | rootConverged iterations =>
    "sqrt converged after " ++ natText iterations ++ " iterations"
  | bisectionFinished steps =>
    "exponent bisection finished after " ++ natText steps ++ " steps"
  | evaluating source precision rounding =>
    "Evaluating " ++ quoted source ++ " at precision " ++ intText precision ++ " (" ++
      rounding.name ++ ")"
  | evaluationFailed source e =>
    "Evaluation of " ++ quoted source ++ " failed: " ++ e.code ++ ": " ++ e.message
  | evaluationFaulted source f =>
    "Unexpected evaluation error for " ++ quoted source ++ ": " ++ f.message

/-- The log record of an event. -/
def record (event : Event) : Log.Record :=
  ⟨event.level, Log.loggerName event.part, event.message⟩

end Event

end DecimalCalc
