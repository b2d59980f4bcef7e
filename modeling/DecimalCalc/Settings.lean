import DecimalCalc.Value.Basic
/-!
# Settings

The limits and defaults of the calculator.  Each is an integer with a name in
the environment, except for the rounding mode, which is a text.  A context is
the settings together with the precision in force, which a caller may change
while the program runs.

A precision is the power of ten at which a division stops, always negative; a
rounding mode says what happens to the digits beyond.  Where a caller gives
neither, the context does.
-/

namespace DecimalCalc

open Numeral

/-- What becomes of a quotient's digits beyond the precision. -/
inductive Rounding where
  /-- They are dropped, toward zero. -/
  | truncate
  /-- The nearest quotient at the precision, a half going away from zero. -/
  | halfAway
deriving DecidableEq, Repr

namespace Rounding

def name : Rounding → String
  | truncate => "truncate"
  | halfAway => "half_away"

def ofName? (name : String) : Option Rounding :=
  if name = "truncate" then some truncate
  else if name = "half_away" then some halfAway
  else none

end Rounding

/-- The limits and defaults of the calculator. -/
structure Settings where
  /-- The precision in force at the start. -/
  precision : Int := -4
  /-- The name of the rounding mode of divisions that are given none. -/
  rounding : String := "truncate"
  /-- Iterations stop at a difference of at most ten to this power. -/
  epsilonExponent : Int := -49
  /-- Roots and powers are computed at least to this precision. -/
  rootPrecision : Int := -60
  maxRootIterations : Int := 1000
  maxIntegerPower : Int := 100000
  /-- The greatest estimated number of digits of an integral power. -/
  maxResultDigits : Int := 1000000
  /-- The greatest absolute exponent of a literal in an expression. -/
  maxLiteralExponent : Int := 10000
  /-- The greatest number of characters of an expression. -/
  maxInputLength : Int := 10000
  /-- The greatest number of constructs of an expression that are open at once. -/
  maxDepth : Int := 100
  /-- The number of answers that are kept for repeated questions. -/
  cacheSize : Int := 2048
deriving DecidableEq, Repr

/-- The settings and the precision in force. -/
structure Context where
  settings : Settings
  precision : Int
deriving DecidableEq, Repr

/-- The precision that a value is: a negative integer, and nothing else. -/
def validatePrecision (v : Value) : Except Failure Int :=
  match v with
  | .int p => do
    if p < 0 then return p
    throw (.error (.invalidPrecision (← shownInt p)))
  | v => do throw (.error (.invalidPrecision (← v.shown)))

namespace Context

/-- The context at the start. -/
def initial (settings : Settings) : Context := ⟨settings, settings.precision⟩

/-- The precision that a caller asks for; the one in force where it asks for none. -/
def resolvePrecision (ctx : Context) (v : Value) : Except Failure Int :=
  match v with
  | .none => .ok ctx.precision
  | v => validatePrecision v

/-- The rounding mode that a caller asks for; the one of the settings where it asks for
none. -/
def resolveRounding (ctx : Context) (v : Value) : Except Failure Rounding :=
  let v : Value := match v with
    | .none => .text ctx.settings.rounding
    | v => v
  let known? := match v with
    | .text name => Rounding.ofName? name
    | _ => none
  match known? with
  | some mode => .ok mode
  | none => do throw (.error (.unknownRounding (← v.shown)))

end Context

namespace Settings

/-- The variables of the environment that are read. -/
def variableNames : List String :=
  ["DESIMAL_PRECISION", "DESIMAL_ROUNDING", "DESIMAL_EPSILON_EXPONENT",
    "DESIMAL_SQRT_WORKING_PRECISION", "DESIMAL_MAX_SQRT_ITERATIONS",
    "DESIMAL_MAX_INTEGER_POWER", "DESIMAL_MAX_RESULT_DIGITS", "DESIMAL_MAX_LITERAL_EXPONENT",
    "DESIMAL_MAX_INPUT_LENGTH", "DESIMAL_MAX_EXPRESSION_DEPTH", "DESIMAL_CACHE_SIZE_EVAL"]

/-- The integer of a variable of the environment. -/
def readInteger (env : List (String × String)) (name : String) (default : Int) :
    Except Failure Int :=
  match env.lookup name with
  | some text => readBounded text
  | none => .ok default

/-- One above the greatest size that the machine can index. -/
def indexLimit : Int := twoTo 63

/-- The settings of an environment: each variable that is there replaces a default.  The
precision must be one, and the cache must fit the machine. -/
def ofEnvironment (env : List (String × String)) : Except Failure Settings := do
  let d : Settings := {}
  let precision ← readInteger env "DESIMAL_PRECISION" d.precision
  let rounding := (env.lookup "DESIMAL_ROUNDING").getD d.rounding
  let epsilonExponent ← readInteger env "DESIMAL_EPSILON_EXPONENT" d.epsilonExponent
  let rootPrecision ← readInteger env "DESIMAL_SQRT_WORKING_PRECISION" d.rootPrecision
  let maxRootIterations ← readInteger env "DESIMAL_MAX_SQRT_ITERATIONS" d.maxRootIterations
  let maxIntegerPower ← readInteger env "DESIMAL_MAX_INTEGER_POWER" d.maxIntegerPower
  let maxResultDigits ← readInteger env "DESIMAL_MAX_RESULT_DIGITS" d.maxResultDigits
  let maxLiteralExponent ← readInteger env "DESIMAL_MAX_LITERAL_EXPONENT" d.maxLiteralExponent
  let maxInputLength ← readInteger env "DESIMAL_MAX_INPUT_LENGTH" d.maxInputLength
  let maxDepth ← readInteger env "DESIMAL_MAX_EXPRESSION_DEPTH" d.maxDepth
  let cacheSize ← readInteger env "DESIMAL_CACHE_SIZE_EVAL" d.cacheSize
  let precision ← validatePrecision (.int precision)
  if indexLimit ≤ cacheSize then throw (.fault .sizeBeyondIndex)
  return { precision, rounding, epsilonExponent, rootPrecision, maxRootIterations,
           maxIntegerPower, maxResultDigits, maxLiteralExponent, maxInputLength, maxDepth,
           cacheSize }

end Settings

end DecimalCalc
