import DecimalCalc.Numeral.Digits
/-!
# Errors

An operation fails for a *cause* that is known to the library (`Error`), or by a
*fault* of the arithmetic below it (`Fault`): a numeral too long to write, a
number that does not fit a format.  A cause has a kind in a hierarchy, a code, a
message, and for syntax errors a position in the source; a fault has a message
only.
-/

namespace DecimalCalc

open Numeral

/-- The kinds of errors, a hierarchy with `library` at the top. -/
inductive ErrorKind where
  | library
  | validation
  | construction
  | precision
  | parse
  | unsupportedOperator
  | evaluation
  | divisionByZero
  | domain
  | convergence
deriving DecidableEq, Repr

namespace ErrorKind

/-- A kind and all more general ones, the most general last. -/
def lineage (kind : ErrorKind) : List ErrorKind :=
  match kind with
  | library => [library]
  | validation | parse | evaluation => [kind, library]
  | construction | precision => [kind, validation, library]
  | unsupportedOperator => [kind, parse, library]
  | divisionByZero | domain | convergence => [kind, evaluation, library]

/-- The code of an error of a kind that names no other. -/
def defaultCode : ErrorKind → String
  | library => "DESIMAL_ERROR"
  | validation => "VALIDATION_ERROR"
  | construction => "INVALID_LITERAL"
  | precision => "INVALID_PRECISION"
  | parse => "PARSE_ERROR"
  | unsupportedOperator => "UNSUPPORTED_OPERATOR"
  | evaluation => "EVALUATION_ERROR"
  | divisionByZero => "DIVISION_BY_ZERO"
  | domain => "DOMAIN_ERROR"
  | convergence => "NO_CONVERGENCE"

/-- The code that an error of a kind carries: a given one unless it is empty. -/
def codeOr (kind : ErrorKind) : Option String → String
  | some code => if code = "" then kind.defaultCode else code
  | none => kind.defaultCode

end ErrorKind

/-- What can be wrong with an operation, an input or an expression.  Values are held as
they are shown in the message. -/
inductive Error where
  /-- A precision that is not a negative integer. -/
  | invalidPrecision (shown : String)
  | unknownRounding (shown : String)
  /-- A text that is no number literal. -/
  | invalidLiteral (shown : String)
  | invalidRadixLiteral (radix : Nat) (shown : String)
  | exponentNotInteger (shown : String)
  | radixNotInteger (shown : String)
  | radixOutOfRange (shown : String)
  /-- An infinite or undefined number. -/
  | notFinite (shown : String)
  | truthValue
  | unsupportedType (typeName : String)
  /-- A symbolic number that is not rational. -/
  | notRational (shown : String)
  | divisionByZero
  | negativeRoot (shown : String)
  | noConvergence (limit : Int)
  | exponentTooLarge (shown : String) (limit : Int)
  | resultTooLarge (base power : String) (limit : Int)
  | sourceNotText (typeName : String)
  | sourceTooLong (limit : Int)
  | emptyExpression
  /-- A parenthesis without a partner. -/
  | unbalanced (position : Nat)
  | unexpectedToken (token : String) (position : Nat)
  /-- The source ends where an operand or a parenthesis is due. -/
  | unexpectedEnd (previous : String) (position : Nat)
  | moduloOperator (position : Nat)
  | literalOutOfRange (shown : String) (position : Nat)
  | tooDeep (limit : Int)
  /-- A truth value as an operand of an operator on numbers. -/
  | truthOperand (operator : String)
  | unknownOperator (name : String)
deriving DecidableEq, Repr

namespace Error

def kind : Error → ErrorKind
  | invalidPrecision .. => .precision
  | invalidLiteral .. | invalidRadixLiteral .. | exponentNotInteger .. | radixNotInteger ..
  | radixOutOfRange .. | notFinite .. | truthValue | unsupportedType ..
  | notRational .. => .construction
  | divisionByZero => .divisionByZero
  | negativeRoot .. => .domain
  | noConvergence .. => .convergence
  | unknownRounding .. | exponentTooLarge .. | resultTooLarge .. | sourceNotText ..
  | sourceTooLong .. | literalOutOfRange .. | tooDeep .. => .validation
  | emptyExpression | unbalanced .. | unexpectedToken .. | unexpectedEnd .. => .parse
  | moduloOperator .. => .unsupportedOperator
  | truthOperand .. | unknownOperator .. => .evaluation

def code : Error → String
  | invalidPrecision .. => "INVALID_PRECISION"
  | unknownRounding .. => "INVALID_ROUNDING"
  | invalidLiteral .. | invalidRadixLiteral .. | exponentNotInteger .. => "INVALID_LITERAL"
  | radixNotInteger .. | radixOutOfRange .. => "INVALID_RADIX"
  | notFinite .. => "NON_FINITE"
  | truthValue | unsupportedType .. | notRational .. => "UNSUPPORTED_TYPE"
  | divisionByZero => "DIVISION_BY_ZERO"
  | negativeRoot .. => "NEGATIVE_SQRT"
  | noConvergence .. => "NO_CONVERGENCE"
  | exponentTooLarge .. | literalOutOfRange .. => "EXPONENT_TOO_LARGE"
  | resultTooLarge .. => "RESULT_TOO_LARGE"
  | sourceNotText .. => "INVALID_INPUT"
  | sourceTooLong .. => "TOO_LONG"
  | emptyExpression => "EMPTY_EXPRESSION"
  | unbalanced .. => "UNBALANCED_PARENS"
  | unexpectedToken .. => "UNEXPECTED_TOKEN"
  | unexpectedEnd .. => "UNEXPECTED_END"
  | moduloOperator .. => "UNSUPPORTED_OPERATOR"
  | tooDeep .. => "TOO_COMPLEX"
  | truthOperand .. => "TYPE_MISMATCH"
  | unknownOperator .. => "UNKNOWN_OPERATOR"

def message : Error → String
  | invalidPrecision shown =>
    "Only negative integers are allowed for precision, got " ++ shown ++ "."
  | unknownRounding shown =>
    "Unknown rounding mode " ++ shown ++ "; expected one of truncate, half_away"
  | invalidLiteral shown => "Invalid number literal: " ++ shown
  | invalidRadixLiteral radix shown =>
    "Invalid base-" ++ natText radix ++ " literal: " ++ shown
  | exponentNotInteger shown => "Exponent must be an integer, got " ++ shown
  | radixNotInteger shown => "Radix must be an integer, got " ++ shown
  | radixOutOfRange shown => "Radix must be an integer between 2 and 36, got " ++ shown
  | notFinite shown => "Cannot make a BigFloat from " ++ shown
  | truthValue => "Cannot make a BigFloat from a bool"
  | unsupportedType typeName => "Cannot make a BigFloat from " ++ typeName
  | notRational shown => "Only rational SymPy numbers can be converted, got " ++ shown
  | divisionByZero => "Division by zero"
  | negativeRoot shown => "Square root of a negative number is not supported: " ++ shown
  | noConvergence limit =>
    "Square root did not converge within " ++ intText limit ++ " iterations"
  | exponentTooLarge shown limit =>
    "Exponent " ++ shown ++ " exceeds the limit of " ++ intText limit
  | resultTooLarge base power limit =>
    "Result of raising " ++ base ++ " to " ++ power ++ " would exceed " ++ intText limit ++
      " digits"
  | sourceNotText typeName => "Expression must be a string, got " ++ typeName
  | sourceTooLong limit => "Input too long (max " ++ intText limit ++ " characters)"
  | emptyExpression => "Empty expression"
  | unbalanced position => "Unbalanced parenthesis at column " ++ natText position
  | unexpectedToken token position =>
    "Unexpected token \"" ++ token ++ "\" at column " ++ natText position
  | unexpectedEnd previous _ => "Unexpected end of expression after \"" ++ previous ++ "\""
  | moduloOperator _ => "The modulo operator is not supported yet."
  | literalOutOfRange shown position =>
    "Number literal " ++ shown ++ " at column " ++ natText position ++ " is out of range"
  | tooDeep limit => "Expression too deeply nested (>" ++ intText limit ++ " levels)"
  | truthOperand operator =>
    "Operator \"" ++ operator ++ "\" expects numbers, got a boolean"
  | unknownOperator name => "Unknown operator: " ++ name

/-- The place in the source where a syntax error was noticed. -/
def position? : Error → Option Nat
  | unbalanced position | unexpectedToken _ position | unexpectedEnd _ position
  | moduloOperator position => some position
  | _ => none

end Error

/-- The kinds of faults: a value that cannot be read or written, a number outside a
format, an operation without a meaning, a value that is not there, an operation that a type
does not have. -/
inductive FaultKind where
  | value
  | overflow
  | type
  | index
  | attribute
deriving DecidableEq, Repr

/-- What can fail below the library's own errors. -/
inductive Fault where
  /-- A decimal numeral above `longestNumeral` digits, due in a message. -/
  | numeralTooLong
  /-- A text of more digits than `longestNumeral`, due to be read as an integer. -/
  | textTooLong (digits : Nat)
  /-- A text that is no integer, as it is shown. -/
  | notAnInteger (shown : String)
  | infiniteFloat
  | undefinedFloat
  /-- An integer beyond the finite floating point numbers. -/
  | integerBeyondFloat
  /-- A size beyond the machine's indices. -/
  | sizeBeyondIndex
  /-- A comparison of a number with a value of another type. -/
  | notComparable (symbol typeName : String)
  /-- An operator that is due before its operands. -/
  | noOperand
  /-- A value without items where its items are due. -/
  | notIterable (typeName : String)
  /-- A value without a length where its length is due. -/
  | noLength (typeName : String)
  /-- A value other than a text where a text is due. -/
  | notText (typeName : String)
  /-- A value of a type that does not have an operation. -/
  | noOperation (typeName operation : String)
  /-- A text, as it is shown, that names no level of a log. -/
  | unknownLevel (shown : String)
  /-- A thing, as it is shown, that is no level of a log. -/
  | notALevel (shown : String)
  /-- A moment in a year that the calendar does not have. -/
  | yearOutOfRange (year : Int)
deriving DecidableEq, Repr

namespace Fault

/-- The number of digits above which integers are neither written into messages nor
read. -/
def longestNumeral : Nat := 4300

def kind : Fault → FaultKind
  | numeralTooLong | textTooLong .. | notAnInteger .. | undefinedFloat | unknownLevel ..
  | yearOutOfRange .. => .value
  | infiniteFloat | integerBeyondFloat | sizeBeyondIndex => .overflow
  | notComparable .. | notIterable .. | noLength .. | notText .. | notALevel .. => .type
  | noOperand => .index
  | noOperation .. => .attribute

def message : Fault → String
  | numeralTooLong =>
    "Exceeds the limit (4300 digits) for integer string conversion; " ++
      "use sys.set_int_max_str_digits() to increase the limit"
  | textTooLong digits =>
    "Exceeds the limit (4300 digits) for integer string conversion: value has " ++
      natText digits ++ " digits; use sys.set_int_max_str_digits() to increase the limit"
  | notAnInteger shown => "invalid literal for int() with base 10: " ++ shown
  | infiniteFloat => "cannot convert float infinity to integer"
  | undefinedFloat => "cannot convert float NaN to integer"
  | integerBeyondFloat => "int too large to convert to float"
  | sizeBeyondIndex => "cannot fit 'int' into an index-sized integer"
  | notComparable symbol typeName =>
    "'" ++ symbol ++ "' not supported between instances of 'BigFloat' and '" ++ typeName ++ "'"
  | noOperand => "pop from empty list"
  | notIterable typeName => "'" ++ typeName ++ "' object is not iterable"
  | noLength typeName => "object of type '" ++ typeName ++ "' has no len()"
  | notText typeName => "expected string or bytes-like object, got '" ++ typeName ++ "'"
  | noOperation typeName operation =>
    "'" ++ typeName ++ "' object has no attribute '" ++ operation ++ "'"
  | unknownLevel shown => "Unknown level: " ++ shown
  | notALevel shown => "Level not an integer or a valid string: " ++ shown
  | yearOutOfRange year => "year " ++ intText year ++ " is out of range"

end Fault

/-- Why an operation has no result. -/
inductive Failure where
  | error (e : Error)
  | fault (f : Fault)
deriving DecidableEq, Repr

namespace Failure

def message : Failure → String
  | error e => e.message
  | fault f => f.message

end Failure

end DecimalCalc
