import DecimalCalc.Log.Record
import DecimalCalc.Settings
/-!
# Command line options

An option is named in full after two dashes, or by any beginning that no other
name shares, or by one letter after one dash.  A value follows as the next
argument, after an equals sign, or right after the letter; letters without
values may stand together.  An argument that begins with a dash is an option
unless it is a negative number or holds a blank.  The last of repeated options
counts.

Two dashes alone end the options.  Where they are attached to an option they are
dropped, and the option is left with an empty list for its value.

There are no arguments but options and their values, so whatever else stands on
the command line is an error, which is noticed only after all options were
read: a request for help among them comes first.
-/

namespace DecimalCalc.CommandLine

open Text Numeral

/-- How answers are printed. -/
inductive Format where
  | human
  | json
deriving DecidableEq, Repr

/-- What the options of a command line ask for; a value that is left out is `none`. -/
structure Options where
  expression : Value := .none
  format : Format := .human
  precision : Value := .none
  rounding : Value := .none
  scientific : Bool := false
  explain : Bool := false
  version : Bool := false
  logLevel : Value := .text Log.Level.warning.name
  logFile : Option String := none
  healthCheck : Bool := false

/-- Why a command line asks for no work. -/
inductive Usage where
  | help
  | invalid
deriving DecidableEq, Repr

/-- The names that options have. -/
inductive Switch where
  | help
  | eval
  | format
  | precision
  | rounding
  | scientific
  | explain
  | version
  | logLevel
  | logFile
  | healthCheck
deriving DecidableEq, Repr

namespace Switch

/-- The one-letter names. -/
def letters : List (Char × Switch) :=
  [('h', help), ('e', eval), ('p', precision), ('v', version)]

/-- The full names. -/
def names : List (String × Switch) :=
  [("--help", help), ("--eval", eval), ("--format", format), ("--precision", precision),
    ("--rounding", rounding), ("--scientific", scientific), ("--explain", explain),
    ("--version", version), ("--log-level", logLevel), ("--log-file", logFile),
    ("--health-check", healthCheck)]

def takesValue : Switch → Bool
  | eval | format | precision | rounding | logLevel | logFile => true
  | help | scientific | explain | version | healthCheck => false

/-- The option of a full name. -/
def ofName? (cs : List Char) : Option Switch :=
  (names.find? fun entry => entry.1.toList == cs).map (·.2)

/-- The options whose full names begin so. -/
def beginningWith (cs : List Char) : List Switch :=
  (names.filter fun entry => cs.isPrefixOf entry.1.toList).map (·.2)

end Switch

/-- What an argument is by its form. -/
inductive Argument where
  /-- A value, or an argument too many. -/
  | plain (text : List Char)
  /-- An option with the text that is attached to it. -/
  | option (switch : Switch) (long : Bool) (attached : Option (List Char))
  /-- An option that there is not. -/
  | unknown
deriving DecidableEq, Repr

namespace Argument

/-- Digits, or digits with a point before the last ones; a line break may follow. -/
def isPlainNumber (cs : List Char) : Bool :=
  let body := if cs.getLast? = some '\n' then cs.dropLast else cs
  let whole := body.takeWhile isDigit
  match body.dropWhile isDigit with
  | [] => whole != []
  | '.' :: places => places != [] && places.all isDigit
  | _ => false

/-- The part before the first equals sign and the part after it, if there is one. -/
def splitEquals (cs : List Char) : List Char × Option (List Char) :=
  match cs.dropWhile (· != '=') with
  | [] => (cs, none)
  | _ :: value => (cs.takeWhile (· != '='), some value)

/-- An argument that begins with two dashes. -/
def ofLong (cs : List Char) : Except Usage Argument :=
  let (name, attached) := splitEquals cs
  match Switch.ofName? name with
  | some switch => .ok (option switch true attached)
  | none =>
    match Switch.beginningWith name with
    | [switch] => .ok (option switch true attached)
    | [] => .ok (if cs.contains ' ' then plain cs else unknown)
    | _ => .error .invalid

/-- An argument of one dash and a letter. -/
def ofShort (letter : Char) (rest : List Char) : Argument :=
  match Switch.letters.lookup letter with
  | some switch =>
    match rest with
    | [] => option switch false none
    | '=' :: value => option switch false (some value)
    | rest => option switch false (some rest)
  | none =>
    if isPlainNumber (letter :: rest) || letter == ' ' || rest.contains ' ' then
      plain ('-' :: letter :: rest)
    else unknown

/-- What an argument is, other than two dashes alone. -/
def ofText (arg : String) : Except Usage Argument :=
  match arg.toList with
  | '-' :: '-' :: rest => ofLong ('-' :: '-' :: rest)
  | '-' :: letter :: rest => .ok (ofShort letter rest)
  | cs => .ok (plain cs)

/-- The arguments of a command line.  After two dashes alone, which are one argument too
many themselves, no argument is an option. -/
def ofTexts : List String → Except Usage (List Argument)
  | [] => .ok []
  | arg :: rest =>
    if arg = "--" then .ok (unknown :: rest.map fun arg => plain arg.toList)
    else do
      let first ← ofText arg
      let others ← ofTexts rest
      return first :: others

end Argument

namespace Options

/-- The value that two dashes alone leave to an option. -/
def emptied : Value := .list []

/-- The options after one more, with the text of its value if it takes one. -/
def set (o : Options) (switch : Switch) (value : String) : Except Usage Options :=
  match switch with
  | .help => .error .help
  | .scientific => .ok { o with scientific := true }
  | .explain => .ok { o with explain := true }
  | .version => .ok { o with version := true }
  | .healthCheck => .ok { o with healthCheck := true }
  | .eval => .ok { o with expression := .text value }
  | .format =>
    if value = "json" then .ok { o with format := .json }
    else if value = "human" then .ok { o with format := .human }
    else .error .invalid
  | .precision =>
    match readBounded value with
    | .ok p => .ok { o with precision := .int p }
    | .error _ => .error .invalid
  | .rounding =>
    match Rounding.ofName? value with
    | some mode => .ok { o with rounding := .text mode.name }
    | none => .error .invalid
  | .logLevel =>
    match Log.Level.ofName? value with
    | some .critical | none => .error .invalid
    | some level => .ok { o with logLevel := .text level.name }
  | .logFile => .ok { o with logFile := if value = "" then none else some value }

/-- The options after one more that is left with an empty list for its value. -/
def setEmpty (o : Options) (switch : Switch) : Except Usage Options :=
  match switch with
  | .eval => .ok { o with expression := emptied }
  | .format => .ok { o with format := .human }
  | .precision => .ok { o with precision := emptied }
  | .rounding => .ok { o with rounding := emptied }
  | .logLevel => .ok { o with logLevel := emptied }
  | .logFile => .ok { o with logFile := none }
  | switch => o.set switch ""

/-- The options after a request with its text. -/
def request (o : Options) (switch : Switch) (value : List Char) : Except Usage Options :=
  if value = ['-', '-'] then o.setEmpty switch else o.set switch (String.ofList value)

/-- The options that letters written together ask for, the first of which is given: none
but the last takes a value, and what follows its letter is attached to it. -/
def cluster : Switch → List Char → Except Usage (List (Switch × Option (List Char)))
  | switch, [] => .ok [(switch, none)]
  | switch, c :: cs =>
    if switch.takesValue then .ok [(switch, some (c :: cs))]
    else
      match Switch.letters.lookup c with
      | some next => do
        let others ← cluster next cs
        return (switch, none) :: others
      | none => .error .invalid

/-- What one argument with an option asks for.  What is attached to a letter without a
value is read as more letters. -/
def requests (switch : Switch) (long : Bool) (attached : Option (List Char)) :
    Except Usage (List (Switch × Option (List Char))) :=
  match attached with
  | none => .ok [(switch, none)]
  | some value =>
    if switch.takesValue then .ok [(switch, some value)]
    else if long || value.isEmpty then .error .invalid
    else cluster switch value

/-- Requests with all their values.  Only the last can lack one that it takes, and finds it
in the argument that follows. -/
def supply (following : List Argument) :
    List (Switch × Option (List Char)) →
      Except Usage (List (Switch × List Char) × List Argument)
  | [] => .ok ([], following)
  | (switch, some value) :: others => do
    let (supplied, following) ← supply following others
    return ((switch, value) :: supplied, following)
  | (switch, none) :: others =>
    if switch.takesValue then
      match following with
      | .plain value :: following => .ok ([(switch, value)], following)
      | _ => .error .invalid
    else do
      let (supplied, following) ← supply following others
      return ((switch, []) :: supplied, following)

/-- The options of arguments, as many steps as there are arguments, and whether there was
an argument that belongs to none. -/
def collect : (steps : Nat) → (o : Options) → (excess : Bool) → List Argument →
    Except Usage Options
  | _, o, excess, [] => if excess then .error .invalid else .ok o
  | 0, _, _, _ :: _ => .error .invalid
  | steps + 1, o, excess, arg :: following =>
    match arg with
    | .plain _ | .unknown => collect steps o true following
    | .option switch long attached => do
      let asked ← requests switch long attached
      let (supplied, following) ← supply following asked
      let o ← supplied.foldlM (fun o (switch, value) => o.request switch value) o
      collect steps o excess following

/-- The options of a command line. -/
def ofArguments (args : List String) : Except Usage Options := do
  let arguments ← Argument.ofTexts args
  collect arguments.length {} false arguments

end Options

end DecimalCalc.CommandLine
