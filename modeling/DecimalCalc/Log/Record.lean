import DecimalCalc.Value.Basic
/-!
# Log records

A record has a level, the name of its logger, and a message.  All loggers are
children of one.

The threshold below which records are dropped is given by the name of a level.
A name of no level means the level `warning`, but for two names that the log
takes for other things.
-/

namespace DecimalCalc.Log

/-! ## Records -/

/-- The levels of log records, in ascending order of weight. -/
inductive Level where
  | debug
  | info
  | warning
  | error
  | critical
deriving DecidableEq, Repr

namespace Level

/-- The weight of a level. -/
def number : Level → Nat
  | debug => 10
  | info => 20
  | warning => 30
  | error => 40
  | critical => 50

def name : Level → String
  | debug => "DEBUG"
  | info => "INFO"
  | warning => "WARNING"
  | error => "ERROR"
  | critical => "CRITICAL"

/-- The level of a name in capitals. -/
def ofName? (name : String) : Option Level :=
  [debug, info, warning, error, critical].find? fun level => level.name == name

end Level

/-- The name of the logger above all others. -/
def rootLogger : String := "desimal"

/-- The name of the logger of a part of the program. -/
def loggerName (part : String) : String := rootLogger ++ "." ++ part

/-- A message with the level and the logger it belongs to. -/
structure Record where
  level : Level
  logger : String
  message : String
deriving DecidableEq, Repr

namespace Record

/-- A record as it stands in a log, without the time. -/
def line (r : Record) : String :=
  "[" ++ r.level.name ++ "] " ++ r.logger ++ ": " ++ r.message

end Record

/-! ## Setting up the log -/

open Text

/-- What is written where: the weight below which records are dropped, and the number of
places they go to. -/
structure Setup where
  threshold : Nat
  places : Nat
deriving DecidableEq, Repr

namespace Setup

/-- The capital letter of a letter, as far as that is an ASCII one: the dotless `i` and
the long `s` are among them. -/
def capital (c : Char) : Char :=
  if c = 'ı' then 'I' else if c = 'ſ' then 'S' else c.toUpper

/-- The layout of a line that the log calls basic. -/
def basicLayout : String := "%(levelname)s:%(name)s:%(message)s"

/-- The table of the log's styles, as it is shown. -/
def shownStyles : String :=
  "\x7b'%': (<class 'logging.PercentStyle'>, '" ++ basicLayout ++ "'), " ++
    "'\x7b': (<class 'logging.StrFormatStyle'>, " ++
    "'\x7blevelname\x7d:\x7bname\x7d:\x7bmessage\x7d'), " ++
    "'$': (<class 'logging.StringTemplateStyle'>, " ++
    "'$\x7blevelname\x7d:$\x7bname\x7d:$\x7bmessage\x7d')\x7d"

/-- The weight that a name in capitals stands for; the names of things that are no levels
are faults, and every other name means `warning`. -/
def thresholdOf (name : String) : Except Failure Nat :=
  match Level.ofName? name with
  | some level => .ok level.number
  | none =>
    match name with
    | "NOTSET" => .ok 0
    | "FATAL" => .ok Level.critical.number
    | "BASIC_FORMAT" => .error (.fault (.unknownLevel (quoted basicLayout)))
    | "_STYLES" => .error (.fault (.notALevel shownStyles))
    | _ => .ok Level.warning.number

/-- Logging from a level on, named in letters of either case, to the console, and to a file
if there is one.  Only a text names a level. -/
def ofLevel (level : Value) (toFile : Bool) : Except Failure Setup :=
  match level with
  | .text name => do
    let threshold ← thresholdOf (String.ofList (name.toList.map capital))
    return ⟨threshold, if toFile then 2 else 1⟩
  | level => .error (.fault (.noOperation level.qualifiedTypeName "upper"))

/-- Whether a record is written.  The threshold zero stands for the one that holds where
none is set. -/
def writes (s : Setup) (r : Record) : Bool :=
  (if s.threshold = 0 then Level.warning.number else s.threshold) ≤ r.level.number

end Setup

end DecimalCalc.Log
