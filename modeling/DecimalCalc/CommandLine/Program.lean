import DecimalCalc.CommandLine.Console
/-!
# The program

The options of the command line decide what the program does: print its version
or its health, answer or explain one expression, or read from the console.
-/

namespace DecimalCalc.CommandLine

open Text Numeral

/-- A self-test: what is tested, the expression, and the answer it should have. -/
structure Check where
  label : String
  source : String
  expected : Field
deriving DecidableEq, Repr

/-- The self-tests whose answers are compared. -/
def checks : List Check :=
  [⟨"Exact addition", "0.1 + 0.2", .text "0.3"⟩,
    ⟨"Operator precedence", "1 + 2 * 3", .text "7"⟩,
    ⟨"Right-associative power", "2 ** 3 ** 2", .text "512"⟩,
    ⟨"Comparison", "1 == 1.0", .truth true⟩]

/-- The content of an answer that is a value. -/
def resultOf? : Answer → Option Field
  | .number numeral _ => some (.text numeral)
  | .truth b => some (.truth b)
  | .refusal .. => none

/-- What was tested so far: the lines, how many tests passed and failed, what was reported,
and the session. -/
structure Health where
  output : String
  passed : Nat
  failed : Nat
  events : List Event
  session : Session

namespace Health

/-- One more test: a line if it passed, and one for another answer. -/
def test (h : Health) (source : String) (expected : Field) (good : String)
    (bad : String → String) : Health :=
  let reply := h.session.answer (.text source) .none .none
  let events := h.events ++ reply.events
  if resultOf? reply.answer = some expected then
    { h with output := h.output ++ "[OK] " ++ good ++ "\n", passed := h.passed + 1, events,
             session := reply.session }
  else
    let got := Field.shownObject reply.answer.fields
    { h with output := h.output ++ "[FAIL] " ++ bad got ++ "\n", failed := h.failed + 1, events,
             session := reply.session }

/-- A line between the parts of the output. -/
def rule : String := String.ofList (List.replicate 50 '-') ++ "\n"

/-- The library for symbolic numbers is always there, in a version that is not told. -/
def start (session : Session) : Health :=
  ⟨"Running Desimal health check...\n" ++ rule ++
    "[OK] SymPy <version> imported successfully\n", 1, 0, [], session⟩

/-- All tests. -/
def run (session : Session) : Run :=
  let h := checks.foldl (fun h check =>
    h.test check.source check.expected (check.label ++ " works") fun got =>
      check.label ++ " failed: expected " ++ check.expected.shown ++ ", got " ++ got)
    (start session)
  let h := h.test "4 ** 0.5 > 1.9999" (.truth true) "Fractional exponentiation works" fun got =>
    "Fractional exponentiation failed: " ++ got
  let summary := "Health check: " ++ natText h.passed ++ " passed, " ++ natText h.failed ++
    " failed\n"
  ⟨if h.failed = 0 then 0 else 1, h.output ++ rule ++ summary, h.events, h.session⟩

end Health

/-- The text that explains the command line. -/
def usageText : String :=
  "usage: desimal [-h] [-e EVAL_EXPR] [--format \x7bjson,human\x7d] [-p PRECISION]\n" ++
  "               [--rounding \x7btruncate,half_away\x7d] [--scientific] [--explain]\n" ++
  "               [-v] [--log-level \x7bDEBUG,INFO,WARNING,ERROR\x7d]\n" ++
  "               [--log-file LOG_FILE] [--health-check]\n"

/-- One expression, answered or explained. -/
def runExpression (o : Options) (session : Session) (source : Value) : Run :=
  if o.explain then
    match explained session.context.settings source with
    | .ok text => ⟨0, text ++ "\n", [], session⟩
    | .error e => ⟨1, errorLine e, [], session⟩
  else
    let reply := session.answer source .none o.rounding
    let style : Style := ⟨o.format, o.scientific⟩
    ⟨if reply.answer.isValue then 0 else 1, style.print reply.answer, reply.events,
      reply.session⟩

/-- The session with the precision of the options in force. -/
def Options.session (o : Options) (session : Session) : Except Failure Session :=
  match o.precision with
  | .none => .ok session
  | p => session.setPrecision p

/-- What a command line leads to: a run that needs no input, or the console. -/
inductive Plan where
  | finished (run : Run)
  | console (c : Console) (session : Session)

/-- What the options ask for.  The version comes before everything else, and a precision
that is none ends the program. -/
def Options.plan (o : Options) (session : Session) : Plan :=
  if o.version then .finished ⟨0, programVersion ++ "\n", [], session⟩
  else
    match o.session session with
    | .error e => .finished ⟨2, "Error: " ++ e.message ++ "\n", [], session⟩
    | .ok session =>
      if o.healthCheck then .finished (Health.run session)
      else
        match o.expression with
        | .none => .console ⟨⟨o.format, o.scientific⟩, o.rounding⟩ session
        | source => .finished (runExpression o session source)

/-- The run that the options ask for, on an input. -/
def Options.run (o : Options) (session : Session) (input : String) : Run :=
  match o.plan session with
  | .finished run => run
  | .console c session => c.run session input

/-- The log that the options ask for. -/
def Options.log (o : Options) : Except Failure Log.Setup :=
  Log.Setup.ofLevel o.logLevel o.logFile.isSome

/-- The log records of events that a log writes. -/
def writtenRecords (log : Log.Setup) (events : List Event) : List Log.Record :=
  (events.map Event.record).filter log.writes

/-- The program: its run, and the records of its log.  The log is set up before anything
else is done. -/
def program (args : List String) (input : String) (session : Session) :
    Except Failure (Run × List Log.Record) :=
  match Options.ofArguments args with
  | .error .help => .ok (⟨0, usageText, [], session⟩, [])
  | .error .invalid => .ok (⟨2, "", [], session⟩, [])
  | .ok o => do
    let log ← o.log
    let run := o.run session input
    return (run, writtenRecords log run.events)

end DecimalCalc.CommandLine
