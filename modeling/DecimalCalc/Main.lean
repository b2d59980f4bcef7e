import DecimalCalc.CommandLine.Program
import DecimalCalc.Log.Moment
import Std.Time.DateTime.Timestamp
/-!
# The executable

The outer layer of the program: it reads the environment, the arguments and the
lines of the console, and writes what the library answers.
-/

namespace DecimalCalc.CommandLine

/-- Writes log records with the present time to standard error, and to a file if there is
one. -/
def writeLog (file? : Option String) (records : List Log.Record) : IO Unit := do
  if records.isEmpty then return
  let now ← Std.Time.Timestamp.now
  let moment := Log.Moment.ofMilliseconds now.toMillisecondsSinceUnixEpoch.val
  for r in records do
    match moment.line r.level.name r.logger r.message with
    | .error failure => IO.eprintln failure.message
    | .ok line =>
      IO.eprintln line
      if let some file := file? then
        let handle ← IO.FS.Handle.mk file .append
        handle.putStrLn line

/-- The next line of standard input, and the lines after it that are there already: a carriage
return ends a line too, and is read with what follows up to a line feed. -/
def nextLine (waiting : List String) : IO (Option (String × List String)) := do
  match waiting with
  | line :: waiting => return some (line, waiting)
  | [] =>
    match inputLines (← (← IO.getStdin).getLine) with
    | line :: waiting => return some (line, waiting)
    | [] => return none

/-- The console on standard input, line by line. -/
partial def interact (o : Options) (log : Log.Setup) (c : Console) (session : Session)
    (waiting : List String) : IO UInt32 := do
  let output ← IO.getStdout
  output.putStr prompt
  output.flush
  let some (line, waiting) ← nextLine waiting
    | output.putStrLn ""
      return 0
  match c.respond session line with
  | .leave => return 0
  | .abort => return 1
  | .print text events session =>
    writeLog o.logFile (writtenRecords log events)
    output.putStr text
    output.flush
    interact o log c session waiting

/-- The program for given arguments. -/
def start (args : List String) : IO UInt32 := do
  let env ← Settings.variableNames.filterMapM fun name => do
    return (← IO.getEnv name).map (name, ·)
  match Session.ofEnvironment env, Options.ofArguments args with
  | .error e, _ =>
    IO.eprintln e.message
    return 1
  | _, .error .help =>
    IO.print usageText
    return 0
  | _, .error .invalid =>
    IO.eprint usageText
    return 2
  | .ok session, .ok o =>
    match o.log with
    | .error e =>
      IO.eprintln e.message
      return 1
    | .ok log =>
      match o.plan session with
      | .finished run =>
        writeLog o.logFile (writtenRecords log run.events)
        IO.print run.output
        return run.exit.toUInt32
      | .console c session =>
        IO.print banner
        interact o log c session []

end DecimalCalc.CommandLine

def main (args : List String) : IO UInt32 :=
  DecimalCalc.CommandLine.start args
