import DecimalCalc.CommandLine.Options
import DecimalCalc.Report.Basic
import DecimalCalc.Session.Basic
/-!
# The console

The console reads a line, answers it, and reads the next until it is told to
stop or the lines end.  A line is a command if its first word is one, and an
expression otherwise; blank lines are passed over.  Only the command that sets
the precision changes what later lines answer.
-/

namespace DecimalCalc.CommandLine

open Text Numeral

/-- How answers are printed: their format, and whether numbers are scientific. -/
structure Style where
  format : Format
  scientific : Bool
deriving DecidableEq, Repr

/-- An answer as it is printed. -/
def Style.print (style : Style) (a : Answer) : String :=
  match style.format with
  | .json => Field.jsonObject a.fields ++ "\n"
  | .human =>
    match a with
    | .number numeral scientific => (if style.scientific then scientific else numeral) ++ "\n"
    | .truth b => (if b then "true" else "false") ++ "\n"
    | .refusal message _ => "Error: " ++ message ++ "\n"

/-- The grouping of an expression as it is printed, or the error in it. -/
def explained (s : Settings) (source : Value) : Except Error String :=
  (Tree.ofValue s source).map fun (_, tree) => tree.parenthesized

/-- An error as it is printed. -/
def errorLine (e : Error) : String := "Error: " ++ e.message ++ "\n"

/-- What a console session holds on to: how answers are printed and how quotients are
rounded. -/
structure Console where
  style : Style
  rounding : Value

/-- What a line leads to. -/
inductive Turn where
  /-- Something is printed and the session goes on. -/
  | print (output : String) (events : List Event) (session : Session)
  /-- The user leaves. -/
  | leave
  /-- The precision in force is too long to be printed, which ends the program. -/
  | abort
deriving DecidableEq, Repr

/-- The commands of the console. -/
inductive Command where
  | help
  | showPrecision
  | setPrecision (text : String)
  | explain (source : String)
  /-- A word that leaves when it stands alone, with more after it. -/
  | ignored
deriving DecidableEq, Repr

namespace Command

/-- The command of a line, if its first word is one.  A space ends the word, and what
follows is stripped. -/
def ofLine? (line : String) : Option Command :=
  let cs := line.toList
  let word := String.ofList (cs.takeWhile (· != ' '))
  let rest := strip (String.ofList ((cs.dropWhile (· != ' ')).drop 1))
  match word with
  | "help" => some help
  | "precision" => some (if rest = "" then showPrecision else setPrecision rest)
  | "explain" => some (explain rest)
  | "quit" | "exit" => some ignored
  | _ => none

end Command

/-- The text that explains the console. -/
def helpText : String :=
  "Enter an expression to evaluate, e.g. 0.1 + 0.2 or 2 ** 0.5 > 1.41\n" ++
  "Operators: + - * / ** (or ^) == != < > <= >=\n" ++
  "Commands:\n" ++
  "  precision        show the division precision\n" ++
  "  precision N      set the division precision (negative integer)\n" ++
  "  explain EXPR     show how EXPR is grouped\n" ++
  "  help             show this text\n" ++
  "  quit, exit       leave\n"

namespace Console

/-- What setting the precision to a text prints, and the session after it. -/
def setPrecision (session : Session) (text : String) : Turn :=
  match readBounded text with
  | .error _ =>
    .print ("Error: precision must be an integer, got " ++ quoted text ++ "\n") [] session
  | .ok p =>
    match session.setPrecision (.int p) with
    | .ok session => .print ("Precision set to " ++ intText p ++ "\n") [] session
    | .error e => .print ("Error: " ++ e.message ++ "\n") [] session

/-- What a command leads to. -/
def obey (session : Session) : Command → Turn
  | .help => .print helpText [] session
  | .showPrecision =>
    match shownInt session.context.precision with
    | .ok text => .print ("Precision: " ++ text ++ "\n") [] session
    | .error _ => .abort
  | .setPrecision text => setPrecision session text
  | .explain source =>
    match explained session.context.settings (.text source) with
    | .ok text => .print (text ++ "\n") [] session
    | .error e => .print (errorLine e) [] session
  | .ignored => .print "" [] session

/-- What a line leads to. -/
def respond (c : Console) (session : Session) (line : String) : Turn :=
  let line := strip line
  if line = "" then .print "" [] session
  else if line = "quit" ∨ line = "exit" then .leave
  else
    match Command.ofLine? line with
    | some command => obey session command
    | none =>
      let reply := session.answer (.text line) .none c.rounding
      .print (c.style.print reply.answer) reply.events reply.session

end Console

/-- What a run of the program printed and reported, its exit code, and the session it
leaves. -/
structure Run where
  exit : Nat
  output : String
  events : List Event
  session : Session
deriving DecidableEq, Repr

/-- What the console shows before it reads a line. -/
def prompt : String := ">>> "

/-- The version of the program. -/
def programVersion : String := "1.0.0"

/-- The first line of the console. -/
def banner : String :=
  "Desimal " ++ programVersion ++ ". Type 'help' for help, 'quit' to exit.\n"

/-- The lines of a text, of the first of which some characters were read already, the last one
first.  A carriage return, a line feed, or one of each in this order ends a line; the last line
needs no end. -/
def linesFrom (read : List Char) : List Char → List (List Char)
  | [] => if read = [] then [] else [read.reverse]
  | '\r' :: '\n' :: cs => read.reverse :: linesFrom [] cs
  | '\r' :: cs | '\n' :: cs => read.reverse :: linesFrom [] cs
  | c :: cs => linesFrom (c :: read) cs

/-- The lines of an input. -/
def inputLines (input : String) : List String :=
  (linesFrom [] input.toList).map String.ofList

/-- The console on lines, after what was printed already.  The end of the lines ends it as
leaving does. -/
def Console.runFrom (c : Console) (session : Session) : List String → Run
  | [] => ⟨0, prompt ++ "\n", [], session⟩
  | line :: lines =>
    match c.respond session line with
    | .leave => ⟨0, prompt, [], session⟩
    | .abort => ⟨1, prompt, [], session⟩
    | .print output events session =>
      let after := c.runFrom session lines
      { after with output := prompt ++ output ++ after.output, events := events ++ after.events }

/-- The console on an input. -/
def Console.run (c : Console) (session : Session) (input : String) : Run :=
  let after := c.runFrom session (inputLines input)
  { after with output := banner ++ after.output }

end DecimalCalc.CommandLine
