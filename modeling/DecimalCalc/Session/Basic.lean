import DecimalCalc.Expression.Evaluation
/-!
# Sessions

A question is a source with a precision and a rounding mode.  Its answer is a
number in plain and scientific notation, a truth value, or a refusal with a
message and a code, so every question has one.

The cache keeps the answers to the questions that were asked last, up to its
capacity.  A question that is found again counts as asked last, and where there
is no room the answer that was not asked for the longest goes.

A session is what a program run carries from one request to the next: the
context, in which only the precision changes, and the cache.  The cache decides
what is reported, never what is answered.
-/

namespace DecimalCalc

/-! ## Questions and answers -/

/-- A source to be computed, with everything that its value depends on. -/
structure Question where
  source : String
  precision : Int
  rounding : Rounding
deriving DecidableEq, Repr

/-- The answer to a question. -/
inductive Answer where
  | number (numeral scientific : String)
  | truth (b : Bool)
  | refusal (message code : String)
deriving DecidableEq, Repr

namespace Answer

/-- A value as an answer. -/
def ofDatum : Datum → Answer
  | .number d => number d.plainText d.scientificText
  | .truth b => truth b

/-- A failure as an answer: a known cause is named, a fault is not. -/
def ofFailure : Failure → Answer
  | .error e => refusal e.message e.code
  | .fault _ => refusal "Unexpected evaluation error" "INTERNAL_ERROR"

/-- Whether an answer is a value. -/
def isValue : Answer → Bool
  | refusal .. => false
  | _ => true

end Answer

/-- What is reported of a failure. -/
def Failure.event (source : String) : Failure → Event
  | .error e => .evaluationFailed source e
  | .fault f => .evaluationFaulted source f

namespace Question

/-- The question that a caller asks about a source, with the defaults of the context. -/
def ask (ctx : Context) (source : String) (precision rounding : Value) :
    Except Failure Question := do
  let p ← ctx.resolvePrecision precision
  let mode ← ctx.resolveRounding rounding
  return ⟨source, p, mode⟩

/-- The value that a question asks for. -/
def compute (ctx : Context) (q : Question) : Traced Datum :=
  DecimalCalc.compute ctx (.text q.source) (.int q.precision) (.text q.rounding.name)

end Question

/-! ## The cache -/

/-- Questions with their answers, the one asked last in front. -/
structure Cache where
  capacity : Nat
  entries : List (Question × Answer)
deriving DecidableEq, Repr

namespace Cache

/-- A cache without answers.  A capacity below zero is none. -/
def empty (size : Int) : Cache := ⟨size.toNat, []⟩

/-- The answer to a question, if it is kept. -/
def get? (c : Cache) (q : Question) : Option Answer := c.entries.lookup q

/-- The cache after a question was found: its answer is the last one asked for. -/
def touch (c : Cache) (q : Question) (a : Answer) : Cache :=
  { c with entries := (q, a) :: c.entries.filter (·.1 ≠ q) }

/-- The cache with one more answer, cut to its capacity. -/
def insert (c : Cache) (q : Question) (a : Answer) : Cache :=
  { c with entries := ((q, a) :: c.entries).take c.capacity }

/-- The cache without its answers. -/
def clear (c : Cache) : Cache := { c with entries := [] }

end Cache

/-! ## Sessions -/

/-- The state of a program run. -/
structure Session where
  context : Context
  cache : Cache
deriving DecidableEq, Repr

/-- The answer to a request, what was reported, and the session after it. -/
structure Reply where
  answer : Answer
  events : List Event
  session : Session
deriving DecidableEq, Repr

namespace Session

/-- The session at the start of a program with some settings. -/
def start (settings : Settings) : Session :=
  ⟨Context.initial settings, Cache.empty settings.cacheSize⟩

/-- The session of a program in an environment, if its settings can be read. -/
def ofEnvironment (env : List (String × String)) : Except Failure Session :=
  (Settings.ofEnvironment env).map start

/-- The session with another precision in force, if the value is one. -/
def setPrecision (s : Session) (v : Value) : Except Failure Session := do
  let p ← validatePrecision v
  return { s with context := { s.context with precision := p } }

/-- The session with an empty cache. -/
def clearCache (s : Session) : Session := { s with cache := s.cache.clear }

/-- The answer to a question from the cache, or else computed; values are kept there. -/
def consult (s : Session) (q : Question) : Reply :=
  match s.cache.get? q with
  | some a => ⟨a, [], { s with cache := s.cache.touch q a }⟩
  | none =>
    let t := q.compute s.context
    match t.outcome with
    | .ok v =>
      let a := Answer.ofDatum v
      ⟨a, t.events, { s with cache := s.cache.insert q a }⟩
    | .error e => ⟨.ofFailure e, t.events ++ [e.event q.source], s⟩

/-- The answer to a request, which may be about any value. -/
def answer (s : Session) (source precision rounding : Value) : Reply :=
  match source with
  | .text source =>
    match Question.ask s.context source precision rounding with
    | .ok q => s.consult q
    | .error e => ⟨.ofFailure e, [e.event source], s⟩
  | v => ⟨.ofFailure (.error (.sourceNotText v.typeName)), [], s⟩

end Session

end DecimalCalc
