import DecimalCalc.Session.Basic
import DecimalCalc.Text.Quoted
/-!
# Reports

An answer is given to other programs as named fields in a fixed order, each a
text or a truth value.  Fields are written as a JSON object of two spaces'
indentation, or in one line in braces.

A report is an answer as a record whose fields may be missing, for callers that
look at one field after the other.
-/

namespace DecimalCalc

open Text

/-! ## Fields -/

/-- The content of a field. -/
inductive Field where
  | text (s : String)
  | truth (b : Bool)
deriving DecidableEq, Repr

namespace Field

/-- One character of a JSON string: the quote, the backslash and controls are escaped. -/
def jsonChar (c : Char) : List Char :=
  if c = '"' ∨ c = '\\' then ['\\', c]
  else if c = '\n' then ['\\', 'n']
  else if c = '\r' then ['\\', 'r']
  else if c = '\t' then ['\\', 't']
  else if c.toNat = 0x08 then ['\\', 'b']
  else if c.toNat = 0x0C then ['\\', 'f']
  else if c.toNat < 0x20 then '\\' :: 'u' :: hexDigits 4 c.toNat
  else [c]

/-- A text as a JSON string. -/
def jsonString (s : String) : String :=
  String.ofList ('"' :: s.toList.flatMap jsonChar ++ ['"'])

/-- A content as a JSON value. -/
def json : Field → String
  | text s => jsonString s
  | truth b => if b then "true" else "false"

/-- A content as messages show it. -/
def shown : Field → String
  | text s => quoted s
  | truth b => if b then "True" else "False"

/-- Fields as a JSON object, one to a line. -/
def jsonObject (fields : List (String × Field)) : String :=
  let lines := fields.map fun (name, field) => "  " ++ jsonString name ++ ": " ++ field.json
  "\x7b\n" ++ ",\n".intercalate lines ++ "\n\x7d"

/-- Fields in braces, as messages show them. -/
def shownObject (fields : List (String × Field)) : String :=
  let items := fields.map fun (name, field) => quoted name ++ ": " ++ field.shown
  "\x7b" ++ ", ".intercalate items ++ "\x7d"

end Field

/-- The fields of an answer. -/
def Answer.fields : Answer → List (String × Field)
  | number numeral scientific =>
    [("ok", .truth true), ("type", .text "number"), ("result", .text numeral),
      ("scientific", .text scientific)]
  | truth b => [("ok", .truth true), ("type", .text "boolean"), ("result", .truth b)]
  | refusal message code =>
    [("ok", .truth false), ("error", .text message), ("code", .text code)]

/-! ## Records -/

/-- An answer as a record. -/
structure Report where
  ok : Bool
  result : Option Field := none
  resultType : Option String := none
  scientific : Option String := none
  error : Option String := none
  code : Option String := none
deriving DecidableEq, Repr

namespace Report

/-- The fields that are there. -/
def fields (r : Report) : List (String × Field) :=
  [("ok", some (.truth r.ok)), ("result", r.result), ("type", r.resultType.map .text),
    ("scientific", r.scientific.map .text), ("error", r.error.map .text),
    ("code", r.code.map .text)].filterMap fun (name, field?) => field?.map (name, ·)

/-- A field as a report shows it. -/
def shownField (field? : Option Field) : String :=
  match field? with
  | some field => field.shown
  | none => "None"

/-- A report in one line: its error and code, or its result with what else is there. -/
def shown (r : Report) : String :=
  let parts :=
    if r.ok then
      ["ok=True", "result=" ++ shownField r.result] ++
        (r.resultType.map fun s => "result_type=" ++ quoted s).toList ++
        (r.scientific.map fun s => "scientific=" ++ quoted s).toList
    else
      ["ok=False", "error=" ++ shownField (r.error.map .text),
        "code=" ++ shownField (r.code.map .text)]
  "EvalResult(" ++ ", ".intercalate parts ++ ")"

/-- The report of an answer. -/
def ofAnswer : Answer → Report
  | .number numeral scientific =>
    { ok := true, result := some (.text numeral), resultType := some "number",
      scientific := some scientific }
  | .truth b => { ok := true, result := some (.truth b), resultType := some "boolean" }
  | .refusal message code => { ok := false, error := some message, code := some code }

/-- The report of a number. -/
def ofDecimal (d : Decimal) : Report := ofAnswer (.number d.plainText d.scientificText)

/-- The report of something refused. -/
def refused (message code : String) : Report := ofAnswer (.refusal message code)

end Report

end DecimalCalc
