import DecimalCalc.Expression.Parser
/-!
# Reading without a check

Parentheses are matched, and tokens and trees are read, also where nothing made sure that
the source is a text.  A list has items where a text has characters; the empty list and
the empty table are read like the empty text, and every other value is a fault.
-/

namespace DecimalCalc

namespace Brackets

/-- An item as a character, as far as parentheses matter. -/
def itemChar : Value → Char
  | .text "(" => '('
  | .text ")" => ')'
  | _ => ' '

/-- The place of the first parenthesis without a partner among the characters or items of a
value. -/
def unpairedIn (v : Value) : Except Failure (Option Nat) :=
  match v with
  | .text source => .ok (unpaired? source)
  | .list vs => .ok (unpairedFrom? 0 [] (vs.map itemChar))
  | .emptyTable => .ok none
  | v => .error (.fault (.notIterable v.qualifiedTypeName))

end Brackets

/-- The tokens of a value. -/
def Token.ofValue (s : Settings) (v : Value) : Except Failure (List Token) :=
  match v with
  | .text source => (ofSource s source).mapError .error
  | .list [] | .emptyTable => .ok []
  | .list _ => .error (.fault (.notText v.qualifiedTypeName))
  | v => .error (.fault (.noLength v.qualifiedTypeName))

/-- The tree of a value without the checks. -/
def Tree.ofUncheckedValue (s : Settings) (v : Value) : Except Failure Tree :=
  match v with
  | .text source => (ofUnchecked s source).mapError .error
  | v => do
    let ts ← Token.ofValue s v
    (ofTokens s 0 ts).mapError .error

end DecimalCalc
