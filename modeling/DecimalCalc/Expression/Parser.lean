import DecimalCalc.Expression.Lexer
/-!
# From tokens to a tree

The grammar, from the loosest rule to the tightest:

    comparison := additive (("==" | "!=" | "<" | ">" | "<=" | ">=") additive)*
    additive   := term (("+" | "-") term)*
    term       := power (("*" | "/") power)*
    power      := unary ("**" power)?
    unary      := ("-" | "+") unary | atom
    atom       := NUMBER | "(" comparison ")"

Chains lean to the left, powers to the right.  Every way back from a tight rule
to a loose one opens a construct: a parenthesis, a sign, or the right operand of
a power.  So the rules are given level by level (`Rules.ofDepth`), the rules of
one level in terms of those one level deeper, and the number of levels is the
limit on the constructs that are open at once.

Before that, parentheses are matched on the characters: a closing one belongs to
the last opening one that has no partner yet, and the first one without a
partner is the place where a text is unbalanced.
-/

namespace DecimalCalc

/-! ## Parentheses -/

namespace Brackets

/-- The first parenthesis without a partner in a text that begins at a position, where
the open ones before it are given, the last one first. -/
def unpairedFrom? : (position : Nat) → (opened : List Nat) → List Char → Option Nat
  | _, opened, [] => opened.getLast?
  | position, opened, '(' :: cs => unpairedFrom? (position + 1) (position :: opened) cs
  | position, [], ')' :: _ => some position
  | position, _ :: opened, ')' :: cs => unpairedFrom? (position + 1) opened cs
  | position, opened, _ :: cs => unpairedFrom? (position + 1) opened cs

/-- The place of the first parenthesis without a partner; none if the text is balanced. -/
def unpaired? (source : String) : Option Nat :=
  unpairedFrom? 0 [] source.toList

end Brackets

/-! ## Rules -/

/-- Why a reading of tokens ends without a result. -/
inductive Stop where
  /-- The first of the remaining tokens does not belong here, or there is none. -/
  | stuck (rest : List Token)
  /-- A construct is opened on the deepest level. -/
  | tooDeep
deriving DecidableEq, Repr

/-- A rule reads a tree off the front of a list of tokens and leaves the others. -/
abbrev Reader := List Token → Except Stop (Tree × List Token)

namespace Reader

/-- Further operands of a chain, joined to the tree before them from the left.  Each step
takes tokens away, so as many steps as there are tokens are enough. -/
def chainFrom (operand : Reader) (joins : Operator → Bool) : (steps : Nat) → Tree → Reader
  | 0, tree, ts => .ok (tree, ts)
  | steps + 1, tree, ts =>
    match ts with
    | ⟨.operator op, _⟩ :: rest =>
      if joins op then do
        let (right, rest) ← operand rest
        chainFrom operand joins steps (.binary op tree right) rest
      else .ok (tree, ts)
    | _ => .ok (tree, ts)

/-- Operands joined by operators of one class, leaning to the left. -/
def chain (operand : Reader) (joins : Operator → Bool) : Reader := fun ts => do
  let (tree, rest) ← operand ts
  chainFrom operand joins rest.length tree rest

end Reader

/-- The tree of a minus sign in front of an operand: a number takes the sign itself. -/
def Tree.negated : Tree → Tree
  | .number d => .number d.neg
  | t => .negate t

/-- The rules that a construct can lead back to. -/
structure Rules where
  comparison : Reader
  power : Reader
  unary : Reader

namespace Rules

/-- The rules below the deepest level. -/
def closed : Rules := ⟨fun _ => .error .tooDeep, fun _ => .error .tooDeep, fun _ => .error .tooDeep⟩

/-- A number, or a comparison in parentheses. -/
def atom (deeper : Rules) : Reader
  | ⟨.number _ value, _⟩ :: rest => .ok (.number value, rest)
  | ⟨.leftParen, _⟩ :: rest => do
    let (tree, rest) ← deeper.comparison rest
    match rest with
    | ⟨.rightParen, _⟩ :: rest => .ok (tree, rest)
    | rest => .error (.stuck rest)
  | ts => .error (.stuck ts)

/-- An atom with any number of signs in front. -/
def signed (deeper : Rules) : Reader
  | ⟨.operator .sub, _⟩ :: rest => do
    let (tree, rest) ← deeper.unary rest
    return (tree.negated, rest)
  | ⟨.operator .add, _⟩ :: rest => deeper.unary rest
  | ts => deeper.atom ts

/-- A signed atom, or a power of it. -/
def powers (deeper : Rules) : Reader := fun ts => do
  let (base, rest) ← deeper.signed ts
  match rest with
  | ⟨.operator .pow, _⟩ :: rest =>
    let (exponent, rest) ← deeper.power rest
    return (.binary .pow base exponent, rest)
  | rest => return (base, rest)

/-- Comparisons of sums of products of powers. -/
def comparisons (deeper : Rules) : Reader :=
  ((deeper.powers.chain Operator.isMultiplicative).chain Operator.isAdditive).chain
    Operator.isComparison

/-- The rules of a level, given those one level deeper. -/
def above (deeper : Rules) : Rules := ⟨deeper.comparisons, deeper.powers, deeper.signed⟩

/-- The rules of a level below which so many constructs can be open.  A deeper level is made
only when a construct leads to it, so the limit may be far above what a source needs. -/
def ofDepth : Nat → Rules
  | 0 => closed.above
  | depth + 1 =>
    ⟨fun ts => (ofDepth depth).above.comparison ts, fun ts => (ofDepth depth).above.power ts,
      fun ts => (ofDepth depth).above.unary ts⟩

theorem ofDepth_succ (depth : Nat) : ofDepth (depth + 1) = (ofDepth depth).above := rfl

end Rules

namespace Tree

/-- The tree of a list of tokens, taken from a source of so many characters. -/
def ofTokens (s : Settings) (length : Nat) (ts : List Token) : Except Error Tree :=
  if ts = [] then .error .emptyExpression
  else
    let result := do
      let (tree, rest) ← (Rules.ofDepth s.maxDepth.toNat).comparison ts
      if rest = [] then return tree else throw (Stop.stuck rest)
    match result with
    | .ok tree => .ok tree
    | .error .tooDeep => .error (.tooDeep s.maxDepth)
    | .error (.stuck []) =>
      .error (.unexpectedEnd ((ts.getLast?.map (·.lexeme.text)).getD "") length)
    | .error (.stuck (t :: _)) => .error (.unexpectedToken t.lexeme.text t.position)

end Tree

/-- Checks a source before it is cut into tokens: its length, that it is not blank, and
its parentheses. -/
def checkSource (s : Settings) (source : String) : Except Error String :=
  if s.maxInputLength < source.length then .error (.sourceTooLong s.maxInputLength)
  else if source.toList.all Text.isBlank then .error .emptyExpression
  else
    match Brackets.unpaired? source with
    | some position => .error (.unbalanced position)
    | none => .ok source

/-- The tree of a source without the checks. -/
def Tree.ofUnchecked (s : Settings) (source : String) : Except Error Tree := do
  let ts ← Token.ofSource s source
  ofTokens s source.length ts

/-- The tree of a source. -/
def Tree.ofSource (s : Settings) (source : String) : Except Error Tree := do
  let source ← checkSource s source
  ofUnchecked s source

/-- The text that a value is, if it is one. -/
def sourceText (v : Value) : Except Error String :=
  match v with
  | .text source => .ok source
  | v => .error (.sourceNotText v.typeName)

/-- The source that a value is, and its tree. -/
def Tree.ofValue (s : Settings) (v : Value) : Except Error (String × Tree) := do
  let source ← sourceText v
  let tree ← ofSource s source
  return (source, tree)

end DecimalCalc
