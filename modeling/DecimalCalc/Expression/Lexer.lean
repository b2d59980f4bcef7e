import DecimalCalc.Decimal.Literal
import DecimalCalc.Expression.Tree
import DecimalCalc.Settings
/-!
# From characters to tokens

A token is a number with its literal, a parenthesis, or an operator, at a place
in the source that is counted in characters.

At each place of the source the longest piece of one class is taken: a run of
white space, a number, a parenthesis, an operator, or the modulo sign, which is
reserved.  Where no piece begins, the unexpected text goes on to the next place
where one does.
-/

namespace DecimalCalc

/-! ## Tokens -/

/-- What a token is. -/
inductive Lexeme where
  /-- A literal and the normal form of its number. -/
  | number (literal : String) (value : Decimal)
  | leftParen
  | rightParen
  | operator (op : Operator)
deriving DecidableEq, Repr

namespace Lexeme

/-- The text of a lexeme; the power operator has one text for its two spellings. -/
def text : Lexeme → String
  | number literal _ => literal
  | leftParen => "("
  | rightParen => ")"
  | operator op => op.name

/-- The number of a literal. -/
def value? : Lexeme → Option Decimal
  | number _ value => some value
  | _ => none

/-- The class of a lexeme. -/
def kindName : Lexeme → String
  | number .. => "number"
  | leftParen | rightParen => "paren"
  | operator _ => "operator"

end Lexeme

/-- A lexeme and where it begins. -/
structure Token where
  lexeme : Lexeme
  position : Nat
deriving DecidableEq, Repr

/-! ## Pieces -/

open Text

/-- The classes of pieces of the source. -/
inductive PieceKind where
  | blank
  | number
  | leftParen
  | rightParen
  | operator (op : Operator)
  | modulo
deriving DecidableEq, Repr

/-- A piece at the beginning of a text, and the text after it. -/
structure Piece where
  kind : PieceKind
  text : List Char
  rest : List Char
deriving DecidableEq, Repr

namespace Piece

/-- A point and the digits after it, if there are both. -/
def splitFraction : List Char → List Char × List Char
  | '.' :: rest =>
    let ds := rest.takeWhile isDigit
    if ds = [] then ([], '.' :: rest) else ('.' :: ds, rest.dropWhile isDigit)
  | cs => ([], cs)

/-- A sign, if there is one. -/
def splitSign : List Char → List Char × List Char
  | '+' :: rest => (['+'], rest)
  | '-' :: rest => (['-'], rest)
  | cs => ([], cs)

/-- The letter of a power of ten with a sign and digits after it, if there are digits. -/
def splitPower : List Char → List Char × List Char
  | [] => ([], [])
  | c :: rest =>
    let (sign, rest') := splitSign rest
    let ds := rest'.takeWhile isDigit
    if (c = 'e' ∨ c = 'E') ∧ ds ≠ [] then (c :: sign ++ ds, rest'.dropWhile isDigit)
    else ([], c :: rest)

/-- A number at the beginning of a text that begins with a digit. -/
def number (cs : List Char) : Piece :=
  let whole := cs.takeWhile isDigit
  let (fraction, rest) := splitFraction (cs.dropWhile isDigit)
  let (power, rest) := splitPower rest
  ⟨.number, whole ++ fraction ++ power, rest⟩

/-- An operator at the beginning of a text, those of two characters first. -/
def operator? : List Char → Option Piece
  | '*' :: '*' :: rest => some ⟨.operator .pow, ['*', '*'], rest⟩
  | '=' :: '=' :: rest => some ⟨.operator .eq, ['=', '='], rest⟩
  | '!' :: '=' :: rest => some ⟨.operator .ne, ['!', '='], rest⟩
  | '<' :: '=' :: rest => some ⟨.operator .le, ['<', '='], rest⟩
  | '>' :: '=' :: rest => some ⟨.operator .ge, ['>', '='], rest⟩
  | '-' :: rest => some ⟨.operator .sub, ['-'], rest⟩
  | '+' :: rest => some ⟨.operator .add, ['+'], rest⟩
  | '*' :: rest => some ⟨.operator .mul, ['*'], rest⟩
  | '/' :: rest => some ⟨.operator .div, ['/'], rest⟩
  | '^' :: rest => some ⟨.operator .pow, ['^'], rest⟩
  | '<' :: rest => some ⟨.operator .lt, ['<'], rest⟩
  | '>' :: rest => some ⟨.operator .gt, ['>'], rest⟩
  | _ => none

/-- The piece at the beginning of a text. -/
def first? : List Char → Option Piece
  | [] => none
  | c :: cs =>
    if isBlank c then some ⟨.blank, c :: cs.takeWhile isBlank, cs.dropWhile isBlank⟩
    else if isDigit c then some (number (c :: cs))
    else if c = '(' then some ⟨.leftParen, ['('], cs⟩
    else if c = ')' then some ⟨.rightParen, [')'], cs⟩
    else if c = '%' then some ⟨.modulo, ['%'], cs⟩
    else operator? (c :: cs)

/-- The text up to the first place where a piece begins. -/
def stray : List Char → List Char
  | [] => []
  | c :: cs => if (first? (c :: cs)).isSome then [] else c :: stray cs

theorem splitFraction_append (cs : List Char) :
    (splitFraction cs).1 ++ (splitFraction cs).2 = cs := by
  unfold splitFraction
  split
  · dsimp only
    split <;> simp [List.takeWhile_append_dropWhile]
  · rfl

theorem splitSign_append (cs : List Char) : (splitSign cs).1 ++ (splitSign cs).2 = cs := by
  unfold splitSign
  split <;> rfl

theorem splitPower_append (cs : List Char) : (splitPower cs).1 ++ (splitPower cs).2 = cs := by
  cases cs with
  | nil => rfl
  | cons c rest =>
    have h := splitSign_append rest
    rw [splitPower]
    dsimp only
    split
    · simp only [List.cons_append, List.append_assoc, List.takeWhile_append_dropWhile, h]
    · rfl

/-- A number and the text after it make up the whole text. -/
theorem number_append (cs : List Char) : (number cs).text ++ (number cs).rest = cs := by
  have hf := splitFraction_append (cs.dropWhile isDigit)
  have hp := splitPower_append (splitFraction (cs.dropWhile isDigit)).2
  change cs.takeWhile isDigit ++ (splitFraction (cs.dropWhile isDigit)).1
    ++ (splitPower (splitFraction (cs.dropWhile isDigit)).2).1
    ++ (splitPower (splitFraction (cs.dropWhile isDigit)).2).2 = cs
  rw [List.append_assoc, hp, List.append_assoc, hf, List.takeWhile_append_dropWhile]

theorem operator?_append {cs : List Char} {p : Piece} (h : operator? cs = some p) :
    p.text ++ p.rest = cs ∧ p.text ≠ [] := by
  unfold operator? at h
  split at h <;> simp_all <;> (subst h; simp)

/-- A piece is not empty, and with the text after it makes up the whole text. -/
theorem first?_append {cs : List Char} {p : Piece} (h : first? cs = some p) :
    p.text ++ p.rest = cs ∧ p.text ≠ [] := by
  unfold first? at h
  split at h
  · cases h
  · next c cs =>
    split at h
    · cases h
      simp [List.takeWhile_append_dropWhile]
    · split at h
      · next hd =>
        cases h
        refine ⟨number_append _, ?_⟩
        simp [number, hd]
      · repeat' split at h
        all_goals first
          | exact operator?_append h
          | (cases h; simp_all)

/-- What follows a piece is shorter than the text that begins with it. -/
theorem first?_shorter {cs : List Char} {p : Piece} (h : first? cs = some p) :
    p.rest.length < cs.length := by
  obtain ⟨happ, hne⟩ := first?_append h
  have hlen := congrArg List.length happ
  have hpos : 0 < p.text.length := List.length_pos_iff.mpr hne
  simp only [List.length_append] at hlen
  omega

/-- The lexeme of a piece, none for white space. -/
def lexeme? (s : Settings) (p : Piece) (position : Nat) : Except Error (Option Lexeme) :=
  match p.kind with
  | .blank => .ok none
  | .leftParen => .ok (some .leftParen)
  | .rightParen => .ok (some .rightParen)
  | .operator op => .ok (some (.operator op))
  | .modulo => .error (.moduloOperator position)
  | .number =>
    let plain := (p.text.filter (· != '+')).map Char.toLower
    let literal := String.ofList p.text
    match Decimal.ofLiteral? plain with
    | none => .error (.invalidLiteral (quoted (String.ofList plain)))
    | some d =>
      if s.maxLiteralExponent < d.exponent.natAbs then
        .error (.literalOutOfRange (quoted literal) position)
      else .ok (some (.number literal d.normalize))

end Piece

namespace Token

/-- The tokens of a text that begins at a position of the source. -/
def ofCharsAt (s : Settings) (position : Nat) (cs : List Char) : Except Error (List Token) :=
  if cs = [] then .ok []
  else
    match _h : Piece.first? cs with
    | none => .error (.unexpectedToken (String.ofList (Piece.stray cs)) position)
    | some p => do
      let lexeme? ← p.lexeme? s position
      let following ← ofCharsAt s (position + p.text.length) p.rest
      match lexeme? with
      | some lexeme => return ⟨lexeme, position⟩ :: following
      | none => return following
termination_by cs.length
decreasing_by exact Piece.first?_shorter _h

/-- The tokens of a source. -/
def ofSource (s : Settings) (source : String) : Except Error (List Token) :=
  ofCharsAt s 0 source.toList

end Token

end DecimalCalc
