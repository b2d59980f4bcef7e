import DecimalCalc.Error
import DecimalCalc.Text.Quoted
/-!
# Integers as texts

In a radix from two to thirty-six, writing gives the shortest numeral with the
digits `0`-`9` and `a`-`z`.  Reading allows blanks around the numeral, a sign, the
mark `0x`, `0o` or `0b` where it names the radix, digits of any script, letters of
either case, and single underscores between digits or after the mark.

A text of more than a thousand characters is read in pieces of a thousand, each
of which is read as an integer of its own and scaled by the radix to the number
of its characters.

Messages show integers, and settings and commands read them, only up to
`Fault.longestNumeral` decimal digits; beyond that both are faults.
-/

namespace DecimalCalc.Numeral

open Text

/-! ## In a radix -/

/-- The digits of a number in a radix, in front of digits that are known already. -/
def radixDigitsBefore (radix n : Nat) (known : List Nat) : List Nat :=
  if 2 ≤ radix ∧ radix ≤ n then radixDigitsBefore radix (n / radix) (n % radix :: known)
  else n :: known
termination_by n
decreasing_by exact Nat.div_lt_self (by omega) (by omega)

/-- The digits of a number in a radix of at least two, most significant first. -/
def radixDigits (radix n : Nat) : List Nat :=
  radixDigitsBefore radix n []

/-- The numeral of an integer in a radix from two to thirty-six. -/
def radixText (radix : Nat) (i : Int) : String :=
  let ds := if radix = 10 then digits i.natAbs else radixDigits radix i.natAbs
  let cs := ds.map digitChar
  String.ofList (if i < 0 then '-' :: cs else cs)

/-- The value of a character as a digit of a radix: a digit of any script, or an
ASCII letter. -/
def radixDigit? (radix : Nat) (c : Char) : Option Nat :=
  let value? :=
    if 'a' ≤ c ∧ c ≤ 'z' then some (c.toNat - 0x57)
    else if 'A' ≤ c ∧ c ≤ 'Z' then some (c.toNat - 0x37)
    else digitValue? c
  value?.filter (· < radix)

/-- Digits of a radix with single underscores between them, at least one digit. -/
def groupedDigits? (radix : Nat) : List Char → Option (List Nat)
  | [] => none
  | [c] => (radixDigit? radix c).map ([·])
  | c :: '_' :: rest => do
    let d ← radixDigit? radix c
    let ds ← groupedDigits? radix rest
    return d :: ds
  | c :: rest => do
    let d ← radixDigit? radix c
    let ds ← groupedDigits? radix rest
    return d :: ds

/-- The letter that marks numerals of a radix after a leading zero. -/
def markLetter? (radix : Nat) : Option Char :=
  match radix with
  | 2 => some 'b'
  | 8 => some 'o'
  | 16 => some 'x'
  | _ => none

/-- The digits that follow the mark of a radix, with one underscore after the mark
taken away; `none` where the text does not begin with the mark. -/
def afterMark? (radix : Nat) : List Char → Option (List Char)
  | z :: m :: rest =>
    if digitValue? z = some 0 ∧ markLetter? radix = some m.toLower then
      match rest with
      | '_' :: rest => some rest
      | rest => some rest
    else none
  | _ => none

/-- A numeral without sign. -/
def readNatural? (radix : Nat) (cs : List Char) : Option Nat :=
  (groupedDigits? radix ((afterMark? radix cs).getD cs)).map (ofDigits radix)

/-- An integer with blanks around it and a sign allowed. -/
def readInteger? (radix : Nat) (cs : List Char) : Option Int :=
  match stripChars isIntegerBlank cs with
  | '-' :: rest => (readNatural? radix rest).map fun n => -(n : Int)
  | '+' :: rest => (readNatural? radix rest).map Int.ofNat
  | rest => (readNatural? radix rest).map Int.ofNat

/-- The number of characters that are read as one integer. -/
def pieceLength : Nat := 1000

/-- A text cut into pieces of `pieceLength` characters, the last one shorter. -/
def pieces (cs : List Char) : List (List Char) :=
  if cs.length ≤ pieceLength then [cs]
  else cs.take pieceLength :: pieces (cs.drop pieceLength)
termination_by cs.length
decreasing_by simp only [List.length_drop, pieceLength] at *; omega

/-- The pieces of a text read one after the other. -/
def readPieces? (radix : Nat) (parts : List (List Char)) : Option Int :=
  parts.foldlM (fun (value : Int) part =>
    (readInteger? radix part).map (value * (radix.pow part.length : Nat) + ·)) 0

/-- An integer of any length: a leading sign belongs to the whole text. -/
def readLongInteger? (radix : Nat) : List Char → Option Int
  | '-' :: rest => (readPieces? radix (pieces rest)).map (- ·)
  | '+' :: rest => readPieces? radix (pieces rest)
  | cs => readPieces? radix (pieces cs)

/-! ## Within the numeral limit -/

/-- The numeral of an integer as it stands in a message. -/
def shownInt (i : Int) : Except Failure String :=
  if i.natAbs < tenTo Fault.longestNumeral then .ok (intText i)
  else .error (.fault .numeralTooLong)

/-- The number of characters of a text that a fault shows. -/
def longestShown : Nat := 200

/-- The digits and underscores that a text begins with, after blanks and a sign. -/
def leadingNumeral (cs : List Char) : List Char :=
  let unsigned := match cs.dropWhile isIntegerBlank with
    | '-' :: rest => rest
    | '+' :: rest => rest
    | rest => rest
  unsigned.takeWhile fun c => isDigit c || c == '_'

/-- The number of digits that a text begins with; none where the underscores between them
are not single ones. -/
def leadingDigits (cs : List Char) : Nat :=
  ((groupedDigits? 10 (leadingNumeral cs)).getD []).length

/-- The integer that a text is, in decimal, with blanks around it, a sign and single
underscores allowed.  Too many digits are noticed before what follows them. -/
def readBounded (s : String) : Except Failure Int :=
  let cs := s.toList
  if Fault.longestNumeral < leadingDigits cs then
    .error (.fault (.textTooLong (leadingDigits cs)))
  else
    match readInteger? 10 cs with
    | some i => .ok i
    | none => .error (.fault (.notAnInteger (String.ofList ((quoted s).toList.take longestShown))))

end DecimalCalc.Numeral
