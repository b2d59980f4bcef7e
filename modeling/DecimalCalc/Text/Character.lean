/-!
# Digits and white space

A digit is a character of the general category "decimal number".  Each script
that has such digits lists them as a run of ten consecutive code points, zero
first, so the table holds the zeros alone and the value of a digit is its
distance from the zero of its run.

The white space of the expression language, of trimming, and of the console is
one set of twenty-nine characters: the separators of the Unicode standard and
the control characters of bidirectional class "white space" or "separator".
-/

namespace DecimalCalc.Text

/-! ## Digits -/

/-- The code points of the digits zero, in ascending order. -/
def zeroDigits : List Nat :=
  [0x0030, 0x0660, 0x06F0, 0x07C0, 0x0966, 0x09E6, 0x0A66, 0x0AE6, 0x0B66, 0x0BE6, 0x0C66,
   0x0CE6, 0x0D66, 0x0DE6, 0x0E50, 0x0ED0, 0x0F20, 0x1040, 0x1090, 0x17E0, 0x1810, 0x1946,
   0x19D0, 0x1A80, 0x1A90, 0x1B50, 0x1BB0, 0x1C40, 0x1C50, 0xA620, 0xA8D0, 0xA900, 0xA9D0,
   0xA9F0, 0xAA50, 0xABF0, 0xFF10, 0x104A0, 0x10D30, 0x11066, 0x110F0, 0x11136, 0x111D0,
   0x112F0, 0x11450, 0x114D0, 0x11650, 0x116C0, 0x11730, 0x118E0, 0x11950, 0x11C50, 0x11D50,
   0x11DA0, 0x16A60, 0x16AC0, 0x16B50, 0x1D7CE, 0x1D7D8, 0x1D7E2, 0x1D7EC, 0x1D7F6, 0x1E140,
   0x1E2F0, 0x1E950, 0x1FBF0]

/-- The value of a decimal digit of any script; `none` for every other character. -/
def digitValue? (c : Char) : Option Nat :=
  if '0' ≤ c ∧ c ≤ '9' then some (c.toNat - 0x30)
  else if c.toNat < 0x660 then none
  else (zeroDigits.find? fun start => start ≤ c.toNat && c.toNat ≤ start + 9).map (c.toNat - ·)

/-- A character is a digit when it has a digit value. -/
def isDigit (c : Char) : Bool :=
  (digitValue? c).isSome

/-- The European digit of a value below ten, and letters `a` to `z` for ten to thirty-five. -/
def digitChar (d : Nat) : Char :=
  if d < 10 then Char.ofNat (0x30 + d) else Char.ofNat (0x57 + d)

/-! ## White space -/

/-- White space: tab to carriage return, the four information separators, the
space, and the blanks beyond ASCII. -/
def isBlank (c : Char) : Bool :=
  let n := c.toNat
  (0x09 ≤ n && n ≤ 0x0D) || (0x1C ≤ n && n ≤ 0x20) || n == 0x85 || n == 0xA0 || n == 0x1680 ||
    (0x2000 ≤ n && n ≤ 0x200A) || n == 0x2028 || n == 0x2029 || n == 0x202F || n == 0x205F ||
    n == 0x3000

/-- The blanks allowed around the text of an integer: below 128 only the space
and tab to carriage return, so the information separators are not among them. -/
def isIntegerBlank (c : Char) : Bool :=
  isBlank c && !(0x1C ≤ c.toNat && c.toNat ≤ 0x1F)

/-- A list without the characters of a class at either end. -/
def stripChars (p : Char → Bool) (cs : List Char) : List Char :=
  ((cs.dropWhile p).reverse.dropWhile p).reverse

/-- A text without the white space at either end. -/
def strip (s : String) : String :=
  String.ofList (stripChars isBlank s.toList)

end DecimalCalc.Text
