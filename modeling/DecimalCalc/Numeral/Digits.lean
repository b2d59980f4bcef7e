import DecimalCalc.Text.Character
/-!
# Decimal numerals

The digits of a natural number, most significant first, and the number that a
list of digits stands for.  A long number is split at the middle power of ten,
so writing takes about as long as a few multiplications of its size; the result
has no leading zero, and zero itself is the one digit `0`.
-/

namespace DecimalCalc.Numeral

open Text

/-- The power `10 ^ n`. -/
def tenTo (n : Nat) : Nat := Nat.pow 10 n

/-- The power `2 ^ n`. -/
def twoTo (n : Nat) : Nat := Nat.pow 2 n

/-- The number that digits stand for, most significant first. -/
def ofDigits (radix : Nat) (ds : List Nat) : Nat :=
  ds.foldl (fun n d => n * radix + d) 0

/-- The lowest `2 ^ level` decimal digits of a number, leading zeros included. -/
def paddedDigits : (level : Nat) → Nat → List Nat
  | 0, n => [n % 10]
  | level + 1, n =>
    let scale := tenTo (twoTo level)
    paddedDigits level (n / scale) ++ paddedDigits level (n % scale)

/-- The decimal digits of a number below `10 ^ 2 ^ level`, without leading zeros. -/
def trimmedDigits : (level : Nat) → Nat → List Nat
  | 0, n => [n % 10]
  | level + 1, n =>
    let scale := tenTo (twoTo level)
    if n < scale then trimmedDigits level n
    else trimmedDigits level (n / scale) ++ paddedDigits level (n % scale)

/-- A level whose `10 ^ 2 ^ level` is above the number: three bits take less than a digit. -/
def digitLevel (n : Nat) : Nat :=
  Nat.log2 (Nat.log2 n / 3 + 1) + 1

/-- The decimal digits of a natural number, most significant first. -/
def digits (n : Nat) : List Nat :=
  trimmedDigits (digitLevel n) n

/-- The decimal numeral of a natural number as characters. -/
def natChars (n : Nat) : List Char :=
  (digits n).map digitChar

/-- The decimal numeral of an integer as characters. -/
def intChars (i : Int) : List Char :=
  if i < 0 then '-' :: natChars i.natAbs else natChars i.natAbs

/-- The decimal numeral of a natural number. -/
def natText (n : Nat) : String :=
  String.ofList (natChars n)

/-- The decimal numeral of an integer. -/
def intText (i : Int) : String :=
  String.ofList (intChars i)

/-- A numeral padded with zeros on the left to a width. -/
def paddedText (width n : Nat) : String :=
  let cs := natChars n
  String.ofList (List.replicate (width - cs.length) '0' ++ cs)

end DecimalCalc.Numeral
