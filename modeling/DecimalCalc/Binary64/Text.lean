import DecimalCalc.Numeral.Digits
import DecimalCalc.Binary64.Basic
/-!
# The texts of a binary number

The decimal text of a finite number has the fewest digits that read back as the
number, and of those with so few digits the nearest.  Up to `10 ^ 16` and down to
`10 ^ -4` the text is positional, with `.0` after an integer; beyond that it has
one digit before the point and an exponent of at least two digits.

With a fixed number of significant digits, zeros at the end included, the last
digit is rounded with a half going away from zero.  The point stands among the
digits where the first one is not too far from it, and after the first digit
otherwise.
-/

namespace DecimalCalc.Binary64

open Numeral

/-! ## The shortest text -/

/-- The reals that round to a number, and the number itself, in units of
`unit / den`; the ends belong to the interval when `closed`. -/
structure Interval where
  low : Nat
  center : Nat
  high : Nat
  closed : Bool
  unit : Nat
  den : Nat

/-- The interval of a number with a positive significand.  Below a power of two the
steps are half as long. -/
def interval (m : Nat) (q : Int) : Interval where
  low := if m = twoTo 52 ∧ leastExponent < q then 4 * m - 1 else 4 * m - 2
  center := 4 * m
  high := 4 * m + 2
  closed := m % 2 == 0
  unit := twoTo (q - 2).toNat
  den := twoTo (2 - q).toNat

/-- Whether `d * 10 ^ k` lies in an interval. -/
def Interval.contains (i : Interval) (d : Nat) (k : Int) : Bool :=
  let x := d * tenTo k.toNat * i.den
  let scale := i.unit * tenTo (-k).toNat
  if i.closed then i.low * scale ≤ x && x ≤ i.high * scale
  else i.low * scale < x && x < i.high * scale

/-- The greatest `k` with `10 ^ k` at most the centre of an interval: its digits are
counted after a shift that leaves no number below one. -/
def Interval.magnitude (i : Interval) : Int :=
  (digits (i.center * i.unit * tenTo 400 / i.den)).length - 401

/-- The point of the grid `10 ^ k` that lies in an interval, the nearer of two. -/
def Interval.gridPoint? (i : Interval) (k : Int) : Option Nat :=
  let num := i.center * i.unit * tenTo (-k).toNat
  let den := i.den * tenTo k.toNat
  let below := num / den
  let r := num % den
  let nearBelow := 2 * r < den || (2 * r == den && below % 2 == 0)
  let (first, second) := if nearBelow then (below, below + 1) else (below + 1, below)
  if i.contains first k then some first
  else if i.contains second k then some second
  else none

/-- The first grid with a point in the interval, from one digit up. -/
def Interval.shortest (i : Interval) : (more : Nat) → (k : Int) → Nat × Int
  | 0, k => ((i.gridPoint? k).getD 0, k)
  | more + 1, k =>
    match i.gridPoint? k with
    | some d => (d, k)
    | none => i.shortest more (k - 1)

/-- Digits without the zeros at the end, and the power of ten of the last one. -/
def trimmed (d : Nat) (k : Int) : List Char × Int :=
  let cs := natChars d
  let kept := (cs.reverse.dropWhile (· == '0')).reverse
  (kept, k + (cs.length - kept.length : Nat))

/-- The text of digits whose last one counts powers `10 ^ k`. -/
def layout (cs : List Char) (k : Int) : List Char :=
  let point : Int := cs.length + k
  if point ≤ -4 ∨ 16 < point then
    let mantissa := match cs with
      | [d] => [d]
      | d :: rest => d :: '.' :: rest
      | [] => []
    let e := point - 1
    let sign := if e < 0 then '-' else '+'
    mantissa ++ ['e', sign] ++ (paddedText 2 e.natAbs).toList
  else if point ≤ 0 then
    ['0', '.'] ++ List.replicate (-point).toNat '0' ++ cs
  else if 0 ≤ k then
    cs ++ List.replicate k.toNat '0' ++ ['.', '0']
  else
    cs.take point.toNat ++ '.' :: cs.drop point.toNat

/-- The decimal text of a number. -/
def text : Binary64 → String
  | finite negative m q =>
    let body :=
      if m = 0 then ['0', '.', '0']
      else
        let i := interval m q
        let (d, k) := i.shortest 16 i.magnitude
        let (cs, k) := trimmed d k
        layout cs k
    String.ofList (if negative then '-' :: body else body)
  | infinite negative => if negative then "-inf" else "inf"
  | nan => "nan"

/-! ## So many digits -/

/-- The greatest `k` with `10 ^ k ≤ num / den`, for positive numbers. -/
def floorLog10 (num den : Nat) : Int :=
  let k : Int := (digits num).length - (digits den).length
  if den * tenTo k.toNat ≤ num * tenTo (-k).toNat then k else k - 1

/-- The first `count` digits of a positive quotient as one number, the last digit rounded,
and the power of ten of the first. -/
def significant (count num den : Nat) : Nat × Int :=
  let order := floorLog10 num den
  let shift : Int := count - 1 - order
  let num := num * tenTo shift.toNat
  let den := den * tenTo (-shift).toNat
  let n := (2 * num + den) / (2 * den)
  if n = tenTo count then (tenTo (count - 1), order + 1) else (n, order)

/-- Digits with the point, the first digit counting powers `10 ^ order`. -/
def pointed (cs : List Char) (order : Int) : List Char :=
  if order ≤ -5 ∨ (cs.length : Int) ≤ order then
    let sign := if order < 0 then [] else ['+']
    cs.take 1 ++ '.' :: cs.drop 1 ++ 'e' :: sign ++ intChars order
  else if order < 0 then
    '0' :: '.' :: List.replicate (-order - 1).toNat '0' ++ cs
  else cs.take (order.toNat + 1) ++ '.' :: cs.drop (order.toNat + 1)

/-- The text of a number with `count` significant digits; zero has no sign. -/
def significantText (count : Nat) : Binary64 → String
  | finite negative m q =>
    if m = 0 then "0.0"
    else
      let (n, order) := significant count (m * twoTo q.toNat) (twoTo (-q).toNat)
      let body := pointed (natChars n) order
      String.ofList (if negative then '-' :: body else body)
  | infinite negative => if negative then "-oo" else "oo"
  | nan => "nan"

end DecimalCalc.Binary64
