import DecimalCalc.Proofs.Decimal.FloatRoundTrip
import DecimalCalc.Proofs.Decimal.RadixLiteral
import DecimalCalc.Proofs.Numeral.RadixNumeral
/-!
# The text of a number in a radix

The text of a number in a radix is the shortest numeral of the number, cut toward zero to an
integer.  The one step that depends on the number is the sign: an integer part is negative only
from minus one down (`truncate_nearby_neg_iff`).  Zero, which is written before the radix is
looked at, is no exception (`text_eq_radixText`).

The characters are digits of the radix, so reading them leads back to the integer part, in
however many pieces: `text_radix_round_trip`.
-/

namespace DecimalCalc

open Numeral Text

/-- A number that is cut to an integer is negative after it from minus one down. -/
theorem Rounding.truncate_nearby_neg_iff (x : ℚ) : truncate.nearby x < 0 ↔ x ≤ -1 := by
  have hoffset : truncate.offset = 0 := rfl
  rw [nearby, hoffset, add_zero, add_zero]
  split
  · next h =>
      have hfloor : 0 ≤ ⌊x⌋ := Int.floor_nonneg.mpr h
      exact ⟨fun hneg => absurd hneg (by omega), fun hle => absurd hle (by linarith)⟩
  · have hfloor : 1 ≤ ⌊-x⌋ ↔ x ≤ -1 := by
      rw [Int.le_floor, Int.cast_one]
      exact le_neg
    rw [← hfloor]
    omega

namespace Decimal

variable {radix : Nat} {v : Value}

/-- The integer part of a number is the number, cut at the zeroth place. -/
theorem isCut_integer (a : Decimal) : IsCut 0 a.toRat a.integer.coefficient := by
  have hcut := Rounding.truncate.rounds_atPlace 0 a.toRat
  rw [Rounding.atPlace, zpow_zero, div_one, mul_one, ← coefficient_integer] at hcut
  exact hcut

/-- The numeral that is written in a radix. -/
theorem toList_radixText (a : Decimal) (radix : Nat) :
    (a.radixText radix).toList =
      (if decide (a.toRat ≤ -1) then ['-'] else []) ++
        (numeralDigits radix a.integer.coefficient.natAbs).map digitChar := by
  have hsign := Rounding.truncate_nearby_neg_iff a.toRat
  rw [← coefficient_integer] at hsign
  rw [radixText, Numeral.radixText, String.toList_ofList, numeralDigits]
  by_cases hneg : a.integer.coefficient < 0
  · rw [if_pos hneg, if_pos (decide_eq_true (hsign.mp hneg))]
    rfl
  · rw [if_neg hneg, if_neg (fun hle => hneg (hsign.mpr (of_decide_eq_true hle)))]
    rfl

/-- Every number has its text in a radix, zero too. -/
theorem text_eq_radixText (a : Decimal) (h : IsRadix radix v) :
    a.text v = .ok (a.radixText radix) := by
  have htext : a.text v = if a.isZero then .ok "0" else
      resolveRadix v >>= fun r => pure (a.radixText r) := by
    cases v with
    | none => exact absurd rfl h.ne_none
    | _ => rfl
  rw [htext]
  by_cases hzero : a.isZero = true
  · have hvalue : a.toRat = 0 := (isZero_iff a).mp hzero
    have hinteger : a.integer.coefficient = 0 := by
      rw [coefficient_integer, hvalue]
      exact Rounding.truncate.nearby_intCast 0
    have hsign : ¬ decide ((0 : ℚ) ≤ -1) = true := by norm_num
    have hchars : (a.radixText radix).toList = "0".toList := by
      rw [toList_radixText, hvalue, hinteger, Int.natAbs_zero, numeralDigits_zero, if_neg hsign]
      rfl
    rw [if_pos hzero, String.toList_inj.mp hchars]
  · rw [if_neg hzero, h.resolveRadix_eq]
    rfl

/-- **The text of a number in a radix** is the shortest numeral of the number, cut toward zero to
an integer, with a minus from minus one down.  It is read in this radix as the integer part of
the number, with the exponent zero. -/
theorem text_radix_round_trip (ctx : Context) (a : Decimal) (h : IsRadix radix v) :
    ∃ (i : Int) (ds : List Nat) (s : String),
      IsCut 0 a.toRat i ∧ ShortestDigits radix i.natAbs ds ∧
      s.toList = (if decide (a.toRat ≤ -1) then ['-'] else []) ++ ds.map digitChar ∧
      a.text v = .ok s ∧
      ∃ b, ofValue ctx (.text s) v = .ok b ∧ b.exponent = 0 ∧ b.equal a.integer = true := by
  have hdigits := shortest_numeralDigits h.1 a.integer.coefficient.natAbs
  have hchars := a.toList_radixText radix
  have hread := readLongInteger?_numeral h.2.1 hdigits.ne_nil hdigits.lt (decide (a.toRat ≤ -1))
  have hsigned : (if decide (a.toRat ≤ -1) then -(a.integer.coefficient.natAbs : Int)
      else a.integer.coefficient.natAbs) = a.integer.coefficient := by
    have hsign := Rounding.truncate_nearby_neg_iff a.toRat
    rw [← coefficient_integer] at hsign
    simp only [decide_eq_true_eq, ← hsign]
    omega
  rw [hdigits.value, hsigned, ← hchars] at hread
  refine ⟨a.integer.coefficient, _, a.radixText radix, a.isCut_integer, hdigits, hchars,
    a.text_eq_radixText h, ofInt a.integer.coefficient, ?_, rfl, ?_⟩
  · rw [ofValue_text_radix ctx _ h, hread]
    rfl
  · rw [equal_iff, toRat_ofInt, toRat, exponent_integer, zpow_zero, mul_one]

/-- A negative number with digits after the point, in the radix sixteen in another form. -/
theorem text_radix_round_trip_hexadecimal :
    let a : Decimal := ⟨-2559, -1⟩
    let radix : Value := .number ⟨160, -1⟩
    IsRadix 16 radix ∧ a.text radix = .ok "-ff" ∧
      ∃ b, ofValue (.initial {}) (.text "-ff") radix = .ok b ∧ b.exponent = 0 ∧
        b.equal a.integer = true := by
  intro a radix
  have hradix : IsRadix 16 radix := by
    refine ⟨by decide, by decide, .inr ⟨⟨160, -1⟩, rfl, ?_⟩⟩
    norm_num [toRat]
  have htext : a.text radix = .ok "-ff" := by
    have hinteger : a.integer.coefficient = -255 := by decide
    have hdigits : radixDigits 16 (-255 : Int).natAbs = [15, 15] := by
      simp [radixDigits, radixDigitsBefore]
    have hnumeral : a.radixText 16 = "-ff" := by
      have hradix : ¬ (16 = 10) := by decide
      rw [radixText, hinteger, Numeral.radixText, if_neg hradix, hdigits]
      decide
    rw [text_eq_radixText a hradix, hnumeral]
  obtain ⟨i, ds, s, -, -, -, hs, hback⟩ := text_radix_round_trip (.initial {}) a hradix
  obtain rfl : "-ff" = s := Except.ok.inj (htext.symm.trans hs)
  exact ⟨hradix, htext, hback⟩

end Decimal

end DecimalCalc
