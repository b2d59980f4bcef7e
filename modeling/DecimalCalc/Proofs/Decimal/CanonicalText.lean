import DecimalCalc.Decimal.Conversion
import DecimalCalc.Proofs.Decimal.NormalForm
import DecimalCalc.Proofs.Decimal.PlainText
import DecimalCalc.Proofs.Numeral.LeadingDigit
/-!
# Plain text is canonical

A plain numeral has a sign, digits, and a point with digits after it where there are any.
It is canonical if no digit and no sign of it can be left out: `PlainNumeral.Canonical`.

* `PlainNumeral.Canonical.isNormal_form` -- the parts of a canonical numeral are a normal
  form,
* `PlainNumeral.Canonical.eq_of_form_eq` -- which fixes the numeral, and
* `exists_canonical` -- the plain text of a number is a canonical numeral of its normal
  form.

Since a number has one normal form, its plain text is its only canonical numeral, and equal
numbers have equal texts (`plainText_canonical`).
-/

namespace DecimalCalc

open Text Numeral

/-- A numeral without a power of ten: whether a minus stands before it, its digits before
the point, and those after it. -/
structure PlainNumeral where
  negative : Bool
  whole : List Char
  fraction : List Char

namespace PlainNumeral

/-- A numeral as it is written. -/
def chars (m : PlainNumeral) : List Char :=
  (if m.negative then ['-'] else []) ++ (m.whole ++ Decimal.pointed m.fraction)

/-- The digits of a numeral as one coefficient, and their number after the point as an
exponent. -/
def form (m : PlainNumeral) : Decimal :=
  let n : Int := Literal.digitsValue (m.whole ++ m.fraction)
  ⟨if m.negative then -n else n, -(m.fraction.length : Int)⟩

/-- A numeral in which nothing is superfluous: no zero in front of other digits before the
point, no zero at the end of the digits after it, and no minus before zero. -/
structure Canonical (m : PlainNumeral) : Prop where
  whole_ne_nil : m.whole ≠ []
  digits : ∀ c ∈ m.whole ++ m.fraction, IsNumeralChar c
  leading : m.whole = ['0'] ∨ m.whole.head? ≠ some '0'
  trailing : m.fraction.getLast? ≠ some '0'
  sign : m.negative = true → Literal.digitsValue (m.whole ++ m.fraction) ≠ 0

section Canonical

variable {m m' : PlainNumeral}

theorem natAbs_form (m : PlainNumeral) :
    m.form.coefficient.natAbs = Literal.digitsValue (m.whole ++ m.fraction) := by
  unfold form
  dsimp only
  split
  · exact (Int.natAbs_neg _).trans (Int.natAbs_natCast _)
  · exact Int.natAbs_natCast _

/-- The sign of a canonical numeral is that of its number. -/
theorem Canonical.negative_iff (h : m.Canonical) :
    m.negative = true ↔ m.form.coefficient < 0 := by
  have hsign := h.sign
  unfold form
  dsimp only
  by_cases hneg : m.negative = true
  · have hpos := hsign hneg
    rw [if_pos hneg]
    constructor
    · intro _
      omega
    · intro _
      exact hneg
  · rw [if_neg hneg]
    constructor
    · intro habsurd
      exact absurd habsurd hneg
    · intro hlt
      omega

/-- The parts of a canonical numeral are a normal form: its last digit after the point says
that ten does not divide the coefficient. -/
theorem Canonical.isNormal_form (h : m.Canonical) : m.form.IsNormal := by
  constructor
  · change -(m.fraction.length : Int) ≤ 0
    omega
  · rcases List.eq_nil_or_concat m.fraction with hnil | ⟨front, c, hlast⟩
    · left
      change -(m.fraction.length : Int) = 0
      rw [hnil]
      rfl
    · right
      have hdigits := h.digits
      have htrailing := h.trailing
      rw [hlast, List.concat_eq_append, ← List.append_assoc] at hdigits
      obtain ⟨hfront, hc⟩ := List.forall_mem_append.mp hdigits
      have hten := ten_dvd_digitsValue_append hfront (hc c (List.mem_singleton.mpr rfl))
      rw [hlast, List.concat_eq_append, List.getLast?_concat] at htrailing
      rw [← Int.dvd_natAbs, natAbs_form, hlast, List.concat_eq_append, ← List.append_assoc]
      intro hdvd
      apply htrailing
      rw [hten.mp (Int.ofNat_dvd.mp hdvd)]

/-- The digits before the point are the numeral of the number they stand for. -/
theorem Canonical.whole_eq (h : m.Canonical) :
    m.whole = natChars (Literal.digitsValue m.whole) := by
  have hchars : ∀ c ∈ m.whole, IsNumeralChar c := by
    intro c hc
    exact h.digits c (List.mem_append_left _ hc)
  rcases h.leading with hzero | hhead
  · rw [hzero]
    rfl
  · exact (natChars_digitsValue h.whole_ne_nil hchars hhead).symm

/-- **A canonical numeral is fixed by its form.**  The exponent says how many digits are
after the point, and the coefficient what they and those before it stand for. -/
theorem Canonical.eq_of_form_eq (h : m.Canonical) (h' : m'.Canonical)
    (hform : m.form = m'.form) : m = m' := by
  have hlength : m.fraction.length = m'.fraction.length := by
    have hexponent : -(m.fraction.length : Int) = -(m'.fraction.length : Int) :=
      congrArg Decimal.exponent hform
    omega
  obtain ⟨hwhole, hfraction⟩ := List.forall_mem_append.mp h.digits
  obtain ⟨hwhole', hfraction'⟩ := List.forall_mem_append.mp h'.digits
  have hvalue : Literal.digitsValue m.whole * 10 ^ m'.fraction.length +
        Literal.digitsValue m.fraction =
      Literal.digitsValue m'.whole * 10 ^ m'.fraction.length +
        Literal.digitsValue m'.fraction := by
    rw [← digitsValue_append hwhole' hfraction', ← natAbs_form, ← hform, natAbs_form,
      digitsValue_append hwhole hfraction, hlength]
  have hlt := digitsValue_lt hfraction
  have hlt' := digitsValue_lt hfraction'
  rw [hlength] at hlt
  have hpos : 0 < 10 ^ m'.fraction.length := Nat.pow_pos (by decide)
  -- quotient and remainder by the scale of the fraction
  have hquotient : Literal.digitsValue m.whole = Literal.digitsValue m'.whole := by
    have hdiv := congrArg (· / 10 ^ m'.fraction.length) hvalue
    simpa [Nat.add_comm _ (Literal.digitsValue _), Nat.add_mul_div_right _ _ hpos,
      Nat.div_eq_of_lt hlt, Nat.div_eq_of_lt hlt'] using hdiv
  have hremainder : Literal.digitsValue m.fraction = Literal.digitsValue m'.fraction := by
    rw [hquotient] at hvalue
    omega
  have hwholes : m.whole = m'.whole := by rw [h.whole_eq, h'.whole_eq, hquotient]
  have hfractions : m.fraction = m'.fraction :=
    digitsValue_injective hlength hfraction hfraction' hremainder
  have hnegative : m.negative = m'.negative := by
    rw [Bool.eq_iff_iff, h.negative_iff, h'.negative_iff, hform]
  cases m
  cases m'
  rw [PlainNumeral.mk.injEq]
  exact ⟨hnegative, hwholes, hfractions⟩

end Canonical

end PlainNumeral

/-- A text is a canonical numeral of a rational number. -/
def IsCanonicalNumeral (x : ℚ) (cs : List Char) : Prop :=
  ∃ m : PlainNumeral, m.Canonical ∧ m.form.toRat = x ∧ m.chars = cs

namespace Decimal

/-- A point in a numeral leaves a digit before it: the first one of the numeral, or a zero
where the numeral has no more digits than there are to be after the point. -/
theorem leading_placePoint {places n : Nat} {whole fraction : List Char}
    (hne : whole ≠ []) (hlength : fraction.length = places)
    (hdigits : whole ++ fraction =
      List.replicate (places + 1 - (natChars n).length) '0' ++ natChars n) :
    whole = ['0'] ∨ whole.head? ≠ some '0' := by
  have htotal := congrArg List.length hdigits
  simp only [List.length_append, List.length_replicate] at htotal
  have hhead := congrArg List.head? hdigits
  rw [List.head?_append_of_ne_nil _ hne] at hhead
  have hpositive : 0 < whole.length := List.length_pos_iff.mpr hne
  have hsingle : whole.length = 1 → whole.head? = some '0' → whole = ['0'] := by
    intro hone hzero
    obtain ⟨c, rfl⟩ := List.length_eq_one_iff.mp hone
    rw [List.head?_cons, Option.some.injEq] at hzero
    rw [hzero]
  by_cases hpadded : (natChars n).length < places + 1
  · left
    obtain ⟨count, hcount⟩ : ∃ count, places + 1 - (natChars n).length = count + 1 :=
      ⟨places - (natChars n).length, by omega⟩
    apply hsingle
    · omega
    · rw [hhead, hcount]
      rfl
  · rw [Nat.sub_eq_zero_of_le (by omega), List.replicate_zero, List.nil_append] at hhead
    rcases Nat.eq_zero_or_pos n with rfl | hpos
    · left
      -- the numeral of zero is one digit
      have hone : (natChars 0).length = 1 := rfl
      apply hsingle
      · omega
      · rw [hhead]
        rfl
    · right
      rw [hhead]
      exact head?_natChars hpos

/-- The digits after the point of a normal form do not end in zero: ten would divide the
coefficient. -/
theorem Spells.getLast?_fraction {whole fraction : List Char} {n : Decimal}
    (h : Spells whole fraction n) (hnormal : n.IsNormal) : fraction.getLast? ≠ some '0' := by
  intro hlast
  obtain ⟨front, rfl⟩ : ∃ front, fraction = front ++ ['0'] :=
    List.getLast?_eq_some_iff.mp hlast
  have hplaces := h.places
  have hvalue := h.value
  have hchars := h.chars
  rw [← List.append_assoc] at hvalue hchars
  obtain ⟨hrest, hzero⟩ := List.forall_mem_append.mp hchars
  have hten := (ten_dvd_digitsValue_append hrest
    (hzero '0' (List.mem_singleton.mpr rfl))).mpr rfl
  rw [hvalue] at hten
  rcases hnormal.reduced with hinteger | hreduced
  · rw [List.length_append, List.length_singleton] at hplaces
    omega
  · exact hreduced (Int.dvd_natAbs.mp (Int.ofNat_dvd.mpr hten))

/-- **Plain text is canonical.**  It is a canonical numeral of the normal form. -/
theorem exists_canonical (a : Decimal) :
    ∃ m : PlainNumeral, m.Canonical ∧ m.form = a.normalize ∧ m.chars = a.plainText.toList := by
  have hnormal := a.normalize_isNormal
  rw [toList_plainText]
  generalize a.normalize = n at hnormal ⊢
  obtain ⟨whole, fraction, hspells, htext, hdigits⟩ :=
    exists_spells_placePoint hnormal.exponent_le
  have hplaces := hspells.places
  have hvalue := hspells.value
  have hform : PlainNumeral.form ⟨n.isNegative, whole, fraction⟩ = n := by
    rw [PlainNumeral.form, Decimal.mk.injEq]
    constructor
    · dsimp only
      rw [hvalue]
      exact n.signed_natAbs
    · change -(fraction.length : Int) = n.exponent
      omega
  refine ⟨⟨n.isNegative, whole, fraction⟩,
    ⟨hspells.whole_ne_nil, hspells.chars, ?_, hspells.getLast?_fraction hnormal, ?_⟩, hform, ?_⟩
  · exact leading_placePoint hspells.whole_ne_nil (by omega) hdigits
  · intro hneg
    dsimp only at hneg ⊢
    rw [hvalue]
    simp only [isNegative, decide_eq_true_eq] at hneg
    omega
  · rw [PlainNumeral.chars, htext, signed]
    dsimp only
    split
    · rfl
    · rfl

/-- **A number has one canonical numeral**, its plain text. -/
theorem isCanonicalNumeral_iff (a : Decimal) (cs : List Char) :
    IsCanonicalNumeral a.toRat cs ↔ cs = a.plainText.toList := by
  obtain ⟨m, hcanonical, hform, hchars⟩ := a.exists_canonical
  constructor
  · rintro ⟨m', hcanonical', hvalue, rfl⟩
    have hforms : m'.form = m.form := by
      rw [hform]
      apply hcanonical'.isNormal_form.eq_of_toRat_eq a.normalize_isNormal
      rw [hvalue, toRat_normalize]
    rw [hcanonical'.eq_of_form_eq hcanonical hforms, hchars]
  · rintro rfl
    exact ⟨m, hcanonical, by rw [hform, toRat_normalize], hchars⟩

/-- The plain text of a number is that of its normal form. -/
theorem plainText_normalize (a : Decimal) : a.normalize.plainText = a.plainText := by
  rw [← String.toList_inj, toList_plainText, toList_plainText, normalize_normalize]

/-- Texts are equal exactly for forms of one number. -/
theorem plainText_eq_iff (a b : Decimal) : a.plainText = b.plainText ↔ a.toRat = b.toRat := by
  constructor
  · intro h
    have hread := a.ofLiteral?_plainText
    rw [h, ofLiteral?_plainText, Option.some.injEq] at hread
    exact (normalize_eq_iff a b).mp hread.symm
  · intro h
    rw [← plainText_normalize a, (normalize_eq_iff a b).mpr h, plainText_normalize]

/-- **Plain text is the canonical numeral.**  For a number in any form, plain text is read
as the normal form of the number, it is the only canonical numeral of its value, and it is
the same for two numbers exactly if they are equal. -/
theorem plainText_canonical (ctx : Context) (a : Decimal) :
    ofValue ctx (.text a.plainText) .none = .ok a.normalize ∧
    (∀ cs, IsCanonicalNumeral a.toRat cs ↔ cs = a.plainText.toList) ∧
    ∀ b : Decimal, a.plainText = b.plainText ↔ a.equal b = true := by
  refine ⟨?_, a.isCanonicalNumeral_iff, ?_⟩
  · simp only [ofValue, ofText, ofLiteral?_plainText]
  · intro b
    rw [plainText_eq_iff, equal_iff]

end Decimal

end DecimalCalc
