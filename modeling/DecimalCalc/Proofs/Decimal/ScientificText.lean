import DecimalCalc.Decimal.Conversion
import DecimalCalc.Proofs.Decimal.NormalForm
import DecimalCalc.Proofs.Decimal.PlainText
import DecimalCalc.Proofs.Numeral.LeadingDigit
import Mathlib.Data.Int.Log
import Mathlib.Data.List.DropRight
import Mathlib.Data.Rat.Floor
/-!
# Scientific text is canonical

A scientific numeral has one digit before the point, and a power of ten unless it is the zeroth.
It is canonical if that digit is not zero and the digits after the point do not end in zero:
`ScientificNumeral.Canonical`.

* `order_eq_log` -- the power of ten of the first digit is the order of magnitude of the number,
* `exists_scientificNumeral` -- the scientific text of a number other than zero is a canonical
  numeral of it, with this power, and
* `ofLiteral?_scientificText` -- it is read as the number.

So numbers have the same scientific text exactly if they are equal (`scientificText_eq_iff`).
`scientific_canonical` has all of it, for the numbers whose order of magnitude is within the
numeral limit.  No other number has a scientific text of its own; one of these is in
`scientific_long_order`.
-/

namespace DecimalCalc

open Text Numeral Decimal

/-- A numeral with a power of ten: whether a minus stands before it, its digit before the point,
those after it, and the power. -/
structure ScientificNumeral where
  negative : Bool
  first : Char
  fraction : List Char
  power : Int

namespace ScientificNumeral

/-- The power of ten as it is written, which the zeroth is not. -/
def suffix (m : ScientificNumeral) : List Char :=
  if m.power = 0 then [] else 'e' :: intChars m.power

/-- The numeral without its sign. -/
def body (m : ScientificNumeral) : List Char :=
  m.first :: (pointed m.fraction ++ m.suffix)

/-- A numeral as it is written. -/
def chars (m : ScientificNumeral) : List Char :=
  (if m.negative then ['-'] else []) ++ m.body

/-- The digits of a numeral as one coefficient, with the power of ten of the last one. -/
def form (m : ScientificNumeral) : Decimal :=
  let n : Int := Literal.digitsValue (m.first :: m.fraction)
  ⟨if m.negative then -n else n, m.power - m.fraction.length⟩

/-- A numeral in which nothing is superfluous: neither a zero before the point nor one at the end
of the digits after it. -/
structure Canonical (m : ScientificNumeral) : Prop where
  digits : ∀ c ∈ m.first :: m.fraction, IsNumeralChar c
  leading : m.first ≠ '0'
  trailing : m.fraction.getLast? ≠ some '0'

/-- The integer that a sign and digits of a power of ten are. -/
def powerValue (power : Bool × List Char) : Int :=
  if power.1 then -(Literal.digitsValue power.2 : Int) else Literal.digitsValue power.2

section Reading

variable {m : ScientificNumeral}

/-- The power of ten is read as it is written. -/
theorem readPower?_suffix (m : ScientificNumeral) :
    ∃ power, Literal.readPower? m.suffix = some power ∧ powerValue power = m.power := by
  by_cases hzero : m.power = 0
  · refine ⟨(false, []), ?_, hzero.symm⟩
    rw [suffix, if_pos hzero]
    rfl
  · have hne := natChars_ne_nil m.power.natAbs
    have hdigits : (natChars m.power.natAbs).all isDigit = true := by
      rw [List.all_eq_true]
      intro c hc
      exact isDigit_of_isNumeralChar (isNumeralChar_of_mem_natChars hc)
    have hvalue : Literal.digitsValue (natChars m.power.natAbs) = m.power.natAbs :=
      digitsValue_padded 0 _
    rw [suffix, if_neg hzero, intChars]
    by_cases hneg : m.power < 0
    · refine ⟨(true, natChars m.power.natAbs), ?_, ?_⟩
      · rw [if_pos hneg, Literal.readPower?, if_pos ⟨hne, hdigits⟩]
      · rw [powerValue, if_pos rfl, hvalue]
        omega
    · refine ⟨(false, natChars m.power.natAbs), ?_, ?_⟩
      · rw [if_neg hneg, Literal.readPower?, if_pos ⟨hne, hdigits⟩]
        -- digits begin with no sign
        intro ds hminus
        rw [hminus, List.all_cons] at hdigits
        cases hdigits
      · rw [powerValue, if_neg Bool.false_ne_true, hvalue]
        omega

theorem readUnsigned?_body (hdigits : ∀ c ∈ m.first :: m.fraction, IsNumeralChar c)
    (negative : Bool) :
    ∃ power, Literal.readUnsigned? negative m.body =
      some ⟨negative, [m.first], m.fraction, power.1, power.2⟩ ∧ powerValue power = m.power := by
  obtain ⟨power, hread, hpower⟩ := m.readPower?_suffix
  have hwhole : ∀ c ∈ [m.first], isDigit c := by
    intro c hc
    rw [List.mem_singleton.mp hc]
    exact isDigit_of_isNumeralChar (hdigits m.first List.mem_cons_self)
  have hfraction : ∀ c ∈ m.fraction, isDigit c := by
    intro c hc
    exact isDigit_of_isNumeralChar (hdigits c (List.mem_cons_of_mem _ hc))
  exact ⟨power, readUnsigned?_pointed (List.cons_ne_nil _ _) hwhole hfraction hread negative,
    hpower⟩

/-- **A numeral is read as its parts.** -/
theorem ofLiteral?_chars (hdigits : ∀ c ∈ m.first :: m.fraction, IsNumeralChar c) :
    ofLiteral? m.chars = some (ofParts m.form.coefficient m.form.exponent) := by
  obtain ⟨power, hread, hpower⟩ := readUnsigned?_body hdigits m.negative
  have hliteral : Literal.read? m.chars =
      some ⟨m.negative, [m.first], m.fraction, power.1, power.2⟩ := by
    rw [chars]
    cases hneg : m.negative with
    | true =>
        rw [hneg] at hread
        exact hread
    | false =>
        rw [hneg] at hread
        exact Literal.read?_of_readUnsigned? hread
  rw [powerValue] at hpower
  rw [ofLiteral?, hliteral, Option.map_some, Literal.value]
  dsimp only
  rw [hpower]
  rfl

/-- The letter of a power of ten is in a numeral exactly if its power is not zero. -/
theorem Canonical.mem_chars_iff (h : m.Canonical) : 'e' ∈ m.chars ↔ m.power ≠ 0 := by
  have hdigits : 'e' ∉ m.first :: m.fraction := by
    intro hmem
    exact absurd (isDigit_of_isNumeralChar (h.digits _ hmem)) (by decide)
  have hsign : 'e' ∉ if m.negative then ['-'] else [] := by
    split
    · decide
    · decide
  have hmantissa : 'e' ∉ m.first :: pointed m.fraction := by
    cases hfraction : m.fraction with
    | nil =>
        rw [hfraction] at hdigits
        exact hdigits
    | cons c cs =>
        rw [hfraction] at hdigits
        simp only [pointed, List.mem_cons, not_or] at hdigits ⊢
        exact ⟨hdigits.1, by decide, hdigits.2⟩
  rw [chars, body, List.mem_append, or_iff_right hsign, ← List.cons_append, List.mem_append,
    or_iff_right hmantissa, suffix]
  by_cases hzero : m.power = 0
  · rw [if_pos hzero]
    exact ⟨fun hmem => absurd hmem List.not_mem_nil, fun hne => absurd hzero hne⟩
  · rw [if_neg hzero]
    exact ⟨fun _ => hzero, fun _ => List.mem_cons_self⟩

end Reading

end ScientificNumeral

namespace Decimal

/-! ## The order of magnitude -/

/-- The absolute value of a number, from its coefficient without sign. -/
theorem abs_toRat (a : Decimal) : |a.toRat| = a.coefficient.natAbs * 10 ^ a.exponent := by
  rw [toRat, abs_mul, abs_of_pos (ten_zpow_pos _), Nat.cast_natAbs, Int.cast_abs]

/-- The first digit of a numeral has a power of ten at most the number, and the next power is
above it. -/
theorem pow_length_natChars {n : Nat} (h : 0 < n) :
    10 ^ ((natChars n).length - 1) ≤ n ∧ n < 10 ^ (natChars n).length := by
  have hlength : 0 < (natChars n).length := List.length_pos_iff.mpr (natChars_ne_nil n)
  constructor
  · by_contra hlt
    by_cases hone : (natChars n).length = 1
    · rw [hone] at hlt
      omega
    · have hshort := (length_natChars_le_iff (by omega)).mpr (Nat.lt_of_not_le hlt)
      omega
  · exact (length_natChars_le_iff hlength).mp (Nat.le_refl _)

/-- **The power of ten of the first digit** is the order of magnitude of the number. -/
theorem order_eq_log {a : Decimal} (h : a.coefficient ≠ 0) : a.order = Int.log 10 |a.toRat| := by
  have hn : 0 < a.coefficient.natAbs := Int.natAbs_pos.mpr h
  obtain ⟨hlow, hhigh⟩ := pow_length_natChars hn
  have hlength : 0 < (natChars a.coefficient.natAbs).length :=
    List.length_pos_iff.mpr (natChars_ne_nil _)
  have hpositive : 0 < |a.toRat| := by
    rw [abs_toRat]
    exact mul_pos (Nat.cast_pos.mpr hn) (ten_zpow_pos _)
  have hscale : ∀ k : Nat,
      ((10 : Nat) : ℚ) ^ (k + a.exponent) = ((10 ^ k : Nat) : ℚ) * 10 ^ a.exponent := by
    intro k
    rw [Nat.cast_ofNat, zpow_add₀ (by norm_num), zpow_natCast, Nat.cast_pow, Nat.cast_ofNat]
  have hfrom : ((natChars a.coefficient.natAbs).length - 1 : Nat) + a.exponent ≤
      Int.log 10 |a.toRat| := by
    apply (Int.zpow_le_iff_le_log (by decide) hpositive).mp
    rw [hscale, abs_toRat]
    exact mul_le_mul_of_nonneg_right (Nat.cast_le.mpr hlow) (ten_zpow_pos _).le
  have hbelow : Int.log 10 |a.toRat| < (natChars a.coefficient.natAbs).length + a.exponent := by
    apply (Int.lt_zpow_iff_log_lt (by decide) hpositive).mp
    rw [hscale, abs_toRat]
    exact mul_lt_mul_of_pos_right (Nat.cast_lt.mpr hhigh) (ten_zpow_pos _)
  rw [order]
  omega

theorem coefficient_normalize_ne_zero {a : Decimal} (h : a.toRat ≠ 0) :
    a.normalize.coefficient ≠ 0 := by
  intro hzero
  apply h
  rw [← a.toRat_normalize, toRat, hzero, Int.cast_zero, zero_mul]

/-! ## Writing -/

/-- The zeros at the end of a numeral are those that are dropped. -/
theorem exists_zeros (cs : List Char) :
    ∃ zeros, cs = cs.rdropWhile (· == '0') ++ List.replicate zeros '0' ∧
      (cs.rdropWhile (· == '0')).getLast? ≠ some '0' := by
  induction cs using List.reverseRecOn with
  | nil => exact ⟨0, rfl, (Option.some_ne_none _).symm⟩
  | append_singleton cs c ih =>
      by_cases hc : c = '0'
      · obtain ⟨zeros, hsplit, hlast⟩ := ih
        have hdropped : (cs ++ [c]).rdropWhile (· == '0') = cs.rdropWhile (· == '0') :=
          List.rdropWhile_concat_pos _ _ _ (beq_iff_eq.mpr hc)
        refine ⟨zeros + 1, ?_, ?_⟩
        · rw [hdropped, List.replicate_succ', ← List.append_assoc, ← hsplit, hc]
        · rwa [hdropped]
      · have hkept : (cs ++ [c]).rdropWhile (· == '0') = cs ++ [c] :=
          List.rdropWhile_concat_neg _ _ _ (fun hzero => hc (beq_iff_eq.mp hzero))
        refine ⟨0, ?_, ?_⟩
        · rw [hkept, List.replicate_zero, List.append_nil]
        · rw [hkept, List.getLast?_concat]
          exact fun hzero => hc (Option.some.inj hzero)

theorem digitsValue_replicate_zero (count : Nat) :
    Literal.digitsValue (List.replicate count '0') = 0 := by
  have hzero : digitValue? '0' = some 0 := rfl
  have hnone := ofDigits_replicate_zero_append 10 count []
  rw [List.append_nil] at hnone
  rw [Literal.digitsValue, List.filterMap_replicate_of_some hzero, hnone]
  rfl

/-- A numeral without the zeros at its end still has its first digit, and each of these zeros is
a power of ten. -/
theorem exists_significant {n : Nat} (h : 0 < n) :
    ∃ (first : Char) (fraction : List Char) (zeros : Nat),
      (natChars n).rdropWhile (· == '0') = first :: fraction ∧
      (natChars n).length = fraction.length + 1 + zeros ∧
      n = Literal.digitsValue (first :: fraction) * 10 ^ zeros ∧
      (∀ c ∈ first :: fraction, IsNumeralChar c) ∧
      first ≠ '0' ∧ fraction.getLast? ≠ some '0' := by
  obtain ⟨zeros, hsplit, hlast⟩ := exists_zeros (natChars n)
  have hhead := head?_natChars h
  have hlength := congrArg List.length hsplit
  have hchars : ∀ c ∈ natChars n, IsNumeralChar c := fun c hc => isNumeralChar_of_mem_natChars hc
  have hvalue : Literal.digitsValue (natChars n) = n := digitsValue_padded 0 n
  generalize (natChars n).rdropWhile (· == '0') = kept at hsplit hlast hlength ⊢
  rw [hsplit] at hchars hhead hvalue
  obtain ⟨hkept, hzeros⟩ := List.forall_mem_append.mp hchars
  rw [digitsValue_append hkept hzeros, digitsValue_replicate_zero, List.length_replicate,
    Nat.add_zero] at hvalue
  cases kept with
  | nil =>
      have hnone : Literal.digitsValue [] = 0 := rfl
      rw [hnone, Nat.zero_mul] at hvalue
      omega
  | cons first fraction =>
      refine ⟨first, fraction, zeros, rfl, ?_, hvalue.symm, hkept, ?_, ?_⟩
      · rw [hlength, List.length_append, List.length_cons, List.length_replicate]
      · intro hzero
        rw [hzero] at hhead
        exact hhead rfl
      · intro hzero
        have hne : fraction ≠ [] := by
          intro hnil
          rw [hnil] at hzero
          cases hzero
        apply hlast
        rw [← hzero]
        exact List.getLast?_append_of_ne_nil [first] hne

/-- The digits that are kept of the normal form make up the text. -/
theorem toList_scientificText {a : Decimal} {first : Char} {fraction : List Char}
    (hzero : ¬ a.isZero = true)
    (hkept : (natChars a.normalize.coefficient.natAbs).rdropWhile (· == '0') = first :: fraction) :
    a.scientificText.toList =
      ScientificNumeral.chars ⟨a.normalize.isNegative, first, fraction, a.normalize.order⟩ := by
  unfold scientificText
  rw [if_neg hzero, String.toList_ofList, ← List.rdropWhile, hkept, signed,
    ScientificNumeral.chars]
  by_cases hneg : a.normalize.isNegative = true
  · rw [if_pos hneg, if_pos hneg]
    cases fraction with
    | nil => rfl
    | cons c cs => rfl
  · rw [if_neg hneg, if_neg hneg]
    cases fraction with
    | nil => rfl
    | cons c cs => rfl

/-- A numeral of the digits that are kept has the number of the coefficient with its zeros. -/
theorem toRat_form {a : Decimal} {first : Char} {fraction : List Char} {zeros : Nat}
    (hlength : (natChars a.coefficient.natAbs).length = fraction.length + 1 + zeros)
    (hvalue : a.coefficient.natAbs = Literal.digitsValue (first :: fraction) * 10 ^ zeros) :
    (ScientificNumeral.form ⟨a.isNegative, first, fraction, a.order⟩).toRat = a.toRat := by
  have hexponent : a.order - fraction.length = zeros + a.exponent := by
    rw [order]
    omega
  have hcoefficient : a.coefficient =
      (if a.isNegative then -(Literal.digitsValue (first :: fraction) : Int)
        else Literal.digitsValue (first :: fraction)) * 10 ^ zeros := by
    rw [← a.signed_natAbs, hvalue, Nat.cast_mul, Nat.cast_pow, Nat.cast_ofNat]
    split
    · rw [neg_mul]
    · rfl
  rw [ScientificNumeral.form, toRat, toRat, hcoefficient]
  dsimp only
  rw [hexponent, zpow_add₀ (by norm_num), zpow_natCast, Int.cast_mul, Int.cast_pow,
    Int.cast_ofNat, mul_assoc]

/-- **Scientific text is a canonical numeral** of the number, with its order of magnitude. -/
theorem exists_scientificNumeral {a : Decimal} (h : a.toRat ≠ 0) :
    ∃ m : ScientificNumeral, m.Canonical ∧ m.form.toRat = a.toRat ∧
      m.power = Int.log 10 |a.toRat| ∧ m.chars = a.scientificText.toList := by
  have hzero : ¬ a.isZero = true := fun hzero => h ((isZero_iff a).mp hzero)
  have hnormal := coefficient_normalize_ne_zero h
  obtain ⟨first, fraction, zeros, hkept, hlength, hvalue, hdigits, hleading, htrailing⟩ :=
    exists_significant (Int.natAbs_pos.mpr hnormal)
  refine ⟨⟨a.normalize.isNegative, first, fraction, a.normalize.order⟩,
    ⟨hdigits, hleading, htrailing⟩, ?_, ?_, (toList_scientificText hzero hkept).symm⟩
  · rw [toRat_form hlength hvalue, toRat_normalize]
  · rw [← a.toRat_normalize]
    exact order_eq_log hnormal

/-! ## Reading -/

/-- **Scientific text is read as the number.** -/
theorem ofLiteral?_scientificText (a : Decimal) :
    ∃ d, ofLiteral? a.scientificText.toList = some d ∧ d.toRat = a.toRat := by
  by_cases h : a.toRat = 0
  · refine ⟨zero, ?_, ?_⟩
    · rw [scientificText, if_pos ((isZero_iff a).mpr h)]
      decide
    · rw [toRat_zero, h]
  · obtain ⟨m, hcanonical, hvalue, -, hchars⟩ := exists_scientificNumeral h
    refine ⟨ofParts m.form.coefficient m.form.exponent, ?_, ?_⟩
    · rw [← hchars]
      exact ScientificNumeral.ofLiteral?_chars hcanonical.digits
    · rw [toRat_ofParts, ← hvalue, toRat]

/-- **Numbers are told apart by their scientific texts.** -/
theorem scientificText_eq_iff (a b : Decimal) :
    a.scientificText = b.scientificText ↔ a.toRat = b.toRat := by
  constructor
  · intro h
    obtain ⟨d, hd, hvalue⟩ := a.ofLiteral?_scientificText
    obtain ⟨d', hd', hvalue'⟩ := b.ofLiteral?_scientificText
    rw [h, hd', Option.some.injEq] at hd
    rw [← hvalue, ← hvalue', hd]
  · intro h
    have hzero : a.isZero = b.isZero := by
      rw [Bool.eq_iff_iff, isZero_iff, isZero_iff, h]
    have hnormal : a.normalize = b.normalize := (normalize_eq_iff a b).mpr h
    simp only [scientificText, hzero, hnormal]

/-! ## Numbers of every order of magnitude -/

/-- A number has its scientific text if its order of magnitude is within the numeral limit. -/
theorem scientific_eq (a : Decimal) :
    a.scientific = if (Int.log 10 |a.toRat|).natAbs < tenTo Fault.longestNumeral
      then .ok a.scientificText else .error (.fault .numeralTooLong) := by
  unfold scientific
  by_cases h : a.toRat = 0
  · rw [if_pos ((isZero_iff a).mpr h), h, abs_zero, Int.log_zero_right, Int.natAbs_zero,
      if_pos (tenTo_pos _)]
  · have hzero : ¬ a.isZero = true := fun hzero => h ((isZero_iff a).mp hzero)
    rw [if_neg hzero, order_eq_log (coefficient_normalize_ne_zero h), toRat_normalize, shownInt]
    split
    · rfl
    · rfl

theorem eq_scientificText {a : Decimal} {s : String} (h : a.scientific = .ok s) :
    s = a.scientificText := by
  rw [scientific_eq] at h
  split at h
  · exact (Except.ok.inj h).symm
  · cases h

/-- **Scientific text is canonical.**  A number whose order of magnitude is within the numeral
limit has a scientific text, which is read as the number, and which is that of another number
exactly if the two are equal.  It is `0` for zero, and otherwise a canonical numeral of the number,
with the letter of a power of ten exactly if the order of magnitude is not zero.  For a number of
any other order of magnitude there is none. -/
theorem scientific_canonical (ctx : Context) (a : Decimal) :
    let magnitude := Int.log 10 |a.toRat|
    (magnitude.natAbs < tenTo Fault.longestNumeral →
      ∃ s, a.scientific = .ok s ∧
        (∃ d, ofValue ctx (.text s) .none = .ok d ∧ d.equal a = true) ∧
        (a.toRat = 0 → s = "0") ∧
        (a.toRat ≠ 0 → ∃ m : ScientificNumeral, m.Canonical ∧ m.form.toRat = a.toRat ∧
          m.power = magnitude ∧ m.chars = s.toList ∧ ('e' ∈ s.toList ↔ magnitude ≠ 0)) ∧
        ∀ b t, b.scientific = .ok t → (s = t ↔ a.equal b = true)) ∧
    (tenTo Fault.longestNumeral ≤ magnitude.natAbs →
      a.scientific = .error (.fault .numeralTooLong)) := by
  intro magnitude
  constructor
  · intro hwithin
    have hscientific := a.scientific_eq
    rw [if_pos hwithin] at hscientific
    refine ⟨a.scientificText, hscientific, ?_, ?_, ?_, ?_⟩
    · obtain ⟨d, hd, hvalue⟩ := a.ofLiteral?_scientificText
      refine ⟨d, ?_, (equal_iff d a).mpr hvalue⟩
      simp only [ofValue, ofText, hd]
    · intro hzero
      rw [scientificText, if_pos ((isZero_iff a).mpr hzero)]
    · intro hne
      obtain ⟨m, hcanonical, hvalue, hpower, hchars⟩ := exists_scientificNumeral hne
      refine ⟨m, hcanonical, hvalue, hpower, hchars, ?_⟩
      rw [← hchars, hcanonical.mem_chars_iff, hpower]
    · intro b t hb
      rw [eq_scientificText hb, scientificText_eq_iff, equal_iff]
  · intro hbeyond
    rw [scientific_eq, if_neg (Nat.not_lt.mpr hbeyond)]

/-- A number with zeros at the end of its coefficient and a power of ten. -/
theorem scientific_canonical_hundreds :
    let a : Decimal := ⟨-1200, -1⟩
    (Int.log 10 |a.toRat|).natAbs < tenTo Fault.longestNumeral ∧
      a.scientific = .ok "-1.2e2" ∧
      ∃ d, ofValue (.initial {}) (.text "-1.2e2") .none = .ok d ∧ d.equal a = true := by
  intro a
  have hmagnitude : Int.log 10 |a.toRat| = 2 := by
    rw [← order_eq_log (by decide)]
    decide
  have hwithin : (Int.log 10 |a.toRat|).natAbs < tenTo Fault.longestNumeral := by
    rw [hmagnitude]
    calc
      Int.natAbs 2 < tenTo 1 := by decide
      _ ≤ tenTo Fault.longestNumeral := tenTo_le_tenTo (by decide)
  have hnormal : a.normalize = ⟨-120, 0⟩ := by
    apply a.normalize_isNormal.eq_of_toRat_eq (isNormal_of_exponent_zero _)
    rw [toRat_normalize]
    norm_num [a, toRat]
  have htext : a.scientific = .ok "-1.2e2" := by
    rw [scientific_eq, if_pos hwithin, scientificText, if_neg (by decide), hnormal]
    decide
  obtain ⟨s, hs, hread, -⟩ := (scientific_canonical (.initial {}) a).1 hwithin
  obtain rfl : "-1.2e2" = s := Except.ok.inj (htext.symm.trans hs)
  exact ⟨hwithin, htext, hread⟩

/-- A number whose order of magnitude has one digit more than are written of an integer. -/
theorem scientific_long_order :
    (⟨1, -(tenTo 4300 : Int)⟩ : Decimal).scientific = .error (.fault .numeralTooLong) := by
  have hmagnitude :
      Int.log 10 |(⟨1, -(tenTo 4300 : Int)⟩ : Decimal).toRat| = -(tenTo 4300 : Int) := by
    rw [toRat, Int.cast_one, one_mul, abs_of_pos (ten_zpow_pos _)]
    exact Int.log_zpow (by decide) _
  rw [scientific_eq, hmagnitude, Int.natAbs_neg, Int.natAbs_natCast]
  exact if_neg (Nat.lt_irrefl _)

end Decimal

end DecimalCalc
