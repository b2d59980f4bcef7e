import DecimalCalc.Decimal.Literal
import DecimalCalc.Decimal.Text
import DecimalCalc.Proofs.Decimal.NormalForm
import DecimalCalc.Proofs.Numeral.Digits
/-!
# Reading plain text

Plain text is a minus where it is due, digits, and a point with digits where there are
any after it.  `Decimal.Spells` says which digits spell a number, `exists_spells` that the
plain text of a number is made of digits that spell its normal form, and
`Spells.value_eq` that digits which spell a number are read as it.  Together they give
`ofLiteral?_plainText`: reading the plain text of a number gives its normal form.  Digits
around a point are found again by `readUnsigned?_pointed`, also where a power of ten follows.
-/

namespace DecimalCalc

open Text Numeral

namespace Text

variable {p : Char → Bool} {run rest : List Char}

/-- A run of characters of a class ends where none of them follows. -/
theorem takeWhile_run (hrun : ∀ c ∈ run, p c) (hrest : rest.takeWhile p = []) :
    (run ++ rest).takeWhile p = run := by
  rw [List.takeWhile_append_of_pos hrun, hrest, List.append_nil]

theorem dropWhile_run (hrun : ∀ c ∈ run, p c) (hrest : rest.takeWhile p = []) :
    (run ++ rest).dropWhile p = rest := by
  have hsplit := List.takeWhile_append_dropWhile (p := p) (l := rest)
  rw [hrest, List.nil_append] at hsplit
  rw [List.dropWhile_append_of_pos hrun, hsplit]

end Text

namespace Literal

variable {negative : Bool} {cs : List Char} {l : Literal}

/-- A literal without its sign begins with a digit. -/
theorem exists_head_of_readUnsigned? (h : readUnsigned? negative cs = some l) :
    ∃ c following, cs = c :: following ∧ isDigit c = true := by
  cases cs with
  | nil => cases h
  | cons c following =>
      by_cases hc : isDigit c = true
      · exact ⟨c, following, rfl, hc⟩
      · unfold readUnsigned? at h
        rw [List.takeWhile_cons_of_neg hc] at h
        cases h

/-- So no minus of its own is taken off it. -/
theorem read?_of_readUnsigned? (h : readUnsigned? false cs = some l) : read? cs = some l := by
  obtain ⟨c, following, rfl, hc⟩ := exists_head_of_readUnsigned? h
  have hminus : c ≠ '-' := ne_of_isDigit hc (by decide)
  rw [← h]
  simp [read?, hminus]

/-- A power of ten begins with its letter, if it is written at all. -/
theorem head_of_readPower? {power : Bool × List Char} (h : readPower? cs = some power) :
    cs = [] ∨ ∃ ds, cs = 'e' :: ds := by
  unfold readPower? at h
  split at h
  · exact .inl rfl
  · exact .inr ⟨_, rfl⟩
  · exact .inr ⟨_, rfl⟩
  · cases h

end Literal

namespace Decimal

/-- A fraction as it is written: a point and its digits, or nothing where it has none. -/
def pointed : List Char → List Char
  | [] => []
  | c :: cs => '.' :: c :: cs

theorem pointed_of_ne_nil {cs : List Char} (h : cs ≠ []) : pointed cs = '.' :: cs := by
  cases cs with
  | nil => exact absurd rfl h
  | cons c cs => rfl

/-- Digits before and after a point that stand for the absolute value of a number, as
many after the point as its exponent says. -/
structure Spells (whole fraction : List Char) (a : Decimal) : Prop where
  whole_ne_nil : whole ≠ []
  chars : ∀ c ∈ whole ++ fraction, IsNumeralChar c
  value : Literal.digitsValue (whole ++ fraction) = a.coefficient.natAbs
  places : (fraction.length : Int) = -a.exponent

/-! ## Writing -/

/-- A numeral with zeros in front of it has the same value. -/
theorem digitsValue_padded (count n : Nat) :
    Literal.digitsValue (List.replicate count '0' ++ natChars n) = n := by
  have hchars : List.replicate count '0' ++ natChars n =
      (List.replicate count 0 ++ digits n).map digitChar := by
    rw [List.map_append, List.map_replicate]
    rfl
  have hlt : ∀ d ∈ List.replicate count 0 ++ digits n, d < 10 := by
    intro d hd
    rcases List.mem_append.mp hd with hzero | hdigit
    · rw [List.eq_of_mem_replicate hzero]
      decide
    · exact digits_lt hdigit
  rw [Literal.digitsValue, hchars, filterMap_digitValue?_map_digitChar hlt,
    ofDigits_replicate_zero_append, ofDigits_digits]

/-- Placing a point splits the digits, with zeros in front where they are too few. -/
theorem exists_placePoint (places : Nat) {cs : List Char} (h : cs ≠ []) :
    ∃ whole fraction, placePoint places cs = whole ++ pointed fraction ∧ whole ≠ [] ∧
      fraction.length = places ∧
      whole ++ fraction = List.replicate (places + 1 - cs.length) '0' ++ cs := by
  have hlength : 0 < cs.length := List.length_pos_iff.mpr h
  cases places with
  | zero =>
      refine ⟨cs, [], (List.append_nil cs).symm, h, rfl, ?_⟩
      rw [List.append_nil, Nat.sub_eq_zero_of_le (by omega)]
      rfl
  | succ places =>
      unfold placePoint
      rw [if_neg (Nat.succ_ne_zero places)]
      generalize hpadded : List.replicate (places + 1 + 1 - cs.length) '0' ++ cs = padded
      have hlong : places + 1 < padded.length := by
        rw [← hpadded, List.length_append, List.length_replicate]
        omega
      have hfraction : (padded.drop (padded.length - (places + 1))).length = places + 1 := by
        rw [List.length_drop]
        omega
      refine ⟨padded.take (padded.length - (places + 1)),
        padded.drop (padded.length - (places + 1)), ?_, ?_, hfraction,
        List.take_append_drop _ _⟩
      · rw [pointed_of_ne_nil (List.ne_nil_of_length_pos (by omega))]
      · rw [ne_eq, List.take_eq_nil_iff]
        intro hnil
        rcases hnil with hzero | rfl
        · omega
        · cases hlong

/-- The plain text of a number in terms of its normal form, for zero too. -/
theorem toList_plainText (a : Decimal) :
    a.plainText.toList =
      a.normalize.signed (placePoint (-a.normalize.exponent).toNat
        (natChars a.normalize.coefficient.natAbs)) := by
  unfold plainText
  by_cases hzero : a.coefficient = 0
  · have hnormal : a.normalize = zero := by rw [normalize, if_pos hzero]
    rw [if_pos (by simp [isZero, hzero]), hnormal]
    rfl
  · rw [if_neg (by simp [isZero, hzero])]
    dsimp only
    rw [String.toList_ofList]

/-- The numeral of a coefficient with a point in it spells the number, where the exponent
is at most zero. -/
theorem exists_spells_placePoint {n : Decimal} (h : n.exponent ≤ 0) :
    ∃ whole fraction, Spells whole fraction n ∧
      placePoint (-n.exponent).toNat (natChars n.coefficient.natAbs) =
        whole ++ pointed fraction ∧
      whole ++ fraction = List.replicate
        ((-n.exponent).toNat + 1 - (natChars n.coefficient.natAbs).length) '0' ++
          natChars n.coefficient.natAbs := by
  obtain ⟨whole, fraction, htext, hne, hlength, hdigits⟩ :=
    exists_placePoint (-n.exponent).toNat (natChars_ne_nil n.coefficient.natAbs)
  refine ⟨whole, fraction, ⟨hne, ?_, ?_, ?_⟩, htext, hdigits⟩
  · intro c hc
    rw [hdigits] at hc
    rcases List.mem_append.mp hc with hpad | hnumeral
    · exact ⟨0, by decide, List.eq_of_mem_replicate hpad⟩
    · exact isNumeralChar_of_mem_natChars hnumeral
  · rw [hdigits]
    exact digitsValue_padded _ _
  · omega

/-- **Plain text is spelled.**  It has the sign of the normal form and digits that spell
it. -/
theorem exists_spells (a : Decimal) :
    ∃ whole fraction, Spells whole fraction a.normalize ∧
      a.plainText.toList = a.normalize.signed (whole ++ pointed fraction) := by
  obtain ⟨whole, fraction, hspells, htext, -⟩ :=
    exists_spells_placePoint a.normalize_isNormal.exponent_le
  refine ⟨whole, fraction, hspells, ?_⟩
  rw [toList_plainText, htext]

/-! ## Reading -/

section Reading

variable {whole fraction : List Char} {a : Decimal}

theorem isDigit_of_isNumeralChar {c : Char} (h : IsNumeralChar c) : isDigit c :=
  h.forall_of (P := fun c => isDigit c) (by decide)

theorem Spells.whole_isDigit (h : Spells whole fraction a) : ∀ c ∈ whole, isDigit c := by
  intro c hc
  exact isDigit_of_isNumeralChar (h.chars c (List.mem_append_left _ hc))

theorem Spells.fraction_isDigit (h : Spells whole fraction a) :
    ∀ c ∈ fraction, isDigit c := by
  intro c hc
  exact isDigit_of_isNumeralChar (h.chars c (List.mem_append_right _ hc))

/-- **Digits are found again** around a point, and the power of ten after them. -/
theorem readUnsigned?_pointed {rest : List Char} {power : Bool × List Char} (hne : whole ≠ [])
    (hwhole : ∀ c ∈ whole, isDigit c) (hfraction : ∀ c ∈ fraction, isDigit c)
    (hrest : Literal.readPower? rest = some power) (negative : Bool) :
    Literal.readUnsigned? negative (whole ++ (pointed fraction ++ rest)) =
      some ⟨negative, whole, fraction, power.1, power.2⟩ := by
  have hclosed : rest.takeWhile isDigit = [] := by
    rcases Literal.head_of_readPower? hrest with rfl | ⟨ds, rfl⟩
    · rfl
    · exact List.takeWhile_cons_of_neg (by decide)
  have hafter : (pointed fraction ++ rest).takeWhile isDigit = [] := by
    cases fraction with
    | nil => exact hclosed
    | cons c cs => exact List.takeWhile_cons_of_neg (by decide)
  have hsplit : Literal.splitFraction (pointed fraction ++ rest) = (fraction, rest) := by
    cases fraction with
    | nil =>
        rcases Literal.head_of_readPower? hrest with rfl | ⟨ds, rfl⟩
        · rfl
        · rfl
    | cons c cs =>
        rw [pointed, List.cons_append, Literal.splitFraction, takeWhile_run hfraction hclosed,
          dropWhile_run hfraction hclosed]
  unfold Literal.readUnsigned?
  rw [takeWhile_run hwhole hafter, dropWhile_run hwhole hafter, hsplit]
  dsimp only
  rw [if_neg hne, hrest, Option.map_some]

/-- The digits are found again around the point. -/
theorem Spells.readUnsigned?_eq (h : Spells whole fraction a) (negative : Bool) :
    Literal.readUnsigned? negative (whole ++ pointed fraction) =
      some ⟨negative, whole, fraction, false, []⟩ := by
  have hpower : Literal.readPower? [] = some (false, []) := rfl
  have hread := readUnsigned?_pointed h.whole_ne_nil h.whole_isDigit h.fraction_isDigit hpower
    negative
  rwa [List.append_nil] at hread

/-- Digits do not begin with a sign. -/
theorem Spells.read?_eq (h : Spells whole fraction a) :
    Literal.read? (whole ++ pointed fraction) =
      some ⟨false, whole, fraction, false, []⟩ :=
  Literal.read?_of_readUnsigned? (h.readUnsigned?_eq false)

/-- **Digits are read as the number that they spell**, with the sign that stands before
them. -/
theorem Spells.value_eq (h : Spells whole fraction a) (negative : Bool) :
    Literal.value ⟨negative, whole, fraction, false, []⟩ =
      ofParts (if negative then -a.coefficient.natAbs else a.coefficient.natAbs)
        a.exponent := by
  have hplaces := h.places
  have hexponent : (0 : Int) - fraction.length = a.exponent := by omega
  unfold Literal.value
  dsimp only
  rw [h.value]
  exact congrArg (ofParts _) hexponent

/-- The sign and the absolute value of a coefficient make it up. -/
theorem signed_natAbs (a : Decimal) :
    (if a.isNegative then -(a.coefficient.natAbs : Int) else a.coefficient.natAbs) =
      a.coefficient := by
  simp only [isNegative, decide_eq_true_eq]
  omega

/-- Digits with the sign of the number that they spell. -/
theorem Spells.read?_signed (h : Spells whole fraction a) :
    Literal.read? (a.signed (whole ++ pointed fraction)) =
      some ⟨a.isNegative, whole, fraction, false, []⟩ := by
  unfold signed
  cases a.isNegative with
  | true => exact h.readUnsigned?_eq true
  | false => exact h.read?_eq

/-- **Plain text is read as the normal form.** -/
theorem ofLiteral?_plainText (a : Decimal) :
    ofLiteral? a.plainText.toList = some a.normalize := by
  obtain ⟨whole, fraction, hspells, htext⟩ := a.exists_spells
  rw [htext, ofLiteral?, hspells.read?_signed, Option.map_some, hspells.value_eq,
    signed_natAbs, a.normalize_isNormal.ofParts_eq]

end Reading

end Decimal

end DecimalCalc
