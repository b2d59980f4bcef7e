import DecimalCalc.Numeral.Integer
import DecimalCalc.Proofs.Numeral.Digits
import Mathlib.Data.List.DropRight
import Mathlib.Tactic.Ring
/-!
# Reading integers in a radix

An integer text is read by its first characters: blanks and a sign may stand before the digits
(`isFront`), and then the mark of the radix.  A text of at most a thousand characters after its
sign is one piece, which is an integer text again, with blanks and a sign of its own.  So what
is read of it is the integer it is, unless its sign is followed by these (`SignedTwice`):
`readLongInteger?_eq_iff_of_short`.

A longer text is read if each of its pieces can be (`isSome_readLongInteger?_iff`).  Digits that
follow the first piece only add to its value, so there the pieces together are the integer as
well: `readLongInteger?_eq_of_digits`.
-/

namespace DecimalCalc.Numeral

open Text

variable {radix : Nat} {cs q t : List Char}

/-! ## Digits -/

/-- A character is a digit of a radix. -/
def IsRadixDigit (radix : Nat) (c : Char) : Prop := (radixDigit? radix c).isSome = true

instance (radix : Nat) : DecidablePred (IsRadixDigit radix) := fun c =>
  inferInstanceAs (Decidable ((radixDigit? radix c).isSome = true))

/-- The number that digits of a radix stand for. -/
def radixValue (radix : Nat) (cs : List Char) : Nat :=
  ofDigits radix (cs.filterMap (radixDigit? radix))

theorem IsRadixDigit.exists {c : Char} (h : IsRadixDigit radix c) :
    ∃ d, radixDigit? radix c = some d := Option.isSome_iff_exists.mp h

/-- A digit is a letter, with a value from ten on, or a digit of a script. -/
theorem letter_or_isDigit {c : Char} {d : Nat} (h : radixDigit? radix c = some d) :
    d < radix ∧ ((0x61 ≤ c.toNat ∧ c.toNat ≤ 0x7A ∧ d = c.toNat - 0x57) ∨
      (0x41 ≤ c.toNat ∧ c.toNat ≤ 0x5A ∧ d = c.toNat - 0x37) ∨ isDigit c = true) := by
  obtain ⟨hvalue, hlt⟩ := Option.filter_eq_some_iff.mp h
  refine ⟨by simpa using hlt, ?_⟩
  split at hvalue
  · next hletter => exact .inl ⟨hletter.1, hletter.2, (Option.some.inj hvalue).symm⟩
  · split at hvalue
    · next hletter => exact .inr (.inl ⟨hletter.1, hletter.2, (Option.some.inj hvalue).symm⟩)
    · exact .inr (.inr (Option.isSome_iff_exists.mpr ⟨d, hvalue⟩))

/-- A digit of any script is a digit of radix ten, with the same value. -/
theorem radixDigit?_of_isDigit {c : Char} (h : isDigit c = true) :
    radixDigit? 10 c = digitValue? c := by
  obtain ⟨d, hd⟩ := Option.isSome_iff_exists.mp h
  have hnotletter : ¬ ('a' ≤ c ∧ c ≤ 'z') ∧ ¬ ('A' ≤ c ∧ c ≤ 'Z') :=
    forall_isDigit (P := fun n => ¬ (0x61 ≤ n ∧ n ≤ 0x7A) ∧ ¬ (0x41 ≤ n ∧ n ≤ 0x5A))
      (by decide +kernel) h
  rw [radixDigit?, if_neg hnotletter.1, if_neg hnotletter.2, hd]
  exact Option.filter_eq_some_iff.mpr ⟨rfl, decide_eq_true (digitValue?_lt hd)⟩

/-- A character that may stand before the digits of an integer text. -/
def isFront (c : Char) : Bool := isIntegerBlank c || c == '-' || c == '+'

theorem isIntegerBlank_of_isFront {c : Char} (h : isFront c = false) :
    isIntegerBlank c = false := by
  simp only [isFront, Bool.or_eq_false_iff] at h
  exact h.1.1

theorem isFront_of_isDigit {c : Char} (h : isDigit c = true) : isFront c = false := by
  simp only [isFront, isIntegerBlank, isBlank_of_isDigit h, Bool.false_and, Bool.false_or,
    Bool.or_eq_false_iff, beq_eq_false_iff_ne]
  exact ⟨ne_of_isDigit h (by decide), ne_of_isDigit h (by decide)⟩

/-- A digit is neither a blank nor a sign nor an underscore. -/
theorem IsRadixDigit.closes {c : Char} (h : IsRadixDigit radix c) :
    isFront c = false ∧ c ≠ '_' := by
  obtain ⟨d, hd⟩ := h.exists
  -- the letters are beyond the blanks below 128, the signs, and on both sides of the underscore
  have hletter : 0x41 ≤ c.toNat → c.toNat ≤ 0x7A → c.toNat ≠ 0x5F →
      isFront c = false ∧ c ≠ '_' := by
    intro hlow hhigh hne
    have hblank : isBlank c = false := by
      simp only [isBlank, Bool.or_eq_false_iff, Bool.and_eq_false_iff,
        decide_eq_false_iff_not, beq_eq_false_iff_ne]
      omega
    refine ⟨?_, ?_⟩
    · simp only [isFront, isIntegerBlank, hblank, Bool.false_and, Bool.false_or,
        Bool.or_eq_false_iff, beq_eq_false_iff_ne]
      constructor <;> rintro rfl <;> exact absurd hlow (by decide)
    · rintro rfl
      exact hne rfl
  obtain ⟨-, hlower | hupper | hdigit⟩ := letter_or_isDigit hd
  · exact hletter (by omega) (by omega) (by omega)
  · exact hletter (by omega) (by omega) (by omega)
  · exact ⟨isFront_of_isDigit hdigit, ne_of_isDigit hdigit (by decide)⟩

/-- The letter that marks a radix is no digit of it, in either case. -/
theorem markLetter?_ne {c : Char} (h : IsRadixDigit radix c) :
    markLetter? radix ≠ some c.toLower := by
  obtain ⟨d, hd⟩ := h.exists
  obtain ⟨hlt, hcases⟩ := letter_or_isDigit hd
  -- the letters that are digits come before the mark
  have hletter : ∀ m : Char, radix + 0x57 ≤ m.toNat → isDigit m = false →
      some m ≠ some c.toLower := by
    rintro m hm hnot hmark
    obtain rfl := Option.some.inj hmark
    rcases hcases with ⟨hlow, -, hvalue⟩ | ⟨-, -, hvalue⟩ | hdigit
    · have hsame : c.toLower = c := by
        unfold Char.toLower
        apply dif_neg
        rintro ⟨-, hhigh⟩
        have hupper : c.toNat ≤ 0x5A := hhigh
        omega
      rw [hsame] at hm
      omega
    · have hshift : c.toLower.toNat ≤ c.toNat + 32 := by
        unfold Char.toLower
        split
        · change (c.val + ('a'.val - 'A'.val)).toNat ≤ c.val.toNat + 32
          rw [UInt32.toNat_add]
          exact Nat.mod_le _ _
        · omega
      omega
    · rw [toLower_of_isDigit hdigit, hdigit] at hnot
      cases hnot
  unfold markLetter?
  split
  · exact hletter 'b' (by decide) (by decide)
  · exact hletter 'o' (by decide) (by decide)
  · exact hletter 'x' (by decide) (by decide)
  · exact (Option.some_ne_none _).symm

/-! ## Numerals without sign -/

/-- A digit before a text that does not begin with an underscore. -/
theorem groupedDigits?_cons (c : Char) (h : ∃ c', cs.head? = some c' ∧ c' ≠ '_') :
    groupedDigits? radix (c :: cs) =
      (radixDigit? radix c).bind fun d => (groupedDigits? radix cs).map (d :: ·) := by
  obtain ⟨c', hhead, hne⟩ := h
  obtain ⟨rest, rfl⟩ : ∃ rest, cs = c' :: rest := List.head?_eq_some_iff.mp hhead
  rw [groupedDigits?.eq_4]
  · cases radixDigit? radix c <;> cases groupedDigits? radix (c' :: rest) <;> rfl
  · exact List.cons_ne_nil _ _
  · intro rest' heq
    exact hne (List.cons.inj heq).1

theorem head?_digits_ne (hne : cs ≠ []) (hcs : ∀ c ∈ cs, IsRadixDigit radix c) :
    ∃ c, cs.head? = some c ∧ c ≠ '_' :=
  ⟨cs.head hne, List.head?_eq_some_head hne, (hcs _ (List.head_mem hne)).closes.2⟩

/-- Digits alone are read one by one. -/
theorem groupedDigits?_of_digits (hne : cs ≠ []) (hcs : ∀ c ∈ cs, IsRadixDigit radix c) :
    groupedDigits? radix cs = some (cs.filterMap (radixDigit? radix)) := by
  induction cs with
  | nil => exact absurd rfl hne
  | cons c cs ih =>
      obtain ⟨hc, hrest⟩ := List.forall_mem_cons.mp hcs
      obtain ⟨d, hd⟩ := hc.exists
      rw [List.filterMap_cons_some hd]
      rcases eq_or_ne cs [] with rfl | hrestne
      · rw [groupedDigits?, hd]
        rfl
      · rw [groupedDigits?_cons c (head?_digits_ne hrestne hrest), hd, ih hrestne hrest]
        rfl

/-- What is read of digits that follow a text: those of the text, and then they.  An
underscore at the end of the text alone would wait for them. -/
theorem groupedDigits?_append (hlast : ∃ c, q.getLast? = some c ∧ c ≠ '_') (hne : t ≠ [])
    (ht : ∀ c ∈ t, IsRadixDigit radix c) :
    groupedDigits? radix (q ++ t) =
      (groupedDigits? radix q).map (· ++ t.filterMap (radixDigit? radix)) := by
  fun_induction groupedDigits? radix q with
  | case1 => simp at hlast
  | case2 c =>
      rw [List.singleton_append, groupedDigits?_cons c (head?_digits_ne hne ht),
        groupedDigits?_of_digits hne ht]
      cases radixDigit? radix c <;> rfl
  | case3 c rest ih =>
      have hrest : ∃ c, rest.getLast? = some c ∧ c ≠ '_' := by
        cases rest with
        | nil => simp at hlast
        | cons c' rest => simpa using hlast
      rw [List.cons_append, List.cons_append, groupedDigits?.eq_3, ih hrest]
      cases radixDigit? radix c <;> cases groupedDigits? radix rest <;> rfl
  | case4 c rest hnil hunderscore ih =>
      obtain ⟨c', rest, rfl⟩ := List.exists_cons_of_ne_nil hnil
      have hrest : ∃ c, (c' :: rest).getLast? = some c ∧ c ≠ '_' := by simpa using hlast
      have hhead : ∃ c, (c' :: rest ++ t).head? = some c ∧ c ≠ '_' := by
        refine ⟨c', rfl, ?_⟩
        rintro rfl
        exact hunderscore rest rfl
      rw [List.cons_append, groupedDigits?_cons c hhead, ih hrest]
      cases radixDigit? radix c <;> cases groupedDigits? radix (c' :: rest) <;> rfl

/-- Digits of the radix have no mark among them. -/
theorem afterMark?_of_digits (hcs : ∀ c ∈ cs, IsRadixDigit radix c) :
    afterMark? radix cs = none := by
  unfold afterMark?
  split
  · next z m rest =>
      have hm : IsRadixDigit radix m := hcs m (by simp)
      rw [if_neg fun hmark => markLetter?_ne hm hmark.2]
  · rfl

/-- What follows a mark ends as the whole text does, which has at most three characters more. -/
theorem of_afterMark? {body : List Char} (h : afterMark? radix q = some body) :
    body <:+ q ∧ q.length ≤ body.length + 3 := by
  unfold afterMark? at h
  split at h
  · next z m rest =>
      split at h
      · split at h
        · next rest =>
            cases h
            exact ⟨⟨[z, m, '_'], rfl⟩, by simp⟩
        · cases h
          exact ⟨⟨[z, m], rfl⟩, by simp⟩
      · cases h
  · cases h

/-- A mark, with what may follow it, is found within three characters. -/
theorem afterMark?_append (hlong : 3 ≤ q.length) (t : List Char) :
    afterMark? radix (q ++ t) = (afterMark? radix q).map (· ++ t) := by
  obtain ⟨z, m, x, rest, rfl⟩ : ∃ z m x rest, q = z :: m :: x :: rest := by
    match q, hlong with
    | z :: m :: x :: rest, _ => exact ⟨z, m, x, rest, rfl⟩
  simp only [List.cons_append, afterMark?]
  split
  · by_cases hunderscore : x = '_'
    · subst hunderscore
      rfl
    · split
      · next heq => exact absurd (List.cons.inj heq).1 hunderscore
      · split
        · next heq => exact absurd (List.cons.inj heq).1 hunderscore
        · rfl
  · rfl

theorem length_digits (hcs : ∀ c ∈ cs, IsRadixDigit radix c) :
    (cs.filterMap (radixDigit? radix)).length = cs.length :=
  List.filterMap_length_eq_length.mpr hcs

/-- Digits alone are read as the number they stand for. -/
theorem readNatural?_of_digits (hne : cs ≠ []) (hcs : ∀ c ∈ cs, IsRadixDigit radix c) :
    readNatural? radix cs = some (radixValue radix cs) := by
  rw [readNatural?, afterMark?_of_digits hcs, Option.getD_none, groupedDigits?_of_digits hne hcs,
    Option.map_some, radixValue]

/-- **Digits that follow a numeral** multiply it by their power of the radix. -/
theorem readNatural?_append (hlong : 3 < q.length) (hlast : ∃ c, q.getLast? = some c ∧ c ≠ '_')
    (hne : t ≠ []) (ht : ∀ c ∈ t, IsRadixDigit radix c) :
    readNatural? radix (q ++ t) =
      (readNatural? radix q).map fun n => n * radix ^ t.length + radixValue radix t := by
  have hgroups : ∀ body : List Char, (∃ c, body.getLast? = some c ∧ c ≠ '_') →
      (groupedDigits? radix (body ++ t)).map (ofDigits radix) =
        ((groupedDigits? radix body).map (ofDigits radix)).map
          fun n => n * radix ^ t.length + radixValue radix t := by
    intro body hbody
    rw [groupedDigits?_append hbody hne ht, Option.map_map, Option.map_map]
    congr 1
    funext ds
    rw [Function.comp_apply, Function.comp_apply, ofDigits_append, length_digits ht, radixValue]
  rw [readNatural?, readNatural?, afterMark?_append (by omega)]
  cases hmark : afterMark? radix q with
  | none => exact hgroups q hlast
  | some body =>
      obtain ⟨⟨front, hfront⟩, hlength⟩ := of_afterMark? hmark
      have hbodyne : body ≠ [] := List.ne_nil_of_length_pos (by omega)
      rw [← hfront, List.getLast?_append_of_ne_nil _ hbodyne] at hlast
      exact hgroups body hlast

/-- A text that begins with a blank or a sign is no numeral. -/
theorem readNatural?_of_front {c : Char} (hc : isFront c = true) :
    readNatural? radix (c :: cs) = none := by
  have hdigit : radixDigit? radix c = none := by
    by_contra hne
    have hclosed := (IsRadixDigit.closes (Option.isSome_iff_ne_none.mpr hne)).1
    rw [hc] at hclosed
    cases hclosed
  have hmark : afterMark? radix (c :: cs) = none := by
    unfold afterMark?
    split
    · next heq =>
        obtain ⟨rfl, -⟩ := List.cons.inj heq
        apply if_neg
        rintro ⟨hzero, -⟩
        have hfront := isFront_of_isDigit (Option.isSome_iff_exists.mpr ⟨0, hzero⟩)
        rw [hc] at hfront
        cases hfront
    · rfl
  have hgroups : groupedDigits? radix (c :: cs) = none := by
    unfold groupedDigits?
    split
    · rfl
    · next heq => rw [← (List.cons.inj heq).1, hdigit]; rfl
    · next heq => rw [← (List.cons.inj heq).1, hdigit]; rfl
    · next heq => rw [← (List.cons.inj heq).1, hdigit]; rfl
  rw [readNatural?, hmark, Option.getD_none, hgroups, Option.map_none]

/-! ## Blanks and signs -/

/-- A text without the blanks at its end. -/
def trimmed (cs : List Char) : List Char := cs.rdropWhile isIntegerBlank

/-- Nothing is taken off the front of a text that does not begin with a blank. -/
theorem stripChars_of_head (h : ∀ c ∈ cs.head?, isIntegerBlank c = false) :
    stripChars isIntegerBlank cs = trimmed cs := by
  cases cs with
  | nil => rfl
  | cons c cs =>
      have hc : isIntegerBlank c = false := h c rfl
      rw [stripChars, List.dropWhile_cons_of_neg (by simp [hc])]
      rfl

/-- A text that does not end in a blank is trimmed already. -/
theorem trimmed_of_getLast? (h : ∀ c ∈ cs.getLast?, isIntegerBlank c = false) :
    trimmed cs = cs := by
  rw [trimmed, List.rdropWhile_eq_self_iff]
  intro hne
  rw [h _ (List.getLast?_eq_some_getLast hne)]
  exact Bool.false_ne_true

theorem trimmed_cons {c : Char} (hc : isIntegerBlank c = false) (cs : List Char) :
    trimmed (c :: cs) = c :: trimmed cs := by
  rw [trimmed, List.rdropWhile, List.reverse_cons, List.dropWhile_append]
  split
  · next hempty =>
      rw [List.isEmpty_iff] at hempty
      rw [List.dropWhile_cons_of_neg (by simp [hc]), trimmed, List.rdropWhile, hempty]
      rfl
  · rw [List.reverse_append]
    rfl

/-- What is read of a text without blanks or a sign before it. -/
theorem readInteger?_of_head (h : ∀ c ∈ cs.head?, isFront c = false) :
    readInteger? radix cs = (readNatural? radix (trimmed cs)).map Int.ofNat := by
  have hblank : ∀ c ∈ cs.head?, isIntegerBlank c = false := fun c hc =>
    isIntegerBlank_of_isFront (h c hc)
  rw [readInteger?, stripChars_of_head hblank]
  cases cs with
  | nil => rfl
  | cons c cs =>
      have hc : isFront c = false := h c rfl
      rw [trimmed_cons (isIntegerBlank_of_isFront hc)]
      split
      · next heq =>
          rw [(List.cons.inj heq).1] at hc
          exact absurd hc (by decide)
      · next heq =>
          rw [(List.cons.inj heq).1] at hc
          exact absurd hc (by decide)
      · rfl

theorem readInteger?_minus (cs : List Char) :
    readInteger? radix ('-' :: cs) =
      (readNatural? radix (trimmed cs)).map fun n : Nat => -(n : Int) := by
  have hhead : ∀ c ∈ ('-' :: cs).head?, isIntegerBlank c = false := by
    rintro c ⟨rfl⟩
    decide
  rw [readInteger?, stripChars_of_head hhead, trimmed_cons (by decide)]
  cases h : readNatural? radix (trimmed cs) <;> simp [h]

theorem readInteger?_plus (cs : List Char) :
    readInteger? radix ('+' :: cs) = (readNatural? radix (trimmed cs)).map Int.ofNat := by
  have hhead : ∀ c ∈ ('+' :: cs).head?, isIntegerBlank c = false := by
    rintro c ⟨rfl⟩
    decide
  rw [readInteger?, stripChars_of_head hhead, trimmed_cons (by decide)]
  rfl

/-- What follows the sign of a text; `none` where it has no sign. -/
def afterSign? : List Char → Option (List Char)
  | '-' :: rest => some rest
  | '+' :: rest => some rest
  | _ => none

theorem afterSign?_of_head (h : ∀ c ∈ cs.head?, isFront c = false) : afterSign? cs = none := by
  unfold afterSign?
  split
  · exact absurd (h '-' rfl) (by decide)
  · exact absurd (h '+' rfl) (by decide)
  · rfl

/-- A text without its sign. -/
def unsigned (cs : List Char) : List Char := (afterSign? cs).getD cs

/-- An integer with the sign of a text. -/
def signedAs (cs : List Char) (i : Int) : Int := if cs.head? = some '-' then -i else i

theorem signedAs_eq_id (h : afterSign? cs = none) : signedAs cs = id := by
  funext i
  apply if_neg
  intro hminus
  obtain ⟨rest, rfl⟩ := List.head?_eq_some_iff.mp hminus
  cases h

theorem eq_of_afterSign? {rest : List Char} (h : afterSign? cs = some rest) :
    cs = '-' :: rest ∨ cs = '+' :: rest := by
  unfold afterSign? at h
  split at h
  · exact .inl (congrArg _ (Option.some.inj h))
  · exact .inr (congrArg _ (Option.some.inj h))
  · cases h

/-- A sign is read off the front, where no blank and no other sign follows it. -/
theorem readInteger?_unsigned (h : ∀ c ∈ (unsigned cs).head?, isFront c = false) :
    readInteger? radix cs = (readInteger? radix (unsigned cs)).map (signedAs cs) := by
  rw [readInteger?_of_head h]
  rw [unsigned] at h ⊢
  cases hsign : afterSign? cs with
  | none =>
      rw [hsign, Option.getD_none] at h
      rw [Option.getD_none, readInteger?_of_head h, signedAs_eq_id hsign, Option.map_id, id]
  | some rest =>
      rw [Option.getD_some, Option.map_map]
      rcases eq_of_afterSign? hsign with rfl | rfl
      · exact readInteger?_minus rest
      · exact readInteger?_plus rest

/-- Nothing is read where a blank or another sign follows a sign. -/
theorem readInteger?_of_front {rest : List Char} {c : Char} (hrest : afterSign? cs = some rest)
    (hc : rest.head? = some c) (hfront : isFront c = true) : readInteger? radix cs = none := by
  obtain ⟨rest, rfl⟩ := List.head?_eq_some_iff.mp hc
  have hnone : readNatural? radix (trimmed (c :: rest)) = none := by
    have hprefix : trimmed (c :: rest) <+: c :: rest := List.rdropWhile_prefix _ _
    cases htrimmed : trimmed (c :: rest) with
    | nil => rfl
    | cons c' cs' =>
        rw [htrimmed] at hprefix
        rw [(List.cons_prefix_cons.mp hprefix).1]
        exact readNatural?_of_front hfront
  rcases eq_of_afterSign? hrest with rfl | rfl
  · rw [readInteger?_minus, hnone, Option.map_none]
  · rw [readInteger?_plus, hnone, Option.map_none]

/-! ## Pieces -/

/-- A long text is read without its sign, piece by piece. -/
theorem readLongInteger?_eq (radix : Nat) (cs : List Char) :
    readLongInteger? radix cs =
      (readPieces? radix (pieces (unsigned cs))).map (signedAs cs) := by
  cases hsign : afterSign? cs with
  | none =>
      rw [unsigned, hsign, Option.getD_none, signedAs_eq_id hsign, Option.map_id, id]
      unfold afterSign? at hsign
      split at hsign
      · cases hsign
      · cases hsign
      · next hminus hplus =>
          unfold readLongInteger?
          split
          · next rest => exact absurd rfl (hminus rest)
          · next rest => exact absurd rfl (hplus rest)
          · rfl
  | some rest =>
      rw [unsigned, hsign, Option.getD_some]
      rcases eq_of_afterSign? hsign with rfl | rfl
      · rfl
      · have hsame : signedAs ('+' :: rest) = id := rfl
        rw [hsame, Option.map_id]
        rfl

/-- Pieces read one after the other, after those that make up a value. -/
def readPiecesFrom? (radix : Nat) (value : Int) (parts : List (List Char)) : Option Int :=
  parts.foldlM (fun (value : Int) part =>
    (readInteger? radix part).map (value * (radix.pow part.length : Nat) + ·)) value

theorem readPieces?_eq (radix : Nat) (parts : List (List Char)) :
    readPieces? radix parts = readPiecesFrom? radix 0 parts := rfl

theorem readPiecesFrom?_nil (radix : Nat) (value : Int) :
    readPiecesFrom? radix value [] = some value := rfl

theorem readPiecesFrom?_cons (radix : Nat) (value : Int) (part : List Char)
    (parts : List (List Char)) :
    readPiecesFrom? radix value (part :: parts) =
      (readInteger? radix part).bind fun i =>
        readPiecesFrom? radix (value * (radix ^ part.length : Nat) + i) parts := by
  rw [readPiecesFrom?, List.foldlM_cons]
  cases readInteger? radix part <;> rfl

/-- The first piece of a longer text. -/
theorem pieces_append {first : List Char} (hfirst : first.length = pieceLength) (hne : t ≠ []) :
    pieces (first ++ t) = first :: pieces t := by
  have hlong : ¬ (first ++ t).length ≤ pieceLength := by
    have ht := List.length_pos_iff.mpr hne
    rw [List.length_append]
    omega
  rw [pieces, if_neg hlong, ← hfirst, List.take_left, List.drop_left]

/-- No piece is longer than `pieceLength`, by induction on the pieces. -/
theorem length_le_of_mem_pieces {part : List Char} (h : part ∈ pieces cs) :
    part.length ≤ pieceLength := by
  fun_induction pieces cs with
  | case1 cs hshort => rwa [List.mem_singleton.mp h]
  | case2 cs hlong ih =>
      rcases List.mem_cons.mp h with rfl | hrest
      · exact List.length_take_le _ _
      · exact ih hrest

/-- A piece alone is read as the integer text that it is. -/
theorem readPieces?_singleton (part : List Char) :
    readPieces? radix [part] = readInteger? radix part := by
  rw [readPieces?_eq, readPiecesFrom?_cons]
  cases readInteger? radix part with
  | none => rfl
  | some i => simp [readPiecesFrom?_nil]

theorem isSome_readPiecesFrom?_iff {parts : List (List Char)} {value : Int} :
    (readPiecesFrom? radix value parts).isSome = true ↔
      ∀ part ∈ parts, (readInteger? radix part).isSome = true := by
  induction parts generalizing value with
  | nil => simp [readPiecesFrom?_nil]
  | cons part parts ih =>
      rw [readPiecesFrom?_cons, List.forall_mem_cons]
      cases readInteger? radix part with
      | none => simp
      | some i => simpa using ih

/-- **A text can be read** exactly if each of its pieces can. -/
theorem isSome_readLongInteger?_iff :
    (readLongInteger? radix cs).isSome = true ↔
      ∀ part ∈ pieces (unsigned cs), (readInteger? radix part).isSome = true := by
  rw [readLongInteger?_eq, Option.isSome_map, readPieces?_eq, isSome_readPiecesFrom?_iff]

/-! ## Texts of one piece -/

theorem readLongInteger?_of_short (h : (unsigned cs).length ≤ pieceLength) :
    readLongInteger? radix cs = (readInteger? radix (unsigned cs)).map (signedAs cs) := by
  rw [readLongInteger?_eq, pieces, if_pos h, readPieces?_singleton]

/-- A text with a sign before blanks or another sign, and an integer text after the first
sign. -/
def SignedTwice (radix : Nat) (cs : List Char) : Prop :=
  ∃ rest c, afterSign? cs = some rest ∧ rest.head? = some c ∧ isFront c = true ∧
    (readInteger? radix rest).isSome = true

/-- **A text of one piece** is read as the integer it is, unless its sign is followed by
blanks or another sign: then it is none, and what follows the sign is read. -/
theorem readLongInteger?_eq_iff_of_short (h : (unsigned cs).length ≤ pieceLength) :
    readLongInteger? radix cs = readInteger? radix cs ↔ ¬ SignedTwice radix cs := by
  rw [readLongInteger?_of_short h]
  by_cases hfront : ∀ c ∈ (unsigned cs).head?, isFront c = false
  · refine ⟨?_, fun _ => (readInteger?_unsigned hfront).symm⟩
    rintro - ⟨rest, c, hrest, hc, hcfront, -⟩
    rw [unsigned, hrest, Option.getD_some] at hfront
    rw [hfront c hc] at hcfront
    cases hcfront
  · push Not at hfront
    obtain ⟨c, hc, hcfront⟩ := hfront
    rw [Option.mem_def] at hc
    rw [ne_eq, Bool.not_eq_false] at hcfront
    cases hsign : afterSign? cs with
    | none =>
        rw [unsigned, hsign, Option.getD_none, signedAs_eq_id hsign, Option.map_id, id]
        refine ⟨?_, fun _ => rfl⟩
        rintro - ⟨rest, -, hrest, -⟩
        rw [hsign] at hrest
        cases hrest
    | some rest =>
        rw [unsigned, hsign, Option.getD_some] at hc ⊢
        rw [readInteger?_of_front hsign hc hcfront]
        constructor
        · rintro hnone ⟨rest', c', hrest', -, -, hread⟩
          rw [hsign, Option.some.injEq] at hrest'
          subst hrest'
          rw [Option.map_eq_none_iff] at hnone
          rw [hnone] at hread
          cases hread
        · intro honce
          rw [Option.map_eq_none_iff, ← Option.not_isSome_iff_eq_none]
          intro hread
          exact honce ⟨rest, c, hsign, hc, hcfront, hread⟩

/-! ## Texts of several pieces -/

theorem radixValue_append (q : List Char) (ht : ∀ c ∈ t, IsRadixDigit radix c) :
    radixValue radix (q ++ t) = radixValue radix q * radix ^ t.length + radixValue radix t := by
  rw [radixValue, List.filterMap_append, ofDigits_append, length_digits ht, radixValue, radixValue]

/-- Digits alone are an integer text. -/
theorem readInteger?_of_digits (hne : cs ≠ []) (hcs : ∀ c ∈ cs, IsRadixDigit radix c) :
    readInteger? radix cs = some (radixValue radix cs : Int) := by
  have hfront : ∀ c ∈ cs.head?, isFront c = false := fun c hc =>
    (hcs c (List.mem_of_mem_head? hc)).closes.1
  have hlast : ∀ c ∈ cs.getLast?, isIntegerBlank c = false := fun c hc =>
    isIntegerBlank_of_isFront (hcs c (List.mem_of_mem_getLast? hc)).closes.1
  rw [readInteger?_of_head hfront, trimmed_of_getLast? hlast, readNatural?_of_digits hne hcs]
  rfl

/-- Pieces of digits multiply the value before them by the power of the radix, by induction on
the pieces. -/
theorem readPiecesFrom?_of_digits (hne : cs ≠ []) (hcs : ∀ c ∈ cs, IsRadixDigit radix c)
    (value : Int) :
    readPiecesFrom? radix value (pieces cs) =
      some (value * (radix ^ cs.length : Nat) + radixValue radix cs) := by
  fun_induction pieces cs generalizing value with
  | case1 cs hshort =>
      rw [readPiecesFrom?_cons, readInteger?_of_digits hne hcs, Option.bind_some,
        readPiecesFrom?_nil]
  | case2 cs hlong ih =>
      have hlength : pieceLength < cs.length := Nat.not_le.mp hlong
      have hpiece : ∀ c ∈ cs.take pieceLength, IsRadixDigit radix c := fun c hc =>
        hcs c (List.mem_of_mem_take hc)
      have hrest : ∀ c ∈ cs.drop pieceLength, IsRadixDigit radix c := fun c hc =>
        hcs c (List.mem_of_mem_drop hc)
      have hpiecene : cs.take pieceLength ≠ [] := by
        rw [ne_eq, List.take_eq_nil_iff]
        exact not_or.mpr ⟨by decide, hne⟩
      have hrestne : cs.drop pieceLength ≠ [] := by
        rw [ne_eq, List.drop_eq_nil_iff]
        omega
      rw [readPiecesFrom?_cons, readInteger?_of_digits hpiecene hpiece, Option.bind_some,
        ih hrestne hrest]
      have hwhole := radixValue_append (cs.take pieceLength) hrest
      rw [List.take_append_drop] at hwhole
      have hsum : cs.length = (cs.take pieceLength).length + (cs.drop pieceLength).length := by
        rw [← List.length_append, List.take_append_drop]
      rw [hwhole, hsum, pow_add]
      push_cast
      congr 1
      ring

/-- **Digits are read as what they stand for**, however many there are, with or without a
minus. -/
theorem readLongInteger?_of_digits (hne : cs ≠ []) (hcs : ∀ c ∈ cs, IsRadixDigit radix c)
    (negative : Bool) :
    readLongInteger? radix ((if negative then ['-'] else []) ++ cs) =
      some (if negative then -(radixValue radix cs : Int) else radixValue radix cs) := by
  have hread : readPieces? radix (pieces cs) = some (radixValue radix cs : Int) := by
    rw [readPieces?_eq, readPiecesFrom?_of_digits hne hcs, Int.zero_mul, Int.zero_add]
  cases negative with
  | true =>
      have hminus : readLongInteger? radix ('-' :: cs) =
          (readPieces? radix (pieces cs)).map (- ·) := rfl
      rw [hread] at hminus
      exact hminus
  | false =>
      have hsign : afterSign? cs = none :=
        afterSign?_of_head fun c hc => (hcs c (List.mem_of_mem_head? hc)).closes.1
      have hplain := readLongInteger?_eq radix cs
      rw [signedAs_eq_id hsign, unsigned, hsign, Option.getD_none, hread] at hplain
      exact hplain

/-- A long text whose pieces after the first one are digits, while the first has nothing before
the numeral and does not end in a blank or an underscore. -/
structure EndsInDigits (radix : Nat) (cs : List Char) : Prop where
  head : ∀ c ∈ cs.head?, isFront c = false
  border : ∃ c, (cs.take pieceLength).getLast? = some c ∧ c ≠ '_' ∧ isIntegerBlank c = false
  digits : ∀ c ∈ cs.drop pieceLength, IsRadixDigit radix c

/-- **A text of several pieces** is read as the integer it is, if those after the first are
digits. -/
theorem readLongInteger?_eq_of_digits (hlong : pieceLength < (unsigned cs).length)
    (h : EndsInDigits radix (unsigned cs)) :
    readLongInteger? radix cs = readInteger? radix cs := by
  rw [readLongInteger?_eq, readInteger?_unsigned h.head]
  congr 1
  generalize unsigned cs = body at hlong h
  obtain ⟨hhead, ⟨c, hborder, hunderscore, hblank⟩, hdigits⟩ := h
  have hfirst : (body.take pieceLength).length = pieceLength := by
    rw [List.length_take]
    omega
  have hrestne : body.drop pieceLength ≠ [] := by
    rw [ne_eq, List.drop_eq_nil_iff]
    omega
  have hbody := List.take_append_drop pieceLength body
  generalize body.take pieceLength = first at *
  generalize body.drop pieceLength = rest at *
  obtain rfl := hbody
  have hfirstne : first ≠ [] := List.ne_nil_of_length_pos (by rw [hfirst]; decide)
  have hfirsthead : ∀ c ∈ first.head?, isFront c = false := by
    intro c hc
    exact hhead c (by rw [List.head?_append_of_ne_nil _ hfirstne]; exact hc)
  have hfirstlast : ∀ c ∈ first.getLast?, isIntegerBlank c = false := by
    intro c' hc'
    rw [hborder, Option.mem_some_iff] at hc'
    rwa [← hc']
  have hlast : ∀ c ∈ (first ++ rest).getLast?, isIntegerBlank c = false := by
    intro c' hc'
    rw [List.getLast?_append_of_ne_nil _ hrestne] at hc'
    exact isIntegerBlank_of_isFront (hdigits c' (List.mem_of_mem_getLast? hc')).closes.1
  have hlongfirst : 3 < first.length := by
    rw [hfirst]
    decide
  rw [readInteger?_of_head hhead, trimmed_of_getLast? hlast,
    readNatural?_append hlongfirst ⟨c, hborder, hunderscore⟩ hrestne hdigits,
    pieces_append hfirst hrestne, readPieces?_eq, readPiecesFrom?_cons,
    readInteger?_of_head hfirsthead, trimmed_of_getLast? hfirstlast]
  cases readNatural? radix first with
  | none => rfl
  | some n =>
      rw [Option.map_some, Option.bind_some, readPiecesFrom?_of_digits hrestne hdigits,
        Option.map_some, Option.map_some, Int.ofNat_eq_natCast, Int.ofNat_eq_natCast]
      congr 1
      push_cast
      ring

end DecimalCalc.Numeral
