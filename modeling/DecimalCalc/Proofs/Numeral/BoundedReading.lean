import DecimalCalc.Numeral.Integer
import DecimalCalc.Proofs.Numeral.LeadingDigit
import Mathlib.Data.List.TakeWhile
/-!
# Reading integers within the numeral limit

An integer that is read can be shown again: it has no more digits than were counted before
it was read (`natAbs_lt_of_readBounded`).  The count is of the digits that the text begins
with after blanks and a sign, and a text that is an integer has nothing else but blanks at
its end.
-/

namespace DecimalCalc.Numeral

open Text

/-- What a text is stripped of at its end. -/
theorem exists_stripped (p : Char → Bool) (cs : List Char) :
    ∃ blanks, (∀ c ∈ blanks, p c = true) ∧ cs.dropWhile p = stripChars p cs ++ blanks := by
  refine ⟨((cs.dropWhile p).reverse.takeWhile p).reverse, ?_, ?_⟩
  · intro c hc
    exact List.all_eq_true.mp List.all_takeWhile c (List.mem_reverse.mp hc)
  · rw [stripChars, ← List.reverse_append, List.takeWhile_append_dropWhile, List.reverse_reverse]

/-- Letters stand for ten and more, so a decimal digit is a digit of a script. -/
theorem isDigit_of_radixDigit? {c : Char} {d : Nat} (h : radixDigit? 10 c = some d) :
    isDigit c = true ∧ d < 10 := by
  obtain ⟨hvalue, hlt⟩ := Option.filter_eq_some_iff.mp h
  have hten : d < 10 := by simpa using hlt
  split at hvalue
  · next hletter =>
      have hlow : 97 ≤ c.toNat := hletter.1
      cases hvalue
      omega
  · split at hvalue
    · next hletter =>
        have hlow : 65 ≤ c.toNat := hletter.1
        cases hvalue
        omega
    · exact ⟨Option.isSome_iff_exists.mpr ⟨d, hvalue⟩, hten⟩

/-- The characters of grouped decimal digits are digits and underscores, a digit first. -/
theorem of_groupedDigits? {cs : List Char} {ds : List Nat} (h : groupedDigits? 10 cs = some ds) :
    (∃ c following, cs = c :: following ∧ isDigit c = true) ∧
      (∀ c ∈ cs, (isDigit c || c == '_') = true) ∧ ∀ d ∈ ds, d < 10 := by
  fun_induction groupedDigits? 10 cs generalizing ds with
  | case1 => cases h
  | case2 c =>
      obtain ⟨d, hd, rfl⟩ := Option.map_eq_some_iff.mp h
      obtain ⟨hdigit, hten⟩ := isDigit_of_radixDigit? hd
      refine ⟨⟨c, [], rfl, hdigit⟩, ?_, ?_⟩
      · simpa using Or.inl hdigit
      · simpa using hten
  | case3 c following ih =>
      obtain ⟨d, hd, h⟩ := Option.bind_eq_some_iff.mp h
      obtain ⟨others, hothers, hds⟩ := Option.bind_eq_some_iff.mp h
      cases hds
      obtain ⟨hdigit, hten⟩ := isDigit_of_radixDigit? hd
      obtain ⟨-, hchars, hvalues⟩ := ih hothers
      refine ⟨⟨c, _, rfl, hdigit⟩, ?_, List.forall_mem_cons.mpr ⟨hten, hvalues⟩⟩
      refine List.forall_mem_cons.mpr ⟨by simp [hdigit], ?_⟩
      exact List.forall_mem_cons.mpr ⟨by decide, hchars⟩
  | case4 c following hnil hunderscore ih =>
      obtain ⟨d, hd, h⟩ := Option.bind_eq_some_iff.mp h
      obtain ⟨others, hothers, hds⟩ := Option.bind_eq_some_iff.mp h
      cases hds
      obtain ⟨hdigit, hten⟩ := isDigit_of_radixDigit? hd
      obtain ⟨-, hchars, hvalues⟩ := ih hothers
      refine ⟨⟨c, _, rfl, hdigit⟩, ?_, List.forall_mem_cons.mpr ⟨hten, hvalues⟩⟩
      exact List.forall_mem_cons.mpr ⟨by simp [hdigit], hchars⟩

/-- A decimal numeral without sign is grouped digits. -/
theorem exists_of_readNatural? {cs : List Char} {n : Nat} (h : readNatural? 10 cs = some n) :
    ∃ ds, groupedDigits? 10 cs = some ds ∧ ofDigits 10 ds = n := by
  have hmark : afterMark? 10 cs = none := by
    unfold afterMark?
    split
    · exact if_neg fun hmark => Option.some_ne_none _ hmark.2.symm
    · rfl
  rw [readNatural?, hmark] at h
  exact Option.map_eq_some_iff.mp h

/-- A numeral in front of blanks ends where they begin. -/
theorem takeWhile_numeral {body blanks : List Char}
    (hbody : ∀ c ∈ body, (isDigit c || c == '_') = true)
    (hblanks : ∀ c ∈ blanks, isIntegerBlank c = true) :
    (body ++ blanks).takeWhile (fun c => isDigit c || c == '_') = body := by
  rw [List.takeWhile_append_of_pos hbody]
  cases blanks with
  | nil => exact List.append_nil body
  | cons c blanks =>
      have hblank := hblanks c List.mem_cons_self
      have hdigit : isDigit c = false := by
        by_contra hdigit
        rw [Bool.not_eq_false] at hdigit
        rw [isIntegerBlank, isBlank_of_isDigit hdigit] at hblank
        cases hblank
      have hunderscore : (c == '_') = false := by
        rw [beq_eq_false_iff_ne]
        rintro rfl
        exact absurd hblank (by decide)
      rw [List.takeWhile_cons_of_neg (by simp [hdigit, hunderscore]), List.append_nil]

/-- The digits that are read are those that were counted. -/
theorem leadingDigits_eq {cs : List Char} {i : Int} (h : readInteger? 10 cs = some i) :
    ∃ ds : List Nat, leadingDigits cs = ds.length ∧ i.natAbs = ofDigits 10 ds ∧
      ∀ d ∈ ds, d < 10 := by
  obtain ⟨blanks, hblanks, hfront⟩ := exists_stripped isIntegerBlank cs
  -- the count sees the numeral that is read, whatever sign stands before it
  have hcount : ∀ {body ds}, groupedDigits? 10 body = some ds →
      leadingNumeral cs = (body ++ blanks).takeWhile (fun c => isDigit c || c == '_') →
      leadingDigits cs = ds.length ∧ ∀ d ∈ ds, d < 10 := by
    intro body ds hds hnumeral
    obtain ⟨-, hchars, hten⟩ := of_groupedDigits? hds
    rw [takeWhile_numeral hchars hblanks] at hnumeral
    exact ⟨by rw [leadingDigits, hnumeral, hds, Option.getD_some], hten⟩
  unfold readInteger? at h
  split at h
  · next body hcore =>
      obtain ⟨i, hread, rfl⟩ := Option.map_eq_some_iff.mp h
      obtain ⟨n, hn, hcast⟩ := Option.bind_eq_some_iff.mp hread
      cases hcast
      obtain ⟨ds, hds, rfl⟩ := exists_of_readNatural? hn
      obtain ⟨hlength, hten⟩ := hcount hds (by rw [leadingNumeral, hfront, hcore]; rfl)
      exact ⟨ds, hlength, (Int.natAbs_neg _).trans (Int.natAbs_natCast _), hten⟩
  · next body hcore =>
      obtain ⟨n, hn, rfl⟩ := Option.map_eq_some_iff.mp h
      obtain ⟨ds, hds, rfl⟩ := exists_of_readNatural? hn
      obtain ⟨hlength, hten⟩ := hcount hds (by rw [leadingNumeral, hfront, hcore]; rfl)
      exact ⟨ds, hlength, rfl, hten⟩
  · obtain ⟨n, hn, rfl⟩ := Option.map_eq_some_iff.mp h
    obtain ⟨ds, hds, rfl⟩ := exists_of_readNatural? hn
    obtain ⟨⟨c, following, hcore, hdigit⟩, -, -⟩ := of_groupedDigits? hds
    have hminus : c ≠ '-' := ne_of_isDigit hdigit (by decide)
    have hplus : c ≠ '+' := ne_of_isDigit hdigit (by decide)
    obtain ⟨hlength, hten⟩ := hcount hds (by
      rw [leadingNumeral, hfront, hcore]
      simp [hminus, hplus])
    exact ⟨ds, hlength, rfl, hten⟩

/-- **An integer that is read can be shown.** -/
theorem natAbs_lt_of_readBounded {s : String} {i : Int} (h : readBounded s = .ok i) :
    i.natAbs < tenTo Fault.longestNumeral := by
  unfold readBounded at h
  dsimp only at h
  split at h
  · cases h
  · next hshort =>
      split at h
      · next hread =>
          cases h
          obtain ⟨ds, hlength, hvalue, hten⟩ := leadingDigits_eq hread
          have hbound : ofDigits 10 ds < tenTo ds.length := ofDigits_lt (by decide) hten
          rw [hlength] at hshort
          rw [hvalue]
          exact hbound.trans_le (tenTo_le_tenTo (Nat.not_lt.mp hshort))
      · cases h

end DecimalCalc.Numeral
