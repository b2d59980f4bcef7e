import DecimalCalc.Expression.Parser
import Mathlib.Combinatorics.Enumerative.DyckWord
import Mathlib.Order.Bounds.Basic
/-!
# Parentheses and their partners

Two parentheses are partners if the text between them is well nested.  Matching finds the
leftmost parenthesis that has no partner, and finds none exactly if the parentheses of the
text are a Dyck word: `unpaired?_leftmost`.

What has been read of a text is a run of well nested texts with the open parentheses between
them (`Read`), and every step of matching keeps this.  So when matching ends, what lies to the
left of its answer is well nested (`Ended`), and there every parenthesis has a partner
(`Nested.paired`).  That the answer itself has none is a matter of counting: a partner would
enclose a text with more closing parentheses than opening ones.

Matching goes through a balanced text without a trace: the parentheses that were open
before it are open after it.  `Balances` says this of a piece of text, wherever it stands.
-/

namespace DecimalCalc.Brackets

/-! ## Balanced text -/

/-- Matching goes through a text and leaves the open parentheses as they were. -/
def Balances (front : List Char) : Prop :=
  ∀ position opened rest,
    unpairedFrom? position opened (front ++ rest) =
      unpairedFrom? (position + front.length) opened rest

variable {front front' : List Char}

theorem balances_nil : Balances [] := by
  intro position opened rest
  rfl

/-- A character that is no parenthesis is passed over. -/
theorem balances_singleton {c : Char} (hopen : c ≠ '(') (hclose : c ≠ ')') :
    Balances [c] := by
  intro position opened rest
  rw [List.singleton_append, unpairedFrom?]
  · rfl
  · exact hopen
  · intro _; exact hclose
  · intro _ _ _; exact hclose

theorem Balances.append (h : Balances front) (h' : Balances front') :
    Balances (front ++ front') := by
  intro position opened rest
  rw [List.append_assoc, h, h', List.length_append, Nat.add_assoc]

theorem balances_of_forall (h : ∀ c ∈ front, c ≠ '(' ∧ c ≠ ')') : Balances front := by
  induction front with
  | nil => exact balances_nil
  | cons c cs ih =>
      obtain ⟨hhead, htail⟩ := List.forall_mem_cons.mp h
      exact (balances_singleton hhead.1 hhead.2).append (ih htail)

/-- The closing parenthesis takes the opening one away that was put on top. -/
theorem Balances.enclosed (h : Balances front) : Balances (['('] ++ (front ++ [')'])) := by
  intro position opened rest
  rw [List.append_assoc, List.append_assoc, List.singleton_append, unpairedFrom?, h,
    List.singleton_append, unpairedFrom?]
  congr 1
  simp only [List.length_append, List.length_singleton]
  omega

/-- A text that is balanced has no parenthesis without a partner. -/
theorem unpaired?_eq_none {source : String} (h : Balances source.toList) :
    unpaired? source = none := by
  have hend := h 0 [] []
  rw [List.append_nil] at hend
  exact hend

/-! ## Parentheses as steps -/

/-- A parenthesis as a step of a Dyck word. -/
def step? : Char → Option DyckStep
  | '(' => some .U
  | ')' => some .D
  | _ => none

/-- The parentheses of a text, without the other characters. -/
def steps (cs : List Char) : List DyckStep := cs.filterMap step?

/-- Well nested texts: characters other than parentheses, and well nested texts in
parentheses, one after the other. -/
inductive Nested : List Char → Prop where
  | nil : Nested []
  | other {c : Char} {cs : List Char} (hopen : c ≠ '(') (hclose : c ≠ ')') (h : Nested cs) :
      Nested (c :: cs)
  | group {inside rest : List Char} (hinside : Nested inside) (hrest : Nested rest) :
      Nested ('(' :: (inside ++ ')' :: rest))

/-- The places of an opening and a closing parenthesis with a well nested text between
them. -/
def Partners (cs : List Char) (i j : Nat) : Prop :=
  ∃ before inside after, cs = before ++ '(' :: (inside ++ ')' :: after) ∧ Nested inside ∧
    i = before.length ∧ j = (before ++ '(' :: inside).length

/-- A place that has a partner, on either side. -/
def Paired (cs : List Char) (i : Nat) : Prop := ∃ j, Partners cs i j ∨ Partners cs j i

/-- The place of a parenthesis without a partner. -/
def Unpaired (cs : List Char) (i : Nat) : Prop :=
  (cs[i]? = some '(' ∨ cs[i]? = some ')') ∧ ¬ Paired cs i

variable {cs cs' rest rest' : List Char} {i i' j j' : Nat}

/-! ## Well nested texts -/

theorem nested_singleton {c : Char} (hopen : c ≠ '(') (hclose : c ≠ ')') : Nested [c] :=
  .other hopen hclose .nil

theorem Nested.append (h : Nested cs) (h' : Nested cs') : Nested (cs ++ cs') := by
  induction h with
  | nil => exact h'
  | other hopen hclose _ ih => exact .other hopen hclose ih
  | @group inside rest hinside _ _ ih =>
      rw [List.cons_append, List.append_assoc, List.cons_append]
      exact .group hinside ih

/-- Matching goes through well nested texts without a trace. -/
theorem Nested.balances (h : Nested cs) : Balances cs := by
  induction h with
  | nil => exact balances_nil
  | other hopen hclose _ ih => exact (balances_singleton hopen hclose).append ih
  | @group inside rest _ _ ihInside ihRest =>
      have hgroup := ihInside.enclosed.append ihRest
      simpa using hgroup

/-! ## Counting -/

theorem steps_append (cs cs' : List Char) : steps (cs ++ cs') = steps cs ++ steps cs' :=
  List.filterMap_append

/-- The parentheses of a well nested text are a Dyck word, by induction on the nesting. -/
theorem Nested.exists_dyckWord (h : Nested cs) : ∃ w : DyckWord, w.toList = steps cs := by
  induction h with
  | nil => exact ⟨0, rfl⟩
  | @other c cs hopen hclose _ ih =>
      have hnone : step? c = none := by
        unfold step?
        split
        · exact absurd rfl hopen
        · exact absurd rfl hclose
        · rfl
      obtain ⟨w, hw⟩ := ih
      exact ⟨w, by rw [hw, steps, steps, List.filterMap_cons_none hnone]⟩
  | @group inside rest _ _ ihInside ihRest =>
      obtain ⟨u, hu⟩ := ihInside
      obtain ⟨w, hw⟩ := ihRest
      refine ⟨u.nest + w, ?_⟩
      change [.U] ++ u.toList ++ [.D] ++ w.toList = .U :: steps (inside ++ ')' :: rest)
      rw [hu, hw, steps_append]
      simp [steps, step?]

/-- A front of a Dyck word closes at most what it has opened. -/
theorem count_front_le {w : DyckWord} (h : w.toList = steps (front ++ cs)) :
    (steps front).count .D ≤ (steps front).count .U := by
  have hle := w.count_D_le_count_U (steps front).length
  rwa [h, steps_append, List.take_left] at hle

/-- A Dyck word closes what it has opened. -/
theorem Nested.count_eq (h : Nested cs) : (steps cs).count .U = (steps cs).count .D := by
  obtain ⟨w, hw⟩ := h.exists_dyckWord
  rw [← hw]
  exact w.count_U_eq_count_D

/-- A text that nowhere closes more than it has opened. -/
def Covered (cs : List Char) : Prop :=
  ∀ front rest, cs = front ++ rest → (steps front).count .D ≤ (steps front).count .U

theorem Nested.covered (h : Nested cs) : Covered cs := by
  obtain ⟨w, hw⟩ := h.exists_dyckWord
  rintro front rest rfl
  exact count_front_le hw

/-- An opening parenthesis between two such texts is never closed too often. -/
theorem Covered.opened (h : Covered cs) (h' : Covered cs') : Covered (cs ++ '(' :: cs') := by
  intro front rest happend
  rcases List.append_eq_append_iff.mp happend with ⟨more, rfl, hmore⟩ | ⟨more, rfl, -⟩
  · cases more with
    | nil =>
        rw [List.append_nil]
        exact h cs [] (List.append_nil cs).symm
    | cons c more =>
        obtain ⟨rfl, hrest⟩ := List.cons.inj hmore
        have hfront := h cs [] (List.append_nil cs).symm
        have hmore := h' more rest hrest
        have hopen : steps ('(' :: more) = .U :: steps more := rfl
        rw [steps_append, List.count_append, List.count_append, hopen, List.count_cons_self,
          List.count_cons_of_ne (by decide)]
        omega
  · exact h front more rfl

/-- A text that ends in an open parenthesis with a well nested text behind it is not well
nested. -/
theorem Nested.not_nested_open (h : Nested cs) (front : List Char) :
    ¬ Nested (front ++ '(' :: cs) := by
  intro hwhole
  have hinside := h.count_eq
  have hfront := hwhole.covered front _ rfl
  have htotal := hwhole.count_eq
  have hopen : steps ('(' :: cs) = .U :: steps cs := rfl
  simp [steps_append, hopen] at htotal
  omega

/-- A closing parenthesis behind a well nested text closes more than was opened. -/
theorem Nested.not_covered_close (h : Nested cs) (rest : List Char) :
    ¬ Covered (cs ++ ')' :: rest) := by
  intro hwhole
  have hinside := h.count_eq
  have hfront := hwhole (cs ++ [')']) rest (by simp)
  have hclose : steps [')'] = [.D] := rfl
  simp [steps_append, hclose] at hfront
  omega

/-- Two well nested texts in front of a closing parenthesis are the same: the longer one would
close more than it has opened. -/
theorem Nested.eq_of_close (h : Nested cs) (h' : Nested cs')
    (heq : cs ++ ')' :: rest = cs' ++ ')' :: rest') : cs = cs' := by
  have hempty : ∀ {cs more rest rest' : List Char}, Nested cs → Nested (cs ++ more) →
      ')' :: rest = more ++ ')' :: rest' → more = [] := by
    intro cs more rest rest' hshort hlong hmore
    cases more with
    | nil => rfl
    | cons c more =>
        obtain ⟨rfl, -⟩ := List.cons.inj hmore
        exact absurd hlong.covered (hshort.not_covered_close more)
  rcases List.append_eq_append_iff.mp heq with ⟨more, rfl, hmore⟩ | ⟨more, rfl, hmore⟩
  · rw [hempty h h' hmore, List.append_nil]
  · rw [hempty h' h hmore, List.append_nil]

/-- Two texts in front of an open parenthesis with a well nested text behind it are the
same. -/
theorem Nested.eq_of_open (h : Nested cs) (h' : Nested cs')
    (heq : front ++ '(' :: cs = front' ++ '(' :: cs') : front = front' := by
  have hempty : ∀ {cs cs' more : List Char}, Nested cs → Nested cs' →
      '(' :: cs = more ++ '(' :: cs' → more = [] := by
    intro cs cs' more hlong hshort hmore
    cases more with
    | nil => rfl
    | cons c more =>
        obtain ⟨-, rfl⟩ := List.cons.inj hmore
        exact absurd hlong (hshort.not_nested_open more)
  rcases List.append_eq_append_iff.mp heq with ⟨more, rfl, hmore⟩ | ⟨more, rfl, hmore⟩
  · rw [hempty h h' hmore, List.append_nil]
  · rw [hempty h' h hmore, List.append_nil]

/-! ## Partners -/

/-- Partners stay partners when text is put around them. -/
theorem Partners.within (h : Partners cs i j) (front rest : List Char) :
    Partners (front ++ (cs ++ rest)) (front.length + i) (front.length + j) := by
  obtain ⟨before, inside, after, rfl, hinside, rfl, rfl⟩ := h
  refine ⟨front ++ before, inside, after ++ rest, by simp, hinside, by simp, ?_⟩
  simp only [List.length_append]
  omega

theorem Paired.within (h : Paired cs i) (front rest : List Char) :
    Paired (front ++ (cs ++ rest)) (front.length + i) := by
  obtain ⟨j, hij | hji⟩ := h
  · exact ⟨_, .inl (hij.within front rest)⟩
  · exact ⟨_, .inr (hji.within front rest)⟩

/-- The partner of an opening parenthesis is the only closing one with a well nested text in
front of it. -/
theorem Partners.right_eq (h : Partners cs i j) (h' : Partners cs i j') : j = j' := by
  obtain ⟨before, inside, after, rfl, hinside, rfl, rfl⟩ := h
  obtain ⟨before', inside', after', heq, hinside', hplace, rfl⟩ := h'
  obtain ⟨rfl, htail⟩ := List.append_inj heq hplace
  rw [hinside.eq_of_close hinside' (List.cons.inj htail).2]

theorem Partners.left_eq (h : Partners cs i j) (h' : Partners cs i' j) : i = i' := by
  obtain ⟨before, inside, after, rfl, hinside, rfl, rfl⟩ := h
  obtain ⟨before', inside', after', heq, hinside', rfl, hplace⟩ := h'
  rw [← List.cons_append, ← List.append_assoc, ← List.cons_append, ← List.append_assoc] at heq
  rw [hinside.eq_of_open hinside' (List.append_inj heq hplace).1]

/-- **In a well nested text every parenthesis has a partner**, by induction on the
nesting. -/
theorem Nested.paired (h : Nested cs) (hi : cs[i]? = some '(' ∨ cs[i]? = some ')') :
    Paired cs i := by
  induction h generalizing i with
  | nil => simp at hi
  | @other c cs hopen hclose _ ih =>
      cases i with
      | zero => simp [hopen, hclose] at hi
      | succ i =>
          have hpaired := (ih hi).within [c] []
          rwa [List.append_nil, List.length_singleton, Nat.add_comm] at hpaired
  | @group inside rest hinside _ ihInside ihRest =>
      have hgroup : Partners ('(' :: (inside ++ ')' :: rest)) 0 (inside.length + 1) :=
        ⟨[], inside, rest, rfl, hinside, rfl, rfl⟩
      -- the first place, the text in parentheses, the place behind it, and the rest
      rcases Nat.eq_zero_or_pos i with rfl | hpos
      · exact ⟨_, .inl hgroup⟩
      obtain ⟨k, rfl⟩ : ∃ k, i = k + 1 := ⟨i - 1, by omega⟩
      rw [List.getElem?_cons_succ] at hi
      rcases Nat.lt_trichotomy k inside.length with hlt | rfl | hgt
      · rw [List.getElem?_append_left hlt] at hi
        have hpaired := (ihInside hi).within ['('] (')' :: rest)
        rwa [List.length_singleton, Nat.add_comm] at hpaired
      · exact ⟨_, .inr hgroup⟩
      · obtain ⟨m, rfl⟩ : ∃ m, k = inside.length + 1 + m :=
          ⟨k - (inside.length + 1), by omega⟩
        have hshift : inside.length + 1 + m - inside.length = m + 1 := by omega
        rw [List.getElem?_append_right (by omega), hshift, List.getElem?_cons_succ] at hi
        have hpaired := (ihRest hi).within ('(' :: (inside ++ [')'])) []
        have hlength : ('(' :: (inside ++ [')'])).length + m = inside.length + 1 + m + 1 := by
          simp only [List.length_cons, List.length_append, List.length_nil]
          omega
        rw [hlength] at hpaired
        simpa using hpaired

/-! ## Matching -/

/-- What matching has read: well nested texts with open parentheses between them.  The places
of the open ones are given, the last one first. -/
inductive Read : List Char → List Nat → Prop where
  | nested {front : List Char} (h : Nested front) : Read front []
  | opened {front inside : List Char} {opened : List Nat} (h : Read front opened)
      (hinside : Nested inside) : Read (front ++ '(' :: inside) (front.length :: opened)

/-- How matching a text ends: without a parenthesis that has no partner, at a closing one
behind a well nested text, or at an opening one behind a well nested text and in front of a
text that closes no more than it has opened. -/
inductive Ended : List Char → Option Nat → Prop where
  | nested {cs : List Char} (h : Nested cs) : Ended cs none
  | closing {before after : List Char} (h : Nested before) :
      Ended (before ++ ')' :: after) (some before.length)
  | opening {before after : List Char} (h : Nested before) (hafter : Covered after) :
      Ended (before ++ '(' :: after) (some before.length)

variable {opened : List Nat}

theorem Read.append (h : Read front opened) (hcs : Nested cs) : Read (front ++ cs) opened := by
  cases h with
  | nested hfront => exact .nested (hfront.append hcs)
  | @opened front inside opened hfront hinside =>
      have hread := hfront.opened (hinside.append hcs)
      rwa [← List.cons_append, ← List.append_assoc] at hread

/-- A closing parenthesis takes the last open one away. -/
theorem Read.close (h : Read front (i :: opened)) : Read (front ++ [')']) opened := by
  cases h with
  | @opened front inside _ hfront hinside =>
      have hgroup := hfront.append (.group hinside .nil)
      simpa using hgroup

/-- If parentheses are open, the first of them is behind a well nested text, and nothing behind
it closes it. -/
theorem Read.ended (h : Read front opened) : Ended front opened.getLast? := by
  have hcases : (opened = [] ∧ Nested front) ∨ ∃ before after,
      front = before ++ '(' :: after ∧ Nested before ∧ Covered after ∧
        opened.getLast? = some before.length := by
    induction h with
    | nested h => exact .inl ⟨rfl, h⟩
    | @opened front inside opened _ hinside ih =>
        rcases ih with ⟨rfl, hfront⟩ | ⟨before, after, rfl, hbefore, hafter, hlast⟩
        · exact .inr ⟨front, inside, rfl, hfront, hinside.covered, rfl⟩
        · refine .inr ⟨before, after ++ '(' :: inside, by simp, hbefore,
            hafter.opened hinside.covered, ?_⟩
          rw [List.getLast?_cons, hlast, Option.getD_some]
  rcases hcases with ⟨rfl, hfront⟩ | ⟨before, after, rfl, hbefore, hafter, hlast⟩
  · exact .nested hfront
  · rw [hlast]
    exact .opening hbefore hafter

/-- **How matching ends**, by induction on the text that is left. -/
theorem Read.ended_unpairedFrom? (h : Read front opened) (cs : List Char) :
    Ended (front ++ cs) (unpairedFrom? front.length opened cs) := by
  induction cs generalizing front opened with
  | nil =>
      rw [List.append_nil]
      exact h.ended
  | cons c cs ih =>
      have hnext : ∀ {opened'}, Read (front ++ [c]) opened' →
          Ended (front ++ c :: cs) (unpairedFrom? (front.length + 1) opened' cs) := by
        intro opened' hread
        have hended := ih hread
        rwa [List.append_assoc, List.length_append] at hended
      by_cases hopen : c = '('
      · subst hopen
        rw [unpairedFrom?]
        exact hnext (h.opened .nil)
      by_cases hclose : c = ')'
      · subst hclose
        cases opened with
        | nil =>
            cases h with
            | nested hfront => exact .closing hfront
        | cons place opened =>
            rw [unpairedFrom?]
            exact hnext h.close
      · have hpassed := balances_singleton hopen hclose front.length opened cs
        rw [← List.singleton_append, hpassed]
        exact hnext (h.append (nested_singleton hopen hclose))

theorem ended_unpaired? (source : String) : Ended source.toList (unpaired? source) :=
  (Read.nested .nil).ended_unpairedFrom? source.toList

/-! ## The answer -/

/-- Left of the answer nothing is without a partner. -/
theorem not_unpaired_of_lt {before : List Char} (h : Nested before) (hi : i < before.length)
    (after : List Char) : ¬ Unpaired (before ++ after) i := by
  rintro ⟨hparen, hnone⟩
  rw [List.getElem?_append_left hi] at hparen
  have hpaired := (h.paired hparen).within [] after
  rw [List.nil_append, List.length_nil, Nat.zero_add] at hpaired
  exact hnone hpaired

/-- What matching ends with is the leftmost parenthesis without a partner. -/
theorem Ended.isLeast (h : Ended cs (some i)) : IsLeast {k | Unpaired cs k} i := by
  cases h with
  | @closing before after h =>
      refine ⟨⟨.inr (by simp), ?_⟩, fun k hk => ?_⟩
      · rintro ⟨j, ⟨before', inside, after', heq, -, hplace, -⟩ |
          ⟨before', inside, after', heq, hinside, -, hplace⟩⟩
        · obtain ⟨-, hhead⟩ := List.append_inj heq hplace
          cases hhead
        · rw [← List.cons_append, ← List.append_assoc] at heq
          obtain ⟨rfl, -⟩ := List.append_inj heq hplace
          exact hinside.not_nested_open before' h
      · exact not_lt.mp fun hlt => not_unpaired_of_lt h hlt _ hk
  | @opening before after h hafter =>
      refine ⟨⟨.inl (by simp), ?_⟩, fun k hk => ?_⟩
      · rintro ⟨j, ⟨before', inside, after', heq, hinside, hplace, -⟩ |
          ⟨before', inside, after', heq, -, -, hplace⟩⟩
        · obtain ⟨-, htail⟩ := List.append_inj heq hplace
          obtain ⟨-, rfl⟩ := List.cons.inj htail
          exact hinside.not_covered_close after' hafter
        · rw [← List.cons_append, ← List.append_assoc] at heq
          obtain ⟨-, hhead⟩ := List.append_inj heq hplace
          cases hhead
      · exact not_lt.mp fun hlt => not_unpaired_of_lt h hlt _ hk

theorem Ended.nested_of_none (h : Ended cs none) : Nested cs := by
  cases h with
  | nested h => exact h

/-- If the parentheses are a Dyck word, matching ends without an answer. -/
theorem Ended.eq_none {w : DyckWord} {found : Option Nat} (h : Ended cs found)
    (hw : w.toList = steps cs) : found = none := by
  cases h with
  | nested h => rfl
  | @closing before after h =>
      have hsplit : before ++ ')' :: after = (before ++ [')']) ++ after := by simp
      rw [hsplit] at hw
      have hfront := count_front_le hw
      have htotal := h.count_eq
      have hclose : steps [')'] = [.D] := rfl
      simp [steps_append, hclose] at hfront
      omega
  | @opening before after h hafter =>
      have hword := w.count_U_eq_count_D
      have htotal := h.count_eq
      have hfront := hafter after [] (List.append_nil after).symm
      have hopen : steps ('(' :: after) = .U :: steps after := rfl
      rw [hw] at hword
      simp [steps_append, hopen] at hword
      omega

/-- **Matching finds the leftmost parenthesis without a partner.**  It finds none exactly if
the parentheses of the text are a Dyck word.  Partners are one to one. -/
theorem unpaired?_leftmost (source : String) :
    (unpaired? source = none ↔ ∃ w : DyckWord, w.toList = steps source.toList) ∧
      (∀ i, unpaired? source = some i ↔ IsLeast {k | Unpaired source.toList k} i) ∧
      ∀ i j i' j', Partners source.toList i j → Partners source.toList i' j' →
        (i = i' ↔ j = j') := by
  have hended := ended_unpaired? source
  refine ⟨⟨fun hnone => ?_, fun ⟨w, hw⟩ => hended.eq_none hw⟩,
    fun i => ⟨fun hi => ?_, fun hi => ?_⟩, fun i j i' j' h h' => ⟨?_, ?_⟩⟩
  · rw [hnone] at hended
    exact hended.nested_of_none.exists_dyckWord
  · rw [hi] at hended
    exact hended.isLeast
  · cases hfound : unpaired? source with
    | none =>
        rw [hfound] at hended
        exact absurd (hended.nested_of_none.paired hi.1.1) hi.1.2
    | some j =>
        rw [hfound] at hended
        rw [hended.isLeast.unique hi]
  · rintro rfl
    exact h.right_eq h'
  · rintro rfl
    exact h.left_eq h'

end DecimalCalc.Brackets
