import DecimalCalc.Traced
/-!
# Sequences of outcomes

How a sequence of two steps can end: with the result of the second one, with the
failure of the first, or with the failure of the second.  A traced computation ends as the
sequence of the outcomes of its steps, where reports have none of their own.

A failure is a known cause or a fault.  A sequence faults where one of its steps does
(`faults_bind_iff`), and what is known of the results of steps that do not (`Faultless`)
is carried through it.
-/

namespace DecimalCalc

variable {ε α β : Type} {x : Except ε α} {f : α → Except ε β}

/-- A sequence has a result if both of its steps have. -/
theorem bind_eq_ok_iff {b : β} : (x >>= f) = .ok b ↔ ∃ a, x = .ok a ∧ f a = .ok b := by
  cases x with
  | error e =>
      constructor
      · intro h
        cases h
      · rintro ⟨a, h, -⟩
        cases h
  | ok a =>
      constructor
      · intro h
        exact ⟨a, rfl, h⟩
      · rintro ⟨a', h, hf⟩
        cases h
        exact hf

/-- A sequence has a failure if its first step has, or the second one after a result. -/
theorem bind_eq_error_iff {e : ε} :
    (x >>= f) = .error e ↔ x = .error e ∨ ∃ a, x = .ok a ∧ f a = .error e := by
  cases x with
  | error e' =>
      constructor
      · intro h
        cases h
        exact .inl rfl
      · rintro (h | ⟨a, h, -⟩)
        · cases h
          rfl
        · cases h
  | ok a =>
      constructor
      · intro h
        exact .inr ⟨a, rfl, h⟩
      · rintro (h | ⟨a', h, hf⟩)
        · cases h
        · cases h
          exact hf

@[simp] theorem ok_bind (a : α) : (Except.ok a >>= f) = f a := rfl

@[simp] theorem error_bind (e : ε) : ((Except.error e : Except ε α) >>= f) = .error e := rfl

/-- What an outcome has as its result. -/
theorem eq_ok_of_toOption {a : α} (h : x.toOption = some a) : x = .ok a := by
  cases x with
  | error e => cases h
  | ok a' =>
      cases h
      rfl

/-- A property that every step of a sequence keeps holds of its result, by induction on the
steps. -/
theorem foldlM_keeps {P : β → Prop} {step : β → α → Except ε β}
    (hstep : ∀ b a b', P b → step b a = .ok b' → P b') {l : List α} {b b' : β} (hb : P b)
    (h : l.foldlM step b = .ok b') : P b' := by
  induction l generalizing b with
  | nil =>
      cases h
      exact hb
  | cons a l ih =>
      rw [List.foldlM_cons] at h
      obtain ⟨next, hnext, h⟩ := bind_eq_ok_iff.mp h
      exact ih (hstep b a next hb hnext) h

namespace Traced

@[simp] theorem outcome_liftM {α : Type} (x : Except Failure α) :
    (liftM x : Traced α).outcome = x := rfl

@[simp] theorem outcome_report (event : Event) : (report event).outcome = .ok () := rfl

/-- A result that is there already is passed on. -/
theorem liftM_ok_bind {α β : Type} (a : α) (f : α → Traced β) :
    ((liftM (Except.ok a : Except Failure α) : Traced α) >>= f) = f a := rfl

/-- The reports of a second step follow those of the first one, if that has a result. -/
theorem events_bind_of_ok {α β : Type} {x : Traced α} {a : α} (h : x.outcome = .ok a)
    (f : α → Traced β) : (x >>= f).events = x.events ++ (f a).events := by
  change (andThen x f).events = _
  unfold andThen
  rw [h]

/-- Sequences are the same if their second steps are, after the results of the first one. -/
theorem bind_congr {α β : Type} {x : Traced α} {f g : α → Traced β}
    (h : ∀ a, x.outcome = .ok a → f a = g a) : (x >>= f) = (x >>= g) := by
  change andThen x f = andThen x g
  unfold andThen
  cases hx : x.outcome with
  | error e => rfl
  | ok a => simp only [h a hx]

end Traced

/-! ## Ends -/

/-- The outcome is a result with one property, or a failure with another. -/
def Ends (P : α → Prop) (E : ε → Prop) : Except ε α → Prop
  | .ok a => P a
  | .error e => E e

section Ends

variable {P P' : α → Prop} {E E' : ε → Prop} {Q : β → Prop}

/-- A second step that looks at how the first one came to its result. -/
theorem Ends.bind_of_ok (hx : Ends P E x) (hf : ∀ a, x = .ok a → P a → Ends Q E (f a)) :
    Ends Q E (x >>= f) := by
  cases x with
  | ok a => exact hf a rfl hx
  | error e => exact hx

theorem Ends.bind (hx : Ends P E x) (hf : ∀ a, P a → Ends Q E (f a)) : Ends Q E (x >>= f) :=
  hx.bind_of_ok fun a _ => hf a

theorem Ends.mono (h : Ends P E x) (hP : ∀ a, P a → P' a) (hE : ∀ e, E e → E' e) :
    Ends P' E' x := by
  cases x with
  | ok a => exact hP a h
  | error e => exact hE e h

theorem Ends.mono_ok (h : Ends P E x) (hP : ∀ a, P a → P' a) : Ends P' E x :=
  h.mono hP fun _ he => he

theorem Ends.mono_error (h : Ends P E x) (hE : ∀ e, E e → E' e) : Ends P E' x :=
  h.mono (fun _ ha => ha) hE

/-- Of the failures of an outcome nothing is said. -/
theorem ends_of_forall_ok (h : ∀ a, x = .ok a → P a) : Ends P (fun _ => True) x := by
  cases x with
  | ok a => exact h a rfl
  | error e => exact trivial

theorem Ends.of_ok {a : α} (h : Ends P E x) (hx : x = .ok a) : P a := by
  subst hx
  exact h

theorem Ends.of_error {e : ε} (h : Ends P E x) (hx : x = .error e) : E e := by
  subst hx
  exact h

end Ends

/-! ## Faults -/

/-- The outcome is a fault, not a known cause. -/
def Faults (x : Except Failure α) : Prop := ∃ f, x = .error (.fault f)

/-- The outcome is a result with a property, or a known cause. -/
def Faultless (P : α → Prop) : Except Failure α → Prop
  | .ok a => P a
  | .error (.error _) => True
  | .error (.fault _) => False

section Faults

variable {P : α → Prop} {Q : β → Prop} {x : Except Failure α} {f : α → Except Failure β}

@[simp] theorem not_faults_ok (a : α) : ¬ Faults (.ok a : Except Failure α) := by
  rintro ⟨_, h⟩
  cases h

@[simp] theorem not_faults_error (e : Error) :
    ¬ Faults (.error (.error e) : Except Failure α) := by
  rintro ⟨_, h⟩
  cases h

@[simp] theorem faults_fault (fault : Fault) :
    Faults (.error (.fault fault) : Except Failure α) := ⟨fault, rfl⟩

/-- A sequence faults in its first step, or in the second one after a result. -/
theorem faults_bind_iff : Faults (x >>= f) ↔ Faults x ∨ ∃ a, x = .ok a ∧ Faults (f a) := by
  cases x with
  | ok a => simp
  | error e =>
      cases e with
      | error e => simp
      | fault fault => simp

/-- A second step that never faults can be passed over. -/
theorem faults_bind_iff_left (hf : ∀ a, ¬ Faults (f a)) : Faults (x >>= f) ↔ Faults x := by
  rw [faults_bind_iff]
  refine or_iff_left ?_
  rintro ⟨a, -, h⟩
  exact hf a h

theorem faultless_iff_ends : Faultless P x ↔ Ends P (fun f => ∀ fault, f ≠ .fault fault) x := by
  cases x with
  | ok a => exact Iff.rfl
  | error e =>
      cases e with
      | error e => exact iff_of_true trivial nofun
      | fault fault => exact iff_of_false id fun h => h fault rfl

theorem Faultless.not_faults (h : Faultless P x) : ¬ Faults x := by
  rintro ⟨fault, rfl⟩
  exact h

theorem Faultless.bind (hx : Faultless P x) (hf : ∀ a, P a → Faultless Q (f a)) :
    Faultless Q (x >>= f) := by
  cases x with
  | ok a => exact hf a hx
  | error e =>
      cases e with
      | error e => exact hx
      | fault fault => exact hx

end Faults

end DecimalCalc
