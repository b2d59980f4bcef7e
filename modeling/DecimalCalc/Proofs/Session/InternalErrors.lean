import DecimalCalc.Proofs.Expression.Faults
import DecimalCalc.Proofs.Session.Runs
/-!
# Internal errors

An answer to a text is a value, or a refusal with the message and the code of a cause that
is known, or an internal error.  The codes of causes are their own (`Error.code_ne_internal`),
so an internal error is a fault of the evaluation.

What can fault is a numeral too long to be written (`Session.WritesLongNumeral`): that of
the precision, or that of the exponent of a power.  `answer_internal_iff` says that it
always does, and that nothing else does.
-/

namespace DecimalCalc

open Numeral

/-- No cause that is known has the code of internal errors. -/
theorem Error.code_ne_internal (e : Error) : e.code ≠ "INTERNAL_ERROR" := by
  cases e <;> simp [code]

/-- What is no fault is answered with a value, or with the message and code of its cause. -/
theorem Answer.ofOutcome_of_not_faults {outcome : Except Failure Datum}
    (h : ¬ Faults outcome) :
    (∃ v, ofOutcome outcome = .ofDatum v) ∨
      ∃ e : Error, ofOutcome outcome = .refusal e.message e.code := by
  cases outcome with
  | ok v => exact .inl ⟨v, rfl⟩
  | error e =>
      cases e with
      | error e => exact .inr ⟨e, rfl⟩
      | fault f => exact absurd (faults_fault f) h

/-- An internal error is the answer that a fault is shown as. -/
theorem Answer.ofOutcome_internal_iff {outcome : Except Failure Datum} :
    (∃ message, ofOutcome outcome = .refusal message "INTERNAL_ERROR") ↔ Faults outcome := by
  constructor
  · rintro ⟨message, hinternal⟩
    by_contra hfaults
    obtain ⟨v, hv⟩ | ⟨e, he⟩ := ofOutcome_of_not_faults hfaults
    · rw [hv] at hinternal
      cases v with
      | number d => cases hinternal
      | truth b => cases hinternal
    · rw [he] at hinternal
      exact e.code_ne_internal (Answer.refusal.inj hinternal).2
  · rintro ⟨f, rfl⟩
    exact ⟨_, rfl⟩

/-- A question is about a text that has a tree, and answering it writes a numeral that is
too long: that of the precision in the report of the evaluation, or that of the exponent of
a power in its refusal. -/
def Session.WritesLongNumeral (s : Session) (source : String) (precision rounding : Value) :
    Prop :=
  ∃ p mode t, s.context.resolvePrecision precision = .ok p ∧
    s.context.resolveRounding rounding = .ok mode ∧
    Tree.ofSource s.context.settings source = .ok t ∧
    (tenTo Fault.longestNumeral ≤ p.natAbs ∨
      t.ReachesLongPower s.context (.int p) (.text mode.name))

/-- The faults of a question that is asked in a session. -/
theorem Session.Sound.faults_iff {settings : Settings} {s : Session} (h : s.Sound settings)
    (source : String) {precision rounding : Value}
    (hprecision : precision = .none ∨ ∃ p, p < 0 ∧ precision = .int p)
    (hrounding : rounding = .none ∨ ∃ mode : Rounding, rounding = .text mode.name) :
    Faults (compute s.context (.text source) precision rounding).outcome ↔
      s.WritesLongNumeral source precision rounding := by
  obtain ⟨p, hneg, hp⟩ := s.context.resolvePrecision_ok h.precision_neg hprecision
  cases hmode : s.context.resolveRounding rounding with
  | error failure =>
      cases failure with
      | fault f =>
          have hfaultless := s.context.resolveRounding_faultless hrounding
          exact absurd ⟨f, hmode⟩ hfaultless.not_faults
      | error e =>
          have houtcome : (compute s.context (.text source) precision rounding).outcome =
              .error (.error e) := by
            unfold compute
            rw [hp, hmode]
            rfl
          rw [houtcome]
          refine iff_of_false (not_faults_error e) ?_
          rintro ⟨_, _, _, -, hmode', -⟩
          rw [hmode] at hmode'
          cases hmode'
  | ok mode =>
      rw [faults_compute_iff hneg hp hmode]
      constructor
      · rintro ⟨t, ht, hlong⟩
        exact ⟨p, mode, t, hp, hmode, ht, hlong⟩
      · rintro ⟨p', mode', t, hp', hmode', ht, hlong⟩
        rw [hp] at hp'
        rw [hmode] at hmode'
        cases hp'
        cases hmode'
        exact ⟨t, ht, hlong⟩

namespace Session

/-- **Internal errors are numerals too long to be written.**  After any requests to a
program that was started in an environment, a question about a text, with a negative
precision or none and a rounding mode or none, is answered with an internal error exactly
if the answer would write such a numeral.  Every other answer is a value, or the message
and the code of a cause. -/
theorem answer_internal_iff {env : List (String × String)} {first : Session}
    (hstart : ofEnvironment env = .ok first) (requests : List Request) (source : String)
    {precision rounding : Value}
    (hprecision : precision = .none ∨ ∃ p, p < 0 ∧ precision = .int p)
    (hrounding : rounding = .none ∨ ∃ mode : Rounding, rounding = .text mode.name) :
    let s := first.run requests
    let answer := (s.answer (.text source) precision rounding).answer
    ((∃ message, answer = .refusal message "INTERNAL_ERROR") ↔
        s.WritesLongNumeral source precision rounding) ∧
      (¬ s.WritesLongNumeral source precision rounding →
        (∃ v, answer = .ofDatum v) ∨ ∃ e : Error, answer = .refusal e.message e.code) := by
  intro s answer
  have hsound : s.Sound first.context.settings := ((sound_ofEnvironment hstart).run requests).1
  have hfaults := hsound.faults_iff source hprecision hrounding
  have hanswer : answer =
      .ofOutcome (compute s.context (.text source) precision rounding).outcome :=
    hsound.answer_eq source precision rounding
  rw [hanswer, ← hfaults]
  exact ⟨Answer.ofOutcome_internal_iff, Answer.ofOutcome_of_not_faults⟩

/-- The theorem on a precision in force that is too long to be reported: every number is
answered with an internal error. -/
theorem answer_internal_iff_long_precision :
    ofEnvironment [] = .ok (start {}) ∧
    let p : Int := -(tenTo Fault.longestNumeral : Int)
    let s := (start {}).run [.setPrecision (.int p)]
    ∃ message, (s.answer (.text "1") .none .none).answer = .refusal message "INTERNAL_ERROR" := by
  have hstart : ofEnvironment [] = .ok (start {}) := rfl
  refine ⟨hstart, ?_⟩
  intro p s
  have hneg : p < 0 := Int.neg_neg_of_pos (Int.natCast_pos.mpr (tenTo_pos _))
  have hlong : tenTo Fault.longestNumeral ≤ p.natAbs :=
    ((Int.natAbs_neg _).trans (Int.natAbs_natCast _)).ge
  clear_value p
  have hcontext : s.context = ⟨{}, p⟩ := by
    change ((start {}).serve (.setPrecision (.int p))).context = _
    simp only [serve, setPrecision_of_ok _ (validatePrecision_int hneg)]
    rfl
  have hread : Tree.ofSource {} "1" = .ok (.number Decimal.one) := by decide +kernel
  have hwrites : s.WritesLongNumeral "1" .none .none := by
    refine ⟨p, .truncate, .number Decimal.one, ?_, ?_, ?_, .inl hlong⟩
    · rw [hcontext]
      rfl
    · rw [hcontext]
      rfl
    · rw [hcontext]
      exact hread
  exact (answer_internal_iff hstart _ "1" (.inl rfl) (.inl rfl)).1.mpr hwrites

/-- The refusal of an exponent of 4301 digits is an internal error. -/
theorem answer_long_exponent :
    ((start {}).answer (.text "2 ** 1e4300") .none .none).answer =
      .refusal "Unexpected evaluation error" "INTERNAL_ERROR" := by
  decide +kernel

end Session

end DecimalCalc
