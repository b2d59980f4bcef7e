import DecimalCalc.Proofs.Precision
import DecimalCalc.Proofs.Session.GivenPrecision
import DecimalCalc.Session.Basic
/-!
# Runs of a session

A program serves requests one after the other.  What it carries along is the
precision in force and the cache, and of these only the precision shows in the
answers.

The invariant of a run is `Session.Sound`: the settings never change, the precision
in force is one, and every answer in the cache is the one its question has.  A
request keeps it (`Session.Sound.serve`), so a run does (`Session.Sound.run`), and
under it an answer is the direct one (`Session.Sound.answer_eq`).
-/

namespace DecimalCalc

/-- A request to a running program. -/
inductive Request where
  | setPrecision (precision : Value)
  | clearCache
  | evaluate (source precision rounding : Value)
  | compute (source precision rounding : Value)
  | answer (source precision rounding : Value)

/-- The precision that a request puts in force, if it is accepted. -/
def Request.accepted? : Request → Option Int
  | setPrecision v => (validatePrecision v).toOption
  | _ => none

/-- The precision of the last request that put one in force, or else the one from before. -/
def lastPrecision (before : Int) (requests : List Request) : Int :=
  (requests.filterMap Request.accepted?).getLastD before

namespace Session

/-- The session of a program that has just been started, with a precision in force. -/
def startAt (settings : Settings) (p : Int) : Session :=
  ⟨⟨settings, p⟩, Cache.empty settings.cacheSize⟩

/-- The session after a request.  A precision that is refused changes nothing, and neither
does a computation that does not ask the cache. -/
def serve (s : Session) : Request → Session
  | .setPrecision v =>
    match s.setPrecision v with
    | .ok s' => s'
    | .error _ => s
  | .clearCache => s.clearCache
  | .evaluate .. | .compute .. => s
  | .answer source precision rounding => (s.answer source precision rounding).session

/-- The session after a list of requests. -/
def run (s : Session) (requests : List Request) : Session := requests.foldl serve s

end Session

/-! ## Direct answers -/

/-- The answer that an outcome is shown as. -/
def Answer.ofOutcome : Except Failure Datum → Answer
  | .ok v => .ofDatum v
  | .error e => .ofFailure e

/-- A cause that is known is answered with its message and code, any other one without. -/
theorem Answer.ofOutcome_eq (outcome : Except Failure Datum) :
    ofOutcome outcome =
      match outcome with
      | .ok v => .ofDatum v
      | .error (.error e) => .refusal e.message e.code
      | .error (.fault _) => .refusal "Unexpected evaluation error" "INTERNAL_ERROR" := by
  cases outcome with
  | ok v => rfl
  | error e => cases e <;> rfl

/-- Settling precision and rounding mode first does not change what is computed. -/
theorem compute_of_ask {ctx : Context} (hctx : ctx.precision < 0) {source : String}
    {precision rounding : Value} {question : Question}
    (h : Question.ask ctx source precision rounding = .ok question) :
    (compute ctx (.text source) precision rounding).outcome = (question.compute ctx).outcome := by
  obtain ⟨p, hp, h⟩ := bind_eq_ok_iff.mp h
  obtain ⟨mode, hmode, h⟩ := bind_eq_ok_iff.mp h
  cases h
  have hneg := Context.resolvePrecision_neg hctx hp
  simp only [Question.compute, compute, hp, hmode, ctx.resolvePrecision_int hneg,
    ctx.resolveRounding_name]

/-- What cannot be settled cannot be computed, for the same reason. -/
theorem compute_of_ask_error {ctx : Context} {source : String} {precision rounding : Value}
    {e : Failure} (h : Question.ask ctx source precision rounding = .error e) :
    (compute ctx (.text source) precision rounding).outcome = .error e := by
  unfold Question.ask at h
  unfold compute
  cases hp : ctx.resolvePrecision precision with
  | error e' =>
      rw [hp] at h
      cases h
      rfl
  | ok p =>
      rw [hp] at h
      cases hmode : ctx.resolveRounding rounding with
      | error e' =>
          rw [hmode] at h
          cases h
          rfl
      | ok mode =>
          rw [hmode] at h
          cases h

/-! ## The invariant -/

/-- What holds of every session of a program with some settings. -/
structure Session.Sound (settings : Settings) (s : Session) : Prop where
  settings_eq : s.context.settings = settings
  precision_neg : s.context.precision < 0
  /-- The cache holds values only, each of them the one its question has. -/
  kept : ∀ entry ∈ s.cache.entries,
    ∃ v, (entry.1.compute s.context).outcome = .ok v ∧ entry.2 = .ofDatum v

theorem Session.sound_startAt (settings : Settings) {p : Int} (h : p < 0) :
    (startAt settings p).Sound settings where
  settings_eq := rfl
  precision_neg := h
  kept := by intro entry hentry; cases hentry

/-- What a cache holds for a question is among its entries. -/
theorem Cache.mem_of_get? {c : Cache} {question : Question} {a : Answer}
    (h : c.get? question = some a) : (question, a) ∈ c.entries := by
  obtain ⟨before, after, hentries, -⟩ := List.lookup_eq_some_iff.mp h
  rw [hentries]
  exact List.mem_append_right before List.mem_cons_self

section Steps

variable {settings : Settings} {s : Session}

/-- A question has the answer that computing it gives, from the cache or not. -/
theorem Session.Sound.consult_answer (h : s.Sound settings) (question : Question) :
    (s.consult question).answer = .ofOutcome (question.compute s.context).outcome := by
  unfold consult
  split
  · next a hget =>
      obtain ⟨v, hv, ha⟩ := h.kept _ (Cache.mem_of_get? hget)
      rw [hv]
      exact ha
  · dsimp only
    split
    · next v hv => rw [hv]; rfl
    · next e he => rw [he]; rfl

/-- A question leaves the context alone and a sound cache. -/
theorem Session.Sound.consult (h : s.Sound settings) (question : Question) :
    (s.consult question).session.Sound settings ∧
      (s.consult question).session.context = s.context := by
  unfold Session.consult
  split
  · next a hget =>
      refine ⟨⟨h.settings_eq, h.precision_neg, ?_⟩, rfl⟩
      intro entry hentry
      -- the entry that was found moves to the front and is still the same
      rcases List.mem_cons.mp hentry with rfl | hold
      · exact h.kept _ (Cache.mem_of_get? hget)
      · exact h.kept entry (List.mem_filter.mp hold).1
  · dsimp only
    split
    · next v hv =>
        refine ⟨⟨h.settings_eq, h.precision_neg, ?_⟩, rfl⟩
        intro entry hentry
        rcases List.mem_cons.mp (List.mem_of_mem_take hentry) with rfl | hold
        · exact ⟨v, hv, rfl⟩
        · exact h.kept entry hold
    · exact ⟨h, rfl⟩

/-- **An answer is the direct one.**  It shows what computing the source gives. -/
theorem Session.Sound.answer_eq (h : s.Sound settings) (source : String)
    (precision rounding : Value) :
    (s.answer (.text source) precision rounding).answer =
      .ofOutcome (DecimalCalc.compute s.context (.text source) precision rounding).outcome := by
  unfold answer
  dsimp only
  split
  · next question hask =>
      rw [h.consult_answer, compute_of_ask h.precision_neg hask]
  · next e hask =>
      rw [compute_of_ask_error hask]
      rfl

theorem Session.Sound.answer (h : s.Sound settings) (source precision rounding : Value) :
    (s.answer source precision rounding).session.Sound settings ∧
      (s.answer source precision rounding).session.context = s.context := by
  unfold Session.answer
  split
  · split
    · exact h.consult _
    · exact ⟨h, rfl⟩
  · exact ⟨h, rfl⟩

/-- Another precision in force leaves the kept answers right: their questions have their
own precision. -/
theorem Session.Sound.withPrecision (h : s.Sound settings) {p : Int} (hp : p < 0) :
    (Session.mk { s.context with precision := p } s.cache).Sound settings where
  settings_eq := h.settings_eq
  precision_neg := hp
  kept := by
    intro entry hentry
    obtain ⟨v, hv, ha⟩ := h.kept entry hentry
    refine ⟨v, ?_, ha⟩
    have hframe := entry.1.compute_withPrecision s.context p
    exact (congrArg Traced.outcome hframe).trans hv

/-- An accepted precision is put in force. -/
theorem Session.setPrecision_of_ok (s : Session) {v : Value} {p : Int}
    (h : validatePrecision v = .ok p) :
    s.setPrecision v = .ok ⟨{ s.context with precision := p }, s.cache⟩ := by
  unfold setPrecision
  rw [h]
  rfl

theorem Session.setPrecision_of_error (s : Session) {v : Value} {e : Failure}
    (h : validatePrecision v = .error e) : s.setPrecision v = .error e := by
  unfold setPrecision
  rw [h]
  rfl

/-- A request keeps the invariant, and puts the precision in force that it was accepted
with, if it was. -/
theorem Session.Sound.serve (h : s.Sound settings) (request : Request) :
    (s.serve request).Sound settings ∧
      (s.serve request).context.precision = request.accepted?.getD s.context.precision := by
  cases request with
  | setPrecision v =>
      cases hv : validatePrecision v with
      | ok p =>
          simp only [Session.serve, setPrecision_of_ok s hv, Request.accepted?, hv]
          exact ⟨h.withPrecision (validatePrecision_neg hv), rfl⟩
      | error e =>
          simp only [Session.serve, setPrecision_of_error s hv, Request.accepted?, hv]
          exact ⟨h, rfl⟩
  | clearCache =>
      refine ⟨⟨h.settings_eq, h.precision_neg, ?_⟩, rfl⟩
      intro entry hentry
      cases hentry
  | evaluate | compute => exact ⟨h, rfl⟩
  | answer source precision rounding =>
      obtain ⟨hsound, hcontext⟩ := h.answer source precision rounding
      exact ⟨hsound, congrArg Context.precision hcontext⟩

/-- **The invariant of a run**, by induction on the requests. -/
theorem Session.Sound.run (h : s.Sound settings) (requests : List Request) :
    (s.run requests).Sound settings ∧
      (s.run requests).context.precision = lastPrecision s.context.precision requests := by
  induction requests generalizing s with
  | nil => exact ⟨h, rfl⟩
  | cons request requests ih =>
      obtain ⟨hserve, hprecision⟩ := h.serve request
      obtain ⟨hrun, hlast⟩ := ih hserve
      refine ⟨hrun, ?_⟩
      change ((s.serve request).run requests).context.precision = _
      rw [hlast, hprecision]
      unfold lastPrecision
      cases haccepted : request.accepted? with
      | none => rw [List.filterMap_cons_none haccepted]; rfl
      | some p => rw [List.filterMap_cons_some haccepted, List.getLastD_cons]; rfl

end Steps

/-! ## Programs -/

/-- The precision in the settings of an environment is the one that is read, and a
precision. -/
theorem Settings.ofEnvironment_readInteger {env : List (String × String)} {settings : Settings}
    (h : ofEnvironment env = .ok settings) :
    readInteger env "DESIMAL_PRECISION" (-4) = .ok settings.precision ∧
      settings.precision < 0 := by
  unfold ofEnvironment at h
  simp only [bind_eq_ok_iff] at h
  obtain ⟨read, hread, _, -, _, -, _, -, _, -, _, -, _, -, _, -, _, -, _, -, p, hp, h⟩ := h
  split at h
  · cases h
  · cases h
    cases eq_of_validatePrecision_int hp
    exact ⟨hread, validatePrecision_neg hp⟩

theorem Settings.ofEnvironment_precision {env : List (String × String)} {settings : Settings}
    (h : ofEnvironment env = .ok settings) : settings.precision < 0 :=
  (ofEnvironment_readInteger h).2

namespace Session

/-- A program starts with the settings of its environment. -/
theorem exists_settings {env : List (String × String)} {first : Session}
    (hstart : ofEnvironment env = .ok first) :
    ∃ settings, Settings.ofEnvironment env = .ok settings ∧ start settings = first := by
  unfold ofEnvironment at hstart
  cases hread : Settings.ofEnvironment env with
  | error e =>
      rw [hread] at hstart
      cases hstart
  | ok settings =>
      rw [hread] at hstart
      exact ⟨settings, rfl, Except.ok.inj hstart⟩

/-- A program that was started is sound. -/
theorem sound_ofEnvironment {env : List (String × String)} {first : Session}
    (hstart : ofEnvironment env = .ok first) : first.Sound first.context.settings := by
  obtain ⟨settings, hread, rfl⟩ := exists_settings hstart
  exact sound_startAt settings (Settings.ofEnvironment_precision hread)

/-- **Answers depend on the precision in force alone.**  After any requests to a program
that was started in an environment, whatever they were and whether they failed, the
precision in force is that of the last request that put one in force, a negative integer.
Every answer is then the one of a program just started with this precision, and for a text
it shows what computing the text gives.  A refused precision leaves the one in force. -/
theorem run_answers_as_fresh {env : List (String × String)} {first : Session}
    (hstart : ofEnvironment env = .ok first) (requests : List Request) :
    let settings := first.context.settings
    let p := lastPrecision settings.precision requests
    (first.run requests).context = ⟨settings, p⟩ ∧ p < 0 ∧
    (∀ source precision rounding,
      ((first.run requests).answer source precision rounding).answer =
        ((startAt settings p).answer source precision rounding).answer) ∧
    (∀ source precision rounding,
      ((first.run requests).answer (.text source) precision rounding).answer =
        match (DecimalCalc.compute ⟨settings, p⟩ (.text source) precision rounding).outcome with
        | .ok v => .ofDatum v
        | .error (.error e) => .refusal e.message e.code
        | .error (.fault _) => .refusal "Unexpected evaluation error" "INTERNAL_ERROR") ∧
    ∀ v e, (first.run requests).setPrecision v = .error e →
      (first.run (requests ++ [.setPrecision v])).context = (first.run requests).context := by
  obtain ⟨settings, hsettings, rfl⟩ := exists_settings hstart
  have hneg := Settings.ofEnvironment_precision hsettings
  obtain ⟨hsound, hprecision⟩ : ((start settings).run requests).Sound settings ∧
      ((start settings).run requests).context.precision =
        lastPrecision settings.precision requests :=
    (sound_startAt settings hneg).run requests
  have hcontext : ((start settings).run requests).context =
      ⟨settings, lastPrecision settings.precision requests⟩ := by
    rw [Context.mk.injEq]
    exact ⟨hsound.settings_eq, hprecision⟩
  have hp : lastPrecision settings.precision requests < 0 := hprecision ▸ hsound.precision_neg
  have hfresh := sound_startAt settings hp
  refine ⟨hcontext, hp, ?_, ?_, ?_⟩
  · intro source precision rounding
    cases source with
    | text source =>
        rw [hsound.answer_eq, hcontext]
        exact (hfresh.answer_eq source precision rounding).symm
    | _ => rfl
  · intro source precision rounding
    rw [hsound.answer_eq, hcontext]
    exact Answer.ofOutcome_eq _
  · intro v e hrefused
    have hrun : (start settings).run (requests ++ [.setPrecision v]) =
        ((start settings).run requests).serve (.setPrecision v) := List.foldl_append
    rw [hrun]
    simp only [serve, hrefused]

/-- The theorem on a run with an accepted and a refused precision. -/
theorem run_answers_as_fresh_default :
    ofEnvironment [] = .ok (start {}) ∧
    let requests : List Request :=
      [.answer (.text "1 / 3") .none .none, .setPrecision (.int (-6)),
        .answer (.text "1 / 3") .none .none, .setPrecision .none, .clearCache]
    ((start {}).run requests).context = ⟨{}, -6⟩ ∧
    ∀ source precision rounding,
      (((start {}).run requests).answer source precision rounding).answer =
        ((startAt {} (-6)).answer source precision rounding).answer := by
  have hstart : ofEnvironment [] = .ok (start {}) := rfl
  refine ⟨hstart, ?_⟩
  intro requests
  obtain ⟨hcontext, -, hanswers, -⟩ := run_answers_as_fresh hstart requests
  exact ⟨hcontext, hanswers⟩

end Session

end DecimalCalc
