import DecimalCalc.CommandLine.Program
import DecimalCalc.Proofs.Decimal.PlainText
import DecimalCalc.Proofs.Numeral.BoundedReading
import DecimalCalc.Proofs.Session.Runs
/-!
# Runs of the console

A line leaves (`leaves`), sets the precision (`SetsPrecision`), or does neither, and
`nextPrecision` is the precision in force after it.  What a line prints is decided by the
settings and the precision in force: the cache decides what is reported and never what is
printed (`output_respond`).

Between two lines the session is `Ready`: it is sound, and the precision in force is short
enough to be shown, so that no command ends the program.  A line keeps this
(`Ready.exists_respond`), since an integer that is read can be shown, and from it a run is
computed by induction on the lines (`Ready.runFrom`).  A program is ready when its console
starts, with a precision from the environment (`ready_ofEnvironment`) or from the options
(`Ready.session`).

The lines themselves are what was written into the input, whichever way it ends them
(`inputLines_flatMap`).
-/

namespace DecimalCalc.CommandLine

open Text Numeral

/-! ## Lines -/

/-- A line that leaves the console. -/
def leaves (line : String) : Bool := strip line == "quit" || strip line == "exit"

/-- A line that sets the precision: the word for it, a space, and a negative integer. -/
def SetsPrecision (line : String) (n : Int) : Prop :=
  ∃ text : String, strip line = "precision " ++ text ∧ readBounded (strip text) = .ok n ∧ n < 0

/-- The precision in force after a line. -/
def nextPrecision (p : Int) (line : String) : Int :=
  match Command.ofLine? (strip line) with
  | some (.setPrecision text) =>
    match readBounded text with
    | .ok n => if n < 0 then n else p
    | .error _ => p
  | _ => p

/-- A line is its first word, or goes on with a space. -/
theorem line_of_word {cs word : List Char} (h : cs.takeWhile (· != ' ') = word) :
    cs.dropWhile (· != ' ') = [] ∨
      ∃ rest, cs.dropWhile (· != ' ') = ' ' :: rest ∧ cs = word ++ ' ' :: rest := by
  have hwhole := List.takeWhile_append_dropWhile (p := (· != ' ')) (l := cs)
  have hspace := List.head?_dropWhile_not (· != ' ') cs
  rw [h] at hwhole
  cases hrest : cs.dropWhile (· != ' ') with
  | nil => exact .inl rfl
  | cons c rest =>
      rw [hrest] at hwhole hspace
      obtain rfl : c = ' ' := by simpa using hspace
      exact .inr ⟨rest, rfl, hwhole.symm⟩

/-- The command that gives a precision: the word for it, a space, and a text that is not
blank. -/
theorem Command.ofLine?_eq_setPrecision_iff {line text : String} :
    ofLine? line = some (.setPrecision text) ↔
      text ≠ "" ∧ ∃ rest : String, line = "precision " ++ rest ∧ strip rest = text := by
  have hsplit : ∀ rest : String,
      ("precision " ++ rest).toList = "precision".toList ++ ' ' :: rest.toList := by
    intro rest
    rw [String.toList_append]
    rfl
  constructor
  · intro h
    unfold ofLine? at h
    dsimp only at h
    split at h
    · cases h
    · next hword =>
        have htake : line.toList.takeWhile (· != ' ') = "precision".toList := by
          rw [← hword, String.toList_ofList]
        obtain hend | ⟨rest, hrest, hline⟩ := line_of_word htake
        · rw [hend] at h
          have hblank : strip (String.ofList (List.drop 1 [])) = "" := rfl
          rw [if_pos hblank] at h
          cases h
        · rw [hrest, List.drop_one, List.tail_cons] at h
          split at h
          · cases h
          · next hne =>
              have htext := setPrecision.inj (Option.some.inj h)
              have hchars : (String.ofList rest).toList = rest := String.toList_ofList
              refine ⟨htext ▸ hne, String.ofList rest, ?_, htext⟩
              rw [← String.toList_inj, hsplit, hchars, hline]
    all_goals cases h
  · rintro ⟨hne, rest, rfl, rfl⟩
    have hword : ∀ c ∈ "precision".toList, (c != ' ') = true :=
      List.all_eq_true.mp (by decide)
    have hend : (' ' :: rest.toList).takeWhile (· != ' ') = [] :=
      List.takeWhile_cons_of_neg (by decide)
    unfold ofLine?
    dsimp only
    rw [hsplit, takeWhile_run hword hend, dropWhile_run hword hend, List.drop_one, List.tail_cons,
      String.ofList_toList, String.ofList_toList]
    exact congrArg some (if_neg hne)

theorem nextPrecision_of_setsPrecision (p : Int) {line : String} {n : Int}
    (h : SetsPrecision line n) : nextPrecision p line = n := by
  obtain ⟨text, hline, hread, hneg⟩ := h
  have hne : strip text ≠ "" := by
    intro hblank
    rw [hblank] at hread
    cases hread
  have hcommand : Command.ofLine? (strip line) = some (.setPrecision (strip text)) :=
    Command.ofLine?_eq_setPrecision_iff.mpr ⟨hne, text, hline, rfl⟩
  rw [nextPrecision, hcommand]
  dsimp only
  rw [hread]
  exact if_pos hneg

/-- Every other line leaves the precision in force. -/
theorem nextPrecision_of_not (p : Int) {line : String} (h : ∀ n, ¬ SetsPrecision line n) :
    nextPrecision p line = p := by
  unfold nextPrecision
  split
  · next text hcommand =>
      obtain ⟨-, rest, hline, rfl⟩ := Command.ofLine?_eq_setPrecision_iff.mp hcommand
      split
      · next n hread => exact if_neg fun hneg => h n ⟨rest, hline, hread, hneg⟩
      · rfl
  · rfl

/-! ## One line -/

/-- What a line prints. -/
def Turn.output : Turn → String
  | .print output _ _ => output
  | .leave => ""
  | .abort => ""

/-- What a line prints in a program that has just been started, with a precision in force. -/
def Console.printed (c : Console) (settings : Settings) (p : Int) (line : String) : String :=
  (c.respond (Session.startAt settings p) line).output

/-- What holds of the session between two lines: it is sound, and the precision in force can
be shown. -/
structure Ready (settings : Settings) (session : Session) : Prop where
  sound : session.Sound settings
  short : session.context.precision.natAbs < tenTo Fault.longestNumeral

section Lines

variable {settings : Settings} {c : Console} {s s' : Session} {line : String}

/-- Setting the precision prints the same in every session. -/
theorem output_setPrecision (s s' : Session) (text : String) :
    (Console.setPrecision s text).output = (Console.setPrecision s' text).output := by
  unfold Console.setPrecision
  cases readBounded text with
  | error e => rfl
  | ok n =>
      dsimp only
      cases hn : validatePrecision (.int n) with
      | ok p =>
          rw [s.setPrecision_of_ok hn, s'.setPrecision_of_ok hn]
          rfl
      | error e =>
          rw [s.setPrecision_of_error hn, s'.setPrecision_of_error hn]
          rfl

theorem output_obey (hcontext : s.context = s'.context) (command : Command) :
    (Console.obey s command).output = (Console.obey s' command).output := by
  unfold Console.obey
  rw [hcontext]
  cases command with
  | help => rfl
  | showPrecision =>
      dsimp only
      generalize shownInt s'.context.precision = shown
      cases shown with
      | ok text => rfl
      | error e => rfl
  | setPrecision text => exact output_setPrecision s s' text
  | explain source =>
      dsimp only
      cases explained s'.context.settings (.text source) with
      | ok text => rfl
      | error e => rfl
  | ignored => rfl

/-- **What a line prints depends on the context alone**, not on the cache. -/
theorem output_respond (h : s.Sound settings) (h' : s'.Sound settings)
    (hcontext : s.context = s'.context) (line : String) :
    (c.respond s line).output = (c.respond s' line).output := by
  unfold Console.respond
  dsimp only
  split
  · rfl
  · split
    · rfl
    · split
      · next command _ => exact output_obey hcontext command
      · dsimp only [Turn.output]
        rw [h.answer_eq, h'.answer_eq, hcontext]

/-- Setting the precision does so if the text is a negative integer. -/
theorem Ready.setPrecision (h : Ready settings s) (text : String) :
    ∃ output next, Console.setPrecision s text = .print output [] next ∧ Ready settings next ∧
      next.context.precision =
        match readBounded text with
        | .ok n => if n < 0 then n else s.context.precision
        | .error _ => s.context.precision := by
  unfold Console.setPrecision
  cases hread : readBounded text with
  | error e => exact ⟨_, s, rfl, h, rfl⟩
  | ok n =>
      dsimp only
      by_cases hneg : n < 0
      · rw [s.setPrecision_of_ok (validatePrecision_int hneg), if_pos hneg]
        exact ⟨_, _, rfl, ⟨h.sound.withPrecision hneg, natAbs_lt_of_readBounded hread⟩, rfl⟩
      · rw [if_neg hneg]
        cases hn : validatePrecision (.int n) with
        | ok p =>
            have hp := validatePrecision_neg hn
            rw [eq_of_validatePrecision_int hn] at hp
            exact absurd hp hneg
        | error e =>
            rw [s.setPrecision_of_error hn]
            exact ⟨_, s, rfl, h, rfl⟩

/-- A line that does not leave prints something, keeps the session ready, and puts the
precision in force that it gives, if it gives one. -/
theorem Ready.exists_respond (h : Ready settings s) (hstay : leaves line = false) :
    ∃ output events next, c.respond s line = .print output events next ∧ Ready settings next ∧
      next.context.precision = nextPrecision s.context.precision line := by
  have hstay' : ¬ (strip line = "quit" ∨ strip line = "exit") := by simpa [leaves] using hstay
  unfold Console.respond nextPrecision
  dsimp only
  rw [if_neg hstay']
  split
  · next hblank =>
      rw [hblank]
      exact ⟨_, _, s, rfl, h, rfl⟩
  · cases hcommand : Command.ofLine? (strip line) with
    | none =>
        obtain ⟨hsound, hcontext⟩ := h.sound.answer (.text (strip line)) .none c.rounding
        refine ⟨_, _, _, rfl, ⟨hsound, ?_⟩, ?_⟩
        · rw [hcontext]
          exact h.short
        · rw [hcontext]
    | some command =>
        dsimp only
        unfold Console.obey
        cases command with
        | help => exact ⟨_, _, s, rfl, h, rfl⟩
        | showPrecision =>
            have hshown : shownInt s.context.precision = .ok (intText s.context.precision) :=
              if_pos h.short
            dsimp only
            rw [hshown]
            exact ⟨_, _, s, rfl, h, rfl⟩
        | setPrecision text =>
            obtain ⟨output, next, hprint, hready, hprecision⟩ := h.setPrecision text
            exact ⟨output, [], next, hprint, hready, hprecision⟩
        | explain source =>
            dsimp only
            cases explained s.context.settings (.text source) with
            | ok text => exact ⟨_, _, s, rfl, h, rfl⟩
            | error e => exact ⟨_, _, s, rfl, h, rfl⟩
        | ignored => exact ⟨_, _, s, rfl, h, rfl⟩

theorem Ready.context_eq (h : Ready settings s) :
    s.context = ⟨settings, s.context.precision⟩ := by
  rw [Context.mk.injEq]
  exact ⟨h.sound.settings_eq, rfl⟩

/-- **One line.**  It prints what it prints in a program that has just been started with the
precision in force. -/
theorem Ready.respond (h : Ready settings s) (hstay : leaves line = false) :
    ∃ events next,
      c.respond s line = .print (c.printed settings s.context.precision line) events next ∧
      Ready settings next ∧ next.context.precision = nextPrecision s.context.precision line := by
  obtain ⟨output, events, next, hprint, hready, hprecision⟩ :=
    h.exists_respond (c := c) hstay
  have hfresh := Session.sound_startAt settings h.sound.precision_neg
  have houtput := output_respond (c := c) h.sound hfresh h.context_eq line
  rw [hprint] at houtput
  exact ⟨events, next, hprint.trans (congrArg (Turn.print · events next) houtput), hready,
    hprecision⟩

theorem respond_leaves (hleave : leaves line = true) : c.respond s line = .leave := by
  have hleave' : strip line = "quit" ∨ strip line = "exit" := by simpa [leaves] using hleave
  have hblank : strip line ≠ "" := by
    rcases hleave' with hquit | hexit
    · rw [hquit]
      decide
    · rw [hexit]
      decide
  unfold Console.respond
  dsimp only
  rw [if_neg hblank, if_pos hleave']

end Lines

/-! ## Many lines -/

/-- What lines print one after the other, each in a program that has just been started with
the precision that the lines before it have put in force. -/
def Console.transcript (c : Console) (settings : Settings) : Int → List String → String
  | _, [] => ""
  | p, line :: lines =>
    prompt ++ c.printed settings p line ++ c.transcript settings (nextPrecision p line) lines

/-- The lines before the first that leaves. -/
def heard (lines : List String) : List String := lines.takeWhile fun line => !leaves line

/-- **A run of the console**, by induction on the lines. -/
theorem Ready.runFrom {settings : Settings} {c : Console} {s : Session}
    (h : Ready settings s) (lines : List String) :
    let p := s.context.precision
    (c.runFrom s lines).exit = 0 ∧
    (c.runFrom s lines).output = c.transcript settings p (heard lines) ++
      (prompt ++ if heard lines = lines then "\n" else "") ∧
    (c.runFrom s lines).session.context = ⟨settings, (heard lines).foldl nextPrecision p⟩ := by
  induction lines generalizing s with
  | nil =>
      have hend : heard [] = [] := rfl
      refine ⟨rfl, ?_, h.context_eq⟩
      rw [if_pos hend]
      exact (String.empty_append).symm
  | cons line lines ih =>
      cases hleave : leaves line with
      | true =>
          have hheard : heard (line :: lines) = [] :=
            List.takeWhile_cons_of_neg (by simp [hleave])
          rw [Console.runFrom, respond_leaves hleave, hheard, if_neg (List.cons_ne_nil _ _).symm]
          exact ⟨rfl, by rw [Console.transcript, String.append_empty, String.empty_append],
            h.context_eq⟩
      | false =>
          have hheard : heard (line :: lines) = line :: heard lines :=
            List.takeWhile_cons_of_pos (by simp [hleave])
          obtain ⟨events, next, hprint, hready, hprecision⟩ := h.respond (c := c) hleave
          obtain ⟨hexit, houtput, hcontext⟩ := ih hready
          rw [hprecision] at houtput hcontext
          rw [Console.runFrom, hprint, hheard]
          dsimp only
          refine ⟨hexit, ?_, ?_⟩
          · simp only [houtput, Console.transcript, List.cons.injEq, true_and, String.append_assoc]
          · rw [hcontext, List.foldl_cons]

/-! ## The lines of an input -/

/-- The ends that a line can have. -/
def lineEnds : List (List Char) := [['\n'], ['\r'], ['\r', '\n']]

/-- A text in which no line ends. -/
def Unbroken (cs : List Char) : Prop := '\n' ∉ cs ∧ '\r' ∉ cs

section Input

variable {cs rest ending : List Char}

/-- A line is read up to its end, by induction on its characters. -/
theorem linesFrom_append (hcs : Unbroken cs) (read rest : List Char) :
    linesFrom read (cs ++ rest) = linesFrom (cs.reverse ++ read) rest := by
  induction cs generalizing read with
  | nil => rfl
  | cons c cs ih =>
      obtain ⟨hfeed, hreturn⟩ := hcs
      rw [List.mem_cons, not_or] at hfeed hreturn
      have hstep : linesFrom read (c :: (cs ++ rest)) = linesFrom (c :: read) (cs ++ rest) := by
        rw [linesFrom]
        · rintro _ rfl
          exact absurd rfl hreturn.1
        · exact fun h => hreturn.1 h.symm
        · exact fun h => hfeed.1 h.symm
      rw [List.cons_append, hstep, ih ⟨hfeed.2, hreturn.2⟩, List.reverse_cons, List.append_assoc]
      rfl

/-- An end of a line is read whole: a carriage return does not end the line alone if a line
feed comes after it. -/
theorem linesFrom_end (h : ending ∈ lineEnds)
    (hrest : ending = ['\r'] → rest.head? ≠ some '\n') (read : List Char) :
    linesFrom read (ending ++ rest) = read.reverse :: linesFrom [] rest := by
  simp only [lineEnds, List.mem_cons, List.not_mem_nil, or_false] at h
  rcases h with rfl | rfl | rfl
  · rfl
  · rw [List.singleton_append, linesFrom]
    rintro rest' rfl
    exact hrest rfl rfl
  · rfl

/-- After a line that a carriage return ends, the next one does not begin with a line feed. -/
theorem head?_flatMap_ne {lines : List (List Char)} (hlines : ∀ cs ∈ lines, Unbroken cs) :
    (lines.flatMap (· ++ ['\r'])).head? ≠ some '\n' := by
  cases lines with
  | nil => simp
  | cons cs lines =>
      have hcs := (hlines cs List.mem_cons_self).1
      cases cs with
      | nil => simp
      | cons c cs =>
          rw [List.mem_cons, not_or] at hcs
          simpa using fun h => hcs.1 h.symm

theorem linesFrom_flatMap (h : ending ∈ lineEnds) {lines : List (List Char)}
    (hlines : ∀ cs ∈ lines, Unbroken cs) :
    linesFrom [] (lines.flatMap (· ++ ending)) = lines := by
  induction lines with
  | nil => rfl
  | cons cs lines ih =>
      have hothers : ∀ cs ∈ lines, Unbroken cs := fun cs hcs =>
        hlines cs (List.mem_cons_of_mem _ hcs)
      rw [List.flatMap_cons, List.append_assoc, linesFrom_append (hlines cs List.mem_cons_self),
        linesFrom_end h, ih hothers, List.append_nil, List.reverse_reverse]
      rintro rfl
      exact head?_flatMap_ne hothers

/-- **Lines are read back** from an input in which each of them is ended, in any of the ways a
line can end. -/
theorem inputLines_flatMap (h : ending ∈ lineEnds) {lines : List String}
    (hlines : ∀ line ∈ lines, Unbroken line.toList) :
    inputLines (String.ofList (lines.flatMap fun line => line.toList ++ ending)) = lines := by
  have hread : linesFrom [] ((lines.map String.toList).flatMap (· ++ ending)) =
      lines.map String.toList := by
    refine linesFrom_flatMap h ?_
    intro cs hcs
    obtain ⟨line, hline, rfl⟩ := List.mem_map.mp hcs
    exact hlines line hline
  rw [List.flatMap_map] at hread
  rw [inputLines, String.toList_ofList, hread, List.map_map]
  simp

end Input

/-! ## The start of a run -/

namespace Options

/-- A precision among the options can be shown. -/
def ShortPrecision (o : Options) : Prop :=
  ∀ p, o.precision = .int p → p.natAbs < tenTo Fault.longestNumeral

variable {o o' : Options}

theorem ShortPrecision.set (h : o.ShortPrecision) {switch : Switch} {value : String}
    (hset : o.set switch value = .ok o') : o'.ShortPrecision := by
  unfold Options.set at hset
  cases switch with
  | help => cases hset
  | scientific | explain | version | healthCheck | eval | logFile =>
      cases hset
      exact h
  | format =>
      dsimp only at hset
      split_ifs at hset
      · cases hset
        exact h
      · cases hset
        exact h
  | precision =>
      dsimp only at hset
      split at hset
      · next n hread =>
          cases hset
          intro p hp
          cases hp
          exact natAbs_lt_of_readBounded hread
      · cases hset
  | rounding =>
      dsimp only at hset
      split at hset
      · cases hset
        exact h
      · cases hset
  | logLevel =>
      dsimp only at hset
      split at hset
      · cases hset
      · cases hset
      · cases hset
        exact h

/-- An empty list is no precision. -/
theorem ShortPrecision.setEmpty (h : o.ShortPrecision) {switch : Switch}
    (hset : o.setEmpty switch = .ok o') : o'.ShortPrecision := by
  unfold Options.setEmpty at hset
  cases switch with
  | eval | format | rounding | logLevel | logFile =>
      cases hset
      exact h
  | precision =>
      cases hset
      intro p hp
      cases hp
  | help | scientific | explain | version | healthCheck => exact h.set hset

theorem ShortPrecision.request (h : o.ShortPrecision) {switch : Switch} {value : List Char}
    (hset : o.request switch value = .ok o') : o'.ShortPrecision := by
  unfold Options.request at hset
  split at hset
  · exact h.setEmpty hset
  · exact h.set hset

/-- Reading the arguments keeps it, by induction on the steps. -/
theorem ShortPrecision.collect (h : o.ShortPrecision) {steps : Nat} {excess : Bool}
    {arguments : List Argument} (hcollect : collect steps o excess arguments = .ok o') :
    o'.ShortPrecision := by
  fun_induction Options.collect steps o excess arguments with
  | case1 steps o => cases hcollect
  | case2 steps o excess hexcess =>
      cases hcollect
      exact h
  | case3 o excess arg following => cases hcollect
  | case4 steps o excess following text ih => exact ih h hcollect
  | case5 steps o excess following ih => exact ih h hcollect
  | case6 steps o excess following switch long attached ih =>
      obtain ⟨asked, -, hcollect⟩ := bind_eq_ok_iff.mp hcollect
      obtain ⟨⟨supplied, rest⟩, -, hcollect⟩ := bind_eq_ok_iff.mp hcollect
      obtain ⟨next, hnext, hcollect⟩ := bind_eq_ok_iff.mp hcollect
      exact ih rest next (foldlM_keeps (fun _ _ _ hb hset => hb.request hset) h hnext) hcollect

theorem shortPrecision_ofArguments {args : List String} (h : ofArguments args = .ok o) :
    o.ShortPrecision := by
  obtain ⟨arguments, -, hcollect⟩ := bind_eq_ok_iff.mp h
  refine ShortPrecision.collect ?_ hcollect
  intro p hp
  cases hp

end Options

/-- A program that was started in an environment is ready. -/
theorem ready_ofEnvironment {env : List (String × String)} {first : Session}
    (hstart : Session.ofEnvironment env = .ok first) :
    Ready first.context.settings first := by
  obtain ⟨settings, hsettings, rfl⟩ := Session.exists_settings hstart
  obtain ⟨hread, -⟩ := Settings.ofEnvironment_readInteger hsettings
  refine ⟨Session.sound_ofEnvironment hstart, ?_⟩
  change settings.precision.natAbs < tenTo Fault.longestNumeral
  unfold Settings.readInteger at hread
  split at hread
  · exact natAbs_lt_of_readBounded hread
  -- no variable, but the default
  · rw [← Except.ok.inj hread]
    have hone : 4 < tenTo 1 := by decide
    exact hone.trans_le (tenTo_le_tenTo (by decide))

/-- A precision among the options is put in force before the console starts. -/
theorem Ready.session {settings : Settings} {s s' : Session} (h : Ready settings s)
    {o : Options} (ho : o.ShortPrecision) (hsession : o.session s = .ok s') :
    Ready settings s' := by
  unfold Options.session at hsession
  split at hsession
  · cases hsession
    exact h
  · obtain ⟨p, hp, hnext⟩ := bind_eq_ok_iff.mp hsession
    cases hnext
    exact ⟨h.sound.withPrecision (validatePrecision_neg hp), ho p (eq_int_of_validatePrecision hp)⟩

/-- The plan of a console starts from the session with the precision of the options. -/
theorem session_of_plan {o : Options} {first session : Session} {c : Console}
    (h : o.plan first = .console c session) : o.session first = .ok session := by
  unfold Options.plan at h
  split at h
  · cases h
  · split at h
    · cases h
    · next next hsession =>
        split at h
        · cases h
        · split at h
          · cases h
            exact hsession
          · cases h

/-- **The console answers as a program just started.**  Let a program be started in an
environment with options that lead to the console.  Whatever the lines are, the console ends
with success.  It stops at the first line that leaves, or at the end, and prints for each line
before that what the line prints in a program that has just been started with the precision
in force.  The program is this console on the lines of its input, after the banner.  An
expression prints its answer.  The precision in force changes at the lines that give a
negative integer, to that integer, and at no other line. -/
theorem console_as_fresh {env : List (String × String)} {first : Session}
    (hstart : Session.ofEnvironment env = .ok first) {args : List String} {o : Options}
    (hargs : Options.ofArguments args = .ok o) {c : Console} {session : Session}
    (hplan : o.plan first = .console c session) (lines : List String) :
    let settings := first.context.settings
    let p := session.context.precision
    let after := c.runFrom session lines
    (after.exit = 0 ∧
      after.output = c.transcript settings p (heard lines) ++
        (prompt ++ if heard lines = lines then "\n" else "") ∧
      after.session.context = ⟨settings, (heard lines).foldl nextPrecision p⟩) ∧
    (∀ input log, o.log = .ok log →
      let after := c.runFrom session (inputLines input)
      program args input first =
        .ok ({ after with output := banner ++ after.output }, writtenRecords log after.events)) ∧
    (∀ q line, leaves line = false → strip line ≠ "" → Command.ofLine? (strip line) = none →
      c.printed settings q line = c.style.print
        ((Session.startAt settings q).answer (.text (strip line)) .none c.rounding).answer) ∧
    (∀ q line n, SetsPrecision line n → nextPrecision q line = n) ∧
    ∀ q line, (∀ n, ¬ SetsPrecision line n) → nextPrecision q line = q := by
  intro settings p after
  have hready : Ready settings session :=
    (ready_ofEnvironment hstart).session (Options.shortPrecision_ofArguments hargs)
      (session_of_plan hplan)
  refine ⟨hready.runFrom lines, ?_, ?_, ?_, ?_⟩
  · intro input log hlog
    unfold program
    rw [hargs]
    dsimp only
    rw [hlog, ok_bind, Options.run, hplan]
    rfl
  · intro q line hstay hne hcommand
    have hstay' : ¬ (strip line = "quit" ∨ strip line = "exit") := by simpa [leaves] using hstay
    unfold Console.printed Console.respond
    dsimp only
    rw [if_neg hne, if_neg hstay', hcommand]
    rfl
  · intro q line n hsets
    exact nextPrecision_of_setsPrecision q hsets
  · intro q line hnot
    exact nextPrecision_of_not q hnot

/-- The theorem on a console that puts a precision in force, refuses one and is left. -/
theorem console_as_fresh_thirds :
    let o : Options := { precision := .int (-3) }
    let c : Console := ⟨⟨.human, false⟩, .none⟩
    let session := Session.startAt {} (-3)
    let lines := ["1 / 3", "precision -6", "precision 5", "1 / 3", " quit", "1 / 3"]
    let after := c.runFrom session lines
    Session.ofEnvironment [] = .ok (Session.start {}) ∧
    Options.ofArguments ["-p", "-3"] = .ok o ∧
    o.plan (Session.start {}) = .console c session ∧
    leaves "1 / 3" = false ∧ Command.ofLine? "1 / 3" = none ∧
    SetsPrecision "precision -6" (-6) ∧ (∀ n, ¬ SetsPrecision "precision 5" n) ∧
    c.printed {} (-6) "1 / 3" =
      c.style.print ((Session.startAt {} (-6)).answer (.text (strip "1 / 3")) .none .none).answer ∧
    after.exit = 0 ∧
    after.output =
      ">>> 0.333\n" ++
      ">>> Precision set to -6\n" ++
      ">>> Error: Only negative integers are allowed for precision, got 5.\n" ++
      ">>> 0.333333\n" ++
      ">>> " ∧
    after.session.context = ⟨{}, -6⟩ ∧
    ∀ input, ∃ records,
      program ["-p", "-3"] input (Session.start {}) = .ok (c.run session input, records) := by
  intro o c session lines after
  have hstart : Session.ofEnvironment [] = .ok (Session.start {}) := rfl
  have hargs : Options.ofArguments ["-p", "-3"] = .ok o := rfl
  have hplan : o.plan (Session.start {}) = .console c session := rfl
  obtain ⟨⟨hexit, houtput, hcontext⟩, hprogram, hanswer, hsets, -⟩ :=
    console_as_fresh hstart hargs hplan lines
  have hline : leaves "1 / 3" = false := by decide +kernel
  have hcommand : Command.ofLine? "1 / 3" = none := by decide +kernel
  have hgiven : SetsPrecision "precision -6" (-6) := ⟨"-6", rfl, rfl, by decide⟩
  have hrefused : ∀ n, ¬ SetsPrecision "precision 5" n := by
    intro n hset
    have hfirst := hsets (-1) "precision 5" n hset
    have hsecond := hsets (-2) "precision 5" n hset
    exact absurd (hfirst.trans hsecond.symm) (by decide +kernel)
  refine ⟨hstart, hargs, hplan, hline, hcommand, hgiven, hrefused,
    hanswer (-6) "1 / 3" hline (by decide +kernel) hcommand, hexit, ?_, ?_, ?_⟩
  · rw [houtput]
    decide +kernel
  · rw [hcontext]
    decide +kernel
  · intro input
    have hlog : o.log = .ok ⟨Log.Level.warning.number, 1⟩ := rfl
    exact ⟨_, hprogram input _ hlog⟩

end DecimalCalc.CommandLine
