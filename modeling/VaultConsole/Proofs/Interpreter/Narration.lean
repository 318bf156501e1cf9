import VaultConsole.Proofs.Interpreter.Conduct

/-!
# What a line adds to the result log

A line that is not blank is announced and then answered with one entry. A second one follows exactly
where the command was carried out and an effect of it failed afterwards. Nothing else is added, and nothing
is left of what was being typed.

A line does not come to its end where an event cannot be made: where the clock shows no time, where nothing
can be said of what a deletion is for, or where a failure cannot be put into words. That escapes then, and
what had been told before stays.

* `Interpreter.telling`, `Interpreter.logging`: what is needed to tell of a failure and of a decision.
* `Interpreter.EffectFails`: an effect of a command fails after it was carried out.
* `Interpreter.Escapes`: what escapes from a line.
* `Interpreter.Narrated`, `Interpreter.BrokenOff`: what a line leaves behind that comes to its end, and one
  that does not.
* `Interpreter.narrated_submit`: **every line is narrated but for those from which something escapes**, in
  every state that an interpreter comes to.
* `Interpreter.narrated_of_worded`: where nothing escapes.
-/

namespace VaultConsole

open Failure (Ordinarily)

namespace Interpreter

variable {i : Interpreter} {clock : Clock} {l : Line} {answer : Text → Act Failure Interpreter Unit}

/-- Nobody takes further lines. -/
def deaf : Text → Act Failure Interpreter Unit := fun _ => return

/-- What is needed to tell of a failure: its words, and the time. -/
def telling (failure : Failure) (i : Interpreter) : Except Failure Timestamp := do
  let _ ← failure.words
  i.session.depot.world.localNow

theorem telling_eq_ok {failure : Failure} {moment : Timestamp} (h : i.telling failure = .ok moment) :
    failure.HasWords ∧ i.session.depot.world.localNow = .ok moment := by
  unfold telling at h
  cases hwords : failure.words with
  | error cause =>
    rw [hwords] at h
    cases h
  | ok text =>
    rw [hwords] at h
    exact ⟨Failure.hasWords_of_ok hwords, h⟩

/-- Beside the same clock the same is needed. -/
theorem telling_of_clock {i' : Interpreter}
    (h : i'.session.depot.world.clock = i.session.depot.world.clock) (failure : Failure) :
    i'.telling failure = i.telling failure := by
  rw [telling, telling, World.localNow, World.localNow, h]

/-! ## Reports -/

theorem report_of_error {failure cause : Failure} (h : i.telling failure = .error cause) :
    report l failure i = (.error cause, i) := by
  unfold telling at h
  unfold report
  rw [Act.run_bind, Act.run_settle]
  cases hwords : failure.words with
  | error cause' =>
    rw [hwords] at h
    cases h
    rfl
  | ok text =>
    rw [hwords] at h
    rw [Act.after_ok, Act.run_bind, emit_of_noTime h]
    rfl

theorem giveUp_of_error {failure cause : Failure} (h : i.telling failure = .error cause) :
    giveUp l failure i = (.error cause, { i with session := i.session.dropDeferred }) := by
  have hreport := report_of_error (i := { i with session := i.session.dropDeferred }) (l := l) h
  unfold giveUp
  rw [Act.run_bind, inSession, Act.run_within, Act.run_change, Act.after_ok, hreport]

/-! ## Commands -/

/-- The state in which the effects of a command are handed over. -/
def concluded (l : Line) (entry : Option Entry) (started : Binary64) (i : Interpreter) : Interpreter :=
  ((do conclude entry; logCommand l entry started : Act Failure Interpreter Unit) i).2

theorem patient_concluded (l : Line) (entry : Option Entry) (started : Binary64) :
    Along Session.Patient i (i.concluded l entry started) :=
  ((keeps_conclude entry).bind fun _ => keeps_logCommand l entry started) i

/-- How a command ends. -/
def ending (l : Line) (i : Interpreter) : Except Failure (Option Entry) := ((execute l).run deaf i).1

/-- How the effects of a command end that was carried out and logged. -/
def aftermath (l : Line) (i : Interpreter) : Except Failure Unit :=
  match (execute l).run deaf i with
  | (.error _, _) => .ok ()
  | (.ok entry, i') => (handOver.run deaf (i'.concluded l entry i.session.elapsed)).1

/-- The effects of a command end well, or that is told. -/
def conveying (l : Line) : Except Failure Unit → Act Failure Interpreter Unit
  | .ok _ => return
  | .error failure => report l failure

theorem wrapUp_of_noTime {entry : Option Entry} {failure : Failure}
    (h : i.session.depot.world.localNow = .error failure) (started : Binary64) :
    (wrapUp l entry started).run answer i = (.error failure, (conclude entry i).2) := by
  have hnow : (conclude entry i).2.session.depot.world.localNow = .error failure := by
    cases entry <;> exact h
  refine (run_concluded l entry started answer i _).trans ?_
  rw [show logCommand l entry started (conclude entry i).2 = (.error failure, (conclude entry i).2) from
    emit_of_noTime hnow _ _ _]
  rfl

section
variable (answer)
variable (h : i.session.Obeys (Conduct.docile.beside clock))
include h

theorem wrapUp_run (htime : i.ShowsTime) (entry : Option Entry) (started : Binary64) :
    ∃ session : Session, session.depot.world.clock = i.session.depot.world.clock ∧
      (wrapUp l entry started).run answer i =
        conveying l (handOver.run deaf (i.concluded l entry started)).1
          { (conclude entry i).2 with session } := by
  have htime' : (conclude entry i).2.ShowsTime := by cases entry <;> exact htime
  obtain ⟨event, hlog⟩ : ∃ event, logCommand l entry started (conclude entry i).2 =
      (.ok (), (conclude entry i).2.withWorld
        ((conclude entry i).2.session.depot.world.record event)) := emit_of_showsTime htime' _ _ _
  have hconcluded : i.concluded l entry started = (conclude entry i).2.withWorld
      ((conclude entry i).2.session.depot.world.record event) := by
    rw [concluded, Act.run_bind, conclude_run, Act.after_ok, hlog]
  have hobeys : (i.concluded l entry started).session.Obeys (Conduct.docile.beside clock) := by
    rw [hconcluded]
    cases entry <;> exact h.withDepot ⟨World.clock_writeRunLog _ _, rfl⟩
  obtain ⟨result, session, hhand, hobeys', hallows, -, hsame⟩ := tames_handOver.run id hobeys answer
  refine ⟨session, hobeys'.clock.trans h.clock.symm, ?_⟩
  refine (run_concluded l entry started answer i _).trans ?_
  rw [hlog, Act.after_ok, ← hconcluded, Course.run_bind, Course.run_attemptUnlessInterrupted,
    Failure.attempt, Act.attemptUnless, hhand, hsame deaf]
  cases result with
  | ok _ =>
    rw [hconcluded]
    rfl
  | error failure =>
    have hgoes : failure.isInterruption = false := hallows failure rfl
    simp only [hgoes, Bool.false_eq_true, if_false, Act.after_ok]
    rw [hconcluded]
    rfl

/-- A command that is carried out where no part outside submits lines. -/
theorem execute_run (l : Line) : ∃ session, session.Obeys (Conduct.docile.beside clock) ∧
    (∀ answer, (execute l).run answer i = (i.ending l, { i with session })) ∧
    Conduct.docile.Allows (i.ending l) ∧
    ∀ entry, i.ending l = .ok entry → (entry = none ↔ Verb.ofToken? l.verb = some .clear) := by
  obtain ⟨result, session, hrun, hobeys, hallows, hcleared, hsame⟩ := (tames_execute l).run id h deaf
  have hending : i.ending l = result := congrArg Prod.fst hrun
  rw [hending]
  exact ⟨session, hobeys, hsame, hallows, hcleared⟩

/-- A command that fails is given up. -/
theorem dispatch_of_error {failure : Failure} (hending : i.ending l = .error failure) :
    ∃ session : Session, session.depot.world.clock = i.session.depot.world.clock ∧
      (dispatch l).run answer i = giveUp l failure { i with session } := by
  obtain ⟨session, hobeys, hrun, hallows, -⟩ := execute_run h l
  rw [hending] at hrun hallows
  have hgoes : failure.isInterruption = false := hallows failure rfl
  refine ⟨session, hobeys.clock.trans h.clock.symm, (run_timed l answer i _).trans ?_⟩
  simp only [Failure.attempt, Act.attemptUnless, hrun answer, hgoes, Bool.false_eq_true, if_false]
  rfl

theorem dispatch_of_ok {entry : Option Entry} (hending : i.ending l = .ok entry) :
    ∃ session : Session, session.Obeys (Conduct.docile.beside clock) ∧
      i.aftermath l =
        (handOver.run deaf ({ i with session }.concluded l entry i.session.elapsed)).1 ∧
      (dispatch l).run answer i = (wrapUp l entry i.session.elapsed).run answer { i with session } := by
  obtain ⟨session, hobeys, hrun, -, -⟩ := execute_run h l
  rw [hending] at hrun
  refine ⟨session, hobeys, ?_, (run_timed l answer i _).trans ?_⟩
  · rw [aftermath, hrun deaf]
  · simp only [Failure.attempt, Act.attemptUnless, hrun answer]
    rfl

/-- A command that is carried out is answered, but cannot be logged where the clock shows no time. -/
theorem dispatch_of_noTime {entry : Option Entry} {failure : Failure}
    (hending : i.ending l = .ok entry) (hnow : i.session.depot.world.localNow = .error failure) :
    ∃ session, (dispatch l).run answer i =
      (.error failure, { (conclude entry i).2 with session }) := by
  obtain ⟨session, hobeys, -, hrun⟩ := dispatch_of_ok answer h hending
  have hnow' : session.depot.world.localNow = .error failure := by
    rw [World.localNow, hobeys.clock.trans h.clock.symm]
    exact hnow
  refine ⟨session, hrun.trans ((wrapUp_of_noTime (i := { i with session }) hnow' _).trans ?_)⟩
  cases entry <;> rfl

/-- Otherwise its effects are handed over, and what becomes of them is told. -/
theorem dispatch_of_showsTime {entry : Option Entry} (hending : i.ending l = .ok entry)
    (htime : i.ShowsTime) :
    ∃ session : Session, session.depot.world.clock = i.session.depot.world.clock ∧
      (dispatch l).run answer i =
        conveying l (i.aftermath l) { (conclude entry i).2 with session } := by
  obtain ⟨session, hobeys, haftermath, hrun⟩ := dispatch_of_ok answer h hending
  have hclock := hobeys.clock.trans h.clock.symm
  obtain ⟨session', hclock', hwrap⟩ := wrapUp_run (i := { i with session }) (l := l) answer
    hobeys (World.ShowsTime.of_clock htime hclock) entry i.session.elapsed
  refine ⟨session', hclock'.trans hclock, ?_⟩
  rw [hrun, hwrap, haftermath]
  cases entry <;> rfl

end

/-! ## Answers to the gate -/

/-- The state in which it is done what a line decides about a deletion. -/
def decided (line : Text) (d : Deletion) (i : Interpreter) : Interpreter :=
  (logDecision d (Decision.ofLine line) ((announce line.strip i).2.withGate (gateAfter line d))).2

section
variable (answer)
variable {d : Deletion} {line : Text} (hgate : i.session.gate = some ⟨some d⟩)
  (hline : line.strip ≠ [])
include hgate hline

/-- While a deletion waits, a line answers the gate. -/
theorem run_held : (course line).run answer i =
    Act.after (fun _ => entriesSince i.log.size)
      (Act.after (fun _ => follow line.strip d (Decision.ofLine line))
        (logDecision d (Decision.ofLine line)
          ((announce line.strip i).2.withGate (gateAfter line d)))) := by
  have hprocess : (process line.strip).run answer (announce line.strip i).2 =
      answerGate line.strip (announce line.strip i).2 :=
    (leads_process_held (i := (announce line.strip i).2) hgate line.strip).run_eq answer
  rw [(leads_announce hline i).run_eq, Course.run_bind, hprocess,
    answerGate_eq (i := (announce line.strip i).2) hgate, Decision.ofLine_strip, gateAfter_strip]
  rfl

/-- An answer that cannot be logged ends the line. -/
theorem run_unlogged {failure : Failure} (hlogging : i.logging d = .error failure) :
    (course line).run answer i =
      (.error failure, (announce line.strip i).2.withGate (gateAfter line d)) := by
  rw [run_held answer hgate hline, logDecision_of_error
    (i := (announce line.strip i).2.withGate (gateAfter line d)) hlogging]
  rfl

/-- Otherwise it is done what the line decides. -/
theorem run_logged {label : Json} (hlogging : i.logging d = .ok label) :
    (∃ world : World, world.clock = i.session.depot.world.clock ∧
      i.decided line d =
        ((announce line.strip i).2.withGate (gateAfter line d)).withWorld world) ∧
    (course line).run answer i =
      Act.after (fun _ => entriesSince i.log.size)
        (follow line.strip d (Decision.ofLine line) (i.decided line d)) := by
  obtain ⟨htime, hlabels⟩ := logging_eq_ok_iff.1 ⟨label, hlogging⟩
  obtain ⟨event, hlog⟩ := logDecision_run
    (i := (announce line.strip i).2.withGate (gateAfter line d)) htime hlabels (Decision.ofLine line)
  rw [run_held answer hgate hline, decided, hlog]
  exact ⟨⟨i.session.depot.world.record event, World.clock_writeRunLog _ _, rfl⟩, rfl⟩

end

/-! ## Lines -/

/-- What escapes from a line, where no part outside submits lines on the way. -/
inductive Escapes (line : Text) (i : Interpreter) : Failure → Prop
  /-- A decision cannot be logged. -/
  | unlogged {d : Deletion} {failure : Failure} (content : line.strip ≠ [])
      (gate : i.session.gate = some ⟨some d⟩) (logs : i.logging d = .error failure) :
      Escapes line i failure
  /-- A deletion that was confirmed fails without words. -/
  | undeleted {d : Deletion} {label : Json} {failure cause : Failure}
      (gate : i.session.gate = some ⟨some d⟩) (logs : i.logging d = .ok label)
      (confirms : Decision.ofLine line = .confirm)
      (fails : (Session.executeDeletion d (i.decided line d).session).1 = .error failure)
      (words : failure.words = .error cause) : Escapes line i cause
  /-- A command fails, and that cannot be told. -/
  | untold {l : Line} {failure cause : Failure} (idle : i.session.isAwaiting = false)
      (parses : Line.parse line = some l) (fails : (i.noted line).ending l = .error failure)
      (tells : i.telling failure = .error cause) : Escapes line i cause
  /-- A command is carried out at no time. -/
  | untimed {l : Line} {entry : Option Entry} {failure : Failure}
      (idle : i.session.isAwaiting = false) (parses : Line.parse line = some l)
      (succeeds : (i.noted line).ending l = .ok entry)
      (time : i.session.depot.world.localNow = .error failure) : Escapes line i failure
  /-- An effect of a command fails without words. -/
  | unfinished {l : Line} {failure cause : Failure} (idle : i.session.isAwaiting = false)
      (parses : Line.parse line = some l) (time : i.ShowsTime)
      (fails : (i.noted line).aftermath l = .error failure)
      (words : failure.words = .error cause) : Escapes line i cause

/-- A deletion waits about which no decision can be logged. -/
def Obscured (i : Interpreter) : Prop :=
  ∃ d failure, i.session.gate = some ⟨some d⟩ ∧ i.logging d = .error failure

/-- No deletion waits, and the command of a line is carried out. -/
def CarriesOut (line : Text) (i : Interpreter) : Prop :=
  i.session.isAwaiting = false ∧
    ∃ l entry, Line.parse line = some l ∧ (i.noted line).ending l = .ok entry

/-- After the command of a line was carried out and logged, an effect that it left waiting fails, or the
scheduler does. -/
def EffectFails (line : Text) (i : Interpreter) : Prop :=
  i.session.isAwaiting = false ∧
    ∃ l failure, Line.parse line = some l ∧ (i.noted line).aftermath l = .error failure

/-- No deletion waits, and the command of a line empties the result log. -/
def Clears (line : Text) (i : Interpreter) : Prop :=
  i.session.isAwaiting = false ∧
    ∃ l, Line.parse line = some l ∧ Verb.ofToken? l.verb = some .clear

/-- What a line that comes to its end does to the result log, to the history and to what is being typed. -/
structure Narrated (line : Text) (i i' : Interpreter) : Prop where
  /-- A blank line changes nothing. -/
  blank : line.strip = [] → i' = i
  /-- Nothing is left of what was being typed. -/
  typed : line.strip ≠ [] → i'.buffer = [] ∧ i'.suggestions = []
  /-- The line is remembered, unless a deletion waits and the line neither confirms nor refuses it. -/
  remembered : line.strip ≠ [] → i'.history =
    if i.session.isAwaiting = true ∧ Decision.ofLine line = .reject then i.history
    else i.history.record line.strip
  /-- The line is announced and answered with one entry, and with a second one, an error, exactly if an
  effect fails; or it empties the result log. -/
  logged : line.strip ≠ [] →
    (i.Clears line ∧ i'.log = .empty) ∨
      (∃ first, i'.log.entries = i.log.entries ++ [.info ("> " ++ line.strip), first] ∧
        ¬ i.EffectFails line) ∨
      ∃ first second, i'.log.entries = i.log.entries ++ [.info ("> " ++ line.strip), first, second] ∧
        second.kind = .error ∧ i.EffectFails line

/-- What a line leaves behind from which something escapes. -/
structure BrokenOff (line : Text) (i i' : Interpreter) : Prop where
  /-- Nothing is left of what was being typed. -/
  typed : i'.buffer = [] ∧ i'.suggestions = []
  /-- The line is remembered, unless it was to answer the gate and that could not be logged. -/
  remembered : ¬ i.Obscured → i'.history = i.history.record line.strip
  forgotten : i.Obscured → i'.history = i.history
  /-- What went wrong is not told. The line is announced, and answered only by a command that was carried
  out before. -/
  logged :
    (¬ i.CarriesOut line ∧ i'.log.entries = i.log.entries ++ [.info ("> " ++ line.strip)]) ∨
      (i.CarriesOut line ∧ i.Clears line ∧ i'.log = .empty) ∨
      i.CarriesOut line ∧
        ∃ first, i'.log.entries = i.log.entries ++ [.info ("> " ++ line.strip), first]

/-- What becomes of a line. -/
structure Narration (line : Text) (i : Interpreter) : Prop where
  /-- It comes to its end but for what escapes from it. -/
  escapes_iff : ∀ failure, (submit line i).1 = .error failure ↔ i.Escapes line failure
  narrated : ∀ entries, (submit line i).1 = .ok entries → Narrated line i (submit line i).2
  brokenOff : ∀ failure, (submit line i).1 = .error failure → BrokenOff line i (submit line i).2

section
variable {line : Text}

theorem not_obscured_of_idle (hidle : i.session.isAwaiting = false) : ¬ i.Obscured := by
  rintro ⟨d, failure, hgate, -⟩
  rw [Session.isAwaiting_of_gate hgate] at hidle
  cases hidle

theorem not_obscured_of_logging {d : Deletion} {label : Json} (hgate : i.session.gate = some ⟨some d⟩)
    (hlogging : i.logging d = .ok label) : ¬ i.Obscured := by
  rintro ⟨d', failure, hgate', hfails⟩
  rw [hgate] at hgate'
  cases hgate'
  rw [hlogging] at hfails
  cases hfails

/-- While a deletion waits no command is carried out. -/
theorem not_carriesOut_of_gate {d : Deletion} (hgate : i.session.gate = some ⟨some d⟩) :
    ¬ i.CarriesOut line := by
  rintro ⟨hidle, -⟩
  rw [Session.isAwaiting_of_gate hgate] at hidle
  cases hidle

theorem not_carriesOut_of_error (hl : Line.parse line = some l) {failure : Failure}
    (hfails : (i.noted line).ending l = .error failure) : ¬ i.CarriesOut line := by
  rintro ⟨-, l', entry, hl', hending⟩
  rw [hl] at hl'
  cases hl'
  rw [hfails] at hending
  cases hending

theorem effectFails_iff (hidle : i.session.isAwaiting = false) (hl : Line.parse line = some l) :
    i.EffectFails line ↔ ∃ failure, (i.noted line).aftermath l = .error failure := by
  constructor
  · rintro ⟨-, l', failure, hl', hfails⟩
    rw [hl] at hl'
    cases hl'
    exact ⟨failure, hfails⟩
  · rintro ⟨failure, hfails⟩
    exact ⟨hidle, l, failure, hl, hfails⟩

/-- A line whose command ends is remembered. -/
theorem run_idle (hidle : i.session.isAwaiting = false) (hl : Line.parse line = some l) :
    (course line).run answer i =
      Act.after (fun _ => entriesSince i.log.size) ((dispatch l).run answer (i.noted line)) := by
  rw [(leads_idle hidle (Line.strip_ne_nil_of_parse hl) hl).run_eq, Course.run_bind]
  rfl

/-- The entries after a line was announced and its command was carried out. -/
theorem brokenOff_of_carriesOut (hidle : i.session.isAwaiting = false) (hl : Line.parse line = some l)
    {entry : Option Entry} (hending : (i.noted line).ending l = .ok entry)
    (hcleared : entry = none → Verb.ofToken? l.verb = some .clear) (session : Session) :
    BrokenOff line i { (conclude entry (i.noted line)).2 with session } := by
  have hcarries : i.CarriesOut line := ⟨hidle, l, entry, hl, hending⟩
  have hnot := not_obscured_of_idle hidle
  cases entry with
  | none =>
    exact ⟨⟨rfl, rfl⟩, fun _ => rfl, fun hobscured => absurd hobscured hnot,
      .inr (.inl ⟨hcarries, ⟨hidle, l, hl, hcleared rfl⟩, rfl⟩)⟩
  | some first =>
    exact ⟨⟨rfl, rfl⟩, fun _ => rfl, fun hobscured => absurd hobscured hnot,
      .inr (.inr ⟨hcarries, first, List.append_assoc i.log.entries [_] [_]⟩)⟩

/-- Nothing escapes from a blank line. -/
theorem Escapes.strip_ne_nil {failure : Failure} (h : i.Escapes line failure) : line.strip ≠ [] := by
  cases h with
  | unlogged hline => exact hline
  | undeleted _ _ hconfirms =>
    intro hblank
    have hreject : Decision.ofLine line = .reject := by
      rw [Decision.ofLine, hblank]
      decide
    rw [hconfirms] at hreject
    cases hreject
  | untold _ hl => exact Line.strip_ne_nil_of_parse hl
  | untimed _ hl => exact Line.strip_ne_nil_of_parse hl
  | unfinished _ hl => exact Line.strip_ne_nil_of_parse hl

theorem exists_of_aftermath {failure : Failure} (h : i.aftermath l = .error failure) :
    ∃ entry, i.ending l = .ok entry := by
  rcases hrun : (execute l).run deaf i with ⟨failure' | entry, i'⟩
  · rw [aftermath, hrun] at h
    cases h
  · exact ⟨entry, by rw [ending, hrun]⟩

theorem execute_of_clear (h : Verb.ofToken? l.verb = some .clear) :
    (execute l).run answer i = (.ok none, i) := by
  show (Course.ofAct (inSession (Session.execute l)) >>= entryOf).run answer i = _
  rw [Course.run_bind, Course.run_ofAct, Session.execute_of_verb h]
  rfl

/-- The command that empties the log leaves no effect that could fail. -/
theorem aftermath_of_clear (hnone : i.session.deferred = [])
    (h : Verb.ofToken? l.verb = some .clear) : i.aftermath l = .ok () := by
  have hpatient := patient_concluded (i := i) l none i.session.elapsed
  rw [aftermath, execute_of_clear h]
  simp only [handOver_run_of_none (hpatient.1.trans hnone)]

variable (h : i.session.Obeys .docile)
include h

theorem obeys_decided {d : Deletion}
    (hdecided : ∃ world : World, world.clock = i.session.depot.world.clock ∧
      i.decided line d = ((announce line.strip i).2.withGate (gateAfter line d)).withWorld world) :
    (i.decided line d).session.Obeys .docile := by
  obtain ⟨world, hclock, hdecided⟩ := hdecided
  rw [hdecided]
  exact ⟨h.navigator, h.exit, h.clipboard, h.scheduler, h.store, h.labels, trivial⟩

/-- **What escapes from a line breaks it off.** -/
theorem run_of_escapes {failure : Failure} (hescapes : i.Escapes line failure)
    (answer : Text → Act Failure Interpreter Unit) :
    ∃ i', (course line).run answer i = (.error failure, i') ∧ BrokenOff line i i' := by
  have hnoted : (i.noted line).session.Obeys (Conduct.docile.beside i.session.depot.world.clock) :=
    h.beside
  have hline := hescapes.strip_ne_nil
  cases hescapes with
  | @unlogged d _ hline hgate hlogging =>
    refine ⟨_, run_unlogged answer hgate hline hlogging, ⟨rfl, rfl⟩, fun hnot => ?_, fun _ => rfl, ?_⟩
    · exact absurd ⟨d, failure, hgate, hlogging⟩ hnot
    · exact .inl ⟨not_carriesOut_of_gate hgate, rfl⟩
  | @undeleted d label failure' _ hgate hlogging hconfirms hfails hwords =>
    obtain ⟨hdecided, hrun⟩ := run_logged answer hgate hline hlogging
    have hobeys := obeys_decided h hdecided
    have hgoes : failure'.isInterruption = false := hobeys.allows (Session.sound_executeDeletion d _) _ hfails
    obtain ⟨world, -, hdecided⟩ := hdecided
    have hdeleted := carryOutDeletion_of_wordless (i := (remember line.strip (i.decided line d)).2)
      (Prod.ext hfails rfl) hgoes hwords
    refine ⟨_, by rw [hrun, hconfirms, follow_confirm, hdeleted]; rfl, ?_⟩
    rw [hdecided]
    exact ⟨⟨rfl, rfl⟩, fun _ => rfl,
      fun hobscured => absurd hobscured (not_obscured_of_logging hgate hlogging),
      .inl ⟨not_carriesOut_of_gate hgate, rfl⟩⟩
  | @untold l failure' _ hidle hl hfails htells =>
    obtain ⟨session, hclock, hdispatch⟩ := dispatch_of_error answer hnoted hfails
    have htells' : ({ i.noted line with session } : Interpreter).telling failure' = .error failure :=
      (telling_of_clock (i := i) hclock failure').trans htells
    exact ⟨_, by rw [run_idle hidle hl, hdispatch, giveUp_of_error htells']; rfl, ⟨rfl, rfl⟩, fun _ => rfl,
      fun hobscured => absurd hobscured (not_obscured_of_idle hidle),
      .inl ⟨not_carriesOut_of_error hl hfails, rfl⟩⟩
  | @untimed l entry _ hidle hl hsucceeds htime =>
    obtain ⟨-, -, -, -, hcleared⟩ := execute_run hnoted l
    obtain ⟨session, hdispatch⟩ := dispatch_of_noTime answer hnoted hsucceeds htime
    refine ⟨_, by rw [run_idle hidle hl, hdispatch]; rfl, ?_⟩
    exact brokenOff_of_carriesOut hidle hl hsucceeds (hcleared entry hsucceeds).1 session
  | @unfinished l failure' _ hidle hl htime hfails hwords =>
    obtain ⟨entry, hsucceeds⟩ := exists_of_aftermath hfails
    obtain ⟨-, -, -, -, hcleared⟩ := execute_run hnoted l
    obtain ⟨session, hclock, hdispatch⟩ :=
      dispatch_of_showsTime answer hnoted hsucceeds htime
    have htells : ({ (conclude entry (i.noted line)).2 with session } : Interpreter).telling failure' =
        .error failure := by
      rw [telling, hwords]
      rfl
    refine ⟨_, by rw [run_idle hidle hl, hdispatch, hfails, conveying, report_of_error htells]; rfl, ?_⟩
    exact brokenOff_of_carriesOut hidle hl hsucceeds (hcleared entry hsucceeds).1 session

omit h in
/-- A line that answered the gate is narrated if it is remembered as it should be. -/
theorem narrated_decided {d : Deletion} (hgate : i.session.gate = some ⟨some d⟩) (hline : line.strip ≠ [])
    {label : Json} (hlogging : i.logging d = .ok label) (entry : Entry) (session : Session)
    {history : History}
    (hhistory : history =
      if Decision.ofLine line = .reject then i.history else i.history.record line.strip) :
    Narrated line i { (i.decided line d).saying entry session with history } := by
  obtain ⟨⟨world, -, hdecided⟩, -⟩ := run_logged deaf hgate hline hlogging
  have hawaits := Session.isAwaiting_of_gate hgate
  subst hhistory
  rw [hdecided]
  refine ⟨fun hblank => absurd hblank hline, fun _ => ⟨rfl, rfl⟩, fun _ => ?_, fun _ => .inr (.inl
    ⟨entry, List.append_assoc i.log.entries [_] [_], ?_⟩)⟩
  · simp only [hawaits, true_and]
  · rintro ⟨hidle, -⟩
    rw [hawaits] at hidle
    cases hidle

/-- A line that answers the gate, and from which nothing escapes. -/
theorem narrated_held {d : Deletion} (hgate : i.session.gate = some ⟨some d⟩) (hline : line.strip ≠ [])
    (hnot : ∀ failure, ¬ i.Escapes line failure) (answer : Text → Act Failure Interpreter Unit) :
    ∃ entries i', (course line).run answer i = (.ok entries, i') ∧ Narrated line i i' := by
  obtain ⟨label, hlogging⟩ : ∃ label, i.logging d = .ok label := by
    cases hlogging : i.logging d with
    | ok label => exact ⟨label, rfl⟩
    | error failure => exact absurd (.unlogged hline hgate hlogging) (hnot failure)
  obtain ⟨⟨world, hclock, hdecided⟩, hrun⟩ := run_logged answer hgate hline hlogging
  have hobeys := obeys_decided h ⟨world, hclock, hdecided⟩
  have hhistory : (i.decided line d).history = i.history := by
    rw [hdecided]
    rfl
  rw [hrun]
  cases hdecision : Decision.ofLine line with
  | reject =>
    exact ⟨_, _, rfl, narrated_decided hgate hline hlogging (.error reminder) _
      (by rw [hdecision]; exact hhistory)⟩
  | cancel =>
    exact ⟨_, _, rfl, narrated_decided hgate hline hlogging (.info "Operation cancelled.") _
      (by rw [hdecision, ← hhistory]; rfl)⟩
  | confirm =>
    have hresult : Ordinarily (Session.executeDeletion d (i.decided line d).session).1 := by
      intro failure hfails
      have hgoes := hobeys.allows (Session.sound_executeDeletion d _) failure hfails
      cases hwords : failure.words with
      | error cause => exact absurd (.undeleted hgate hlogging hdecision hfails hwords) (hnot cause)
      | ok text => exact ⟨hgoes, Failure.hasWords_of_ok hwords⟩
    have htime : (i.decided line d).ShowsTime := by
      rw [hdecided]
      exact World.ShowsTime.of_clock (logging_eq_ok_iff.1 ⟨label, hlogging⟩).1 hclock
    obtain ⟨session, -, hdeleted⟩ := carryOutDeletion_run
      (i := (remember line.strip (i.decided line d)).2) htime hresult
    rw [follow_confirm, hdeleted]
    exact ⟨_, _, rfl, narrated_decided hgate hline hlogging _ session
      (by rw [hdecision, ← hhistory]; rfl)⟩

omit h in
/-- A line whose command came to an end is narrated if the result log is. -/
theorem narrated_noted (hidle : i.session.isAwaiting = false) (hl : Line.parse line = some l)
    {session : Session} {log : EntryLog}
    (hlog : (i.Clears line ∧ log = .empty) ∨
      (∃ first, log = (i.noted line).log.append first ∧ ¬ i.EffectFails line) ∨
      ∃ first message, log = ((i.noted line).log.append first).append (.error message) ∧
        i.EffectFails line) :
    Narrated line i { i.noted line with session, log } := by
  have hline := Line.strip_ne_nil_of_parse hl
  refine ⟨fun hblank => absurd hblank hline, fun _ => ⟨rfl, rfl⟩, fun _ => ?_, fun _ => ?_⟩
  · show i.history.record line.strip = _
    simp [hidle]
  · rcases hlog with hclears | ⟨first, rfl, hnot⟩ | ⟨first, message, rfl, hfails⟩
    · exact .inl hclears
    · exact .inr (.inl ⟨first, List.append_assoc i.log.entries [_] [_], hnot⟩)
    · refine .inr (.inr ⟨first, .error message, ?_, rfl, hfails⟩)
      show ((i.log.entries ++ [_]) ++ [_]) ++ [_] = _
      rw [List.append_assoc, List.append_assoc]
      rfl

/-- A line whose command fails, which can be told. -/
theorem narrated_failed (hidle : i.session.isAwaiting = false) (hl : Line.parse line = some l)
    {failure : Failure} (hending : (i.noted line).ending l = .error failure) {moment : Timestamp}
    (htells : i.telling failure = .ok moment) (answer : Text → Act Failure Interpreter Unit) :
    ∃ entries i', (course line).run answer i = (.ok entries, i') ∧ Narrated line i i' := by
  have hnoted : (i.noted line).session.Obeys (Conduct.docile.beside i.session.depot.world.clock) :=
    h.beside
  obtain ⟨session, hclock, hdispatch⟩ := dispatch_of_error answer hnoted hending
  obtain ⟨hwords, hnow⟩ := telling_eq_ok htells
  obtain ⟨world, hgive⟩ := giveUp_run (i := { i.noted line with session })
    (World.ShowsTime.of_clock ⟨moment, hnow⟩ hclock) l hwords
  -- a command that failed leaves no effects that could fail
  have hnot : ¬ i.EffectFails line := fun hfails => by
    obtain ⟨failure', hfails⟩ := (effectFails_iff hidle hl).1 hfails
    obtain ⟨entry, hok⟩ := exists_of_aftermath hfails
    rw [hending] at hok
    cases hok
  rw [run_idle hidle hl, hdispatch, hgive]
  exact ⟨_, _, rfl, narrated_noted hidle hl (.inr (.inl ⟨.error failure.told, rfl, hnot⟩))⟩

/-- A line whose command is carried out at some time, and of which no effect fails without words. -/
theorem narrated_carriedOut (hnone : i.session.deferred = []) (hidle : i.session.isAwaiting = false)
    (hl : Line.parse line = some l) {entry : Option Entry} (hending : (i.noted line).ending l = .ok entry)
    (htime : i.ShowsTime)
    (hwords : ∀ failure, (i.noted line).aftermath l = .error failure → failure.HasWords)
    (answer : Text → Act Failure Interpreter Unit) :
    ∃ entries i', (course line).run answer i = (.ok entries, i') ∧ Narrated line i i' := by
  have hnoted : (i.noted line).session.Obeys (Conduct.docile.beside i.session.depot.world.clock) :=
    h.beside
  obtain ⟨-, -, -, -, hcleared⟩ := execute_run hnoted l
  obtain ⟨session, hclock, hdispatch⟩ := dispatch_of_showsTime answer hnoted hending htime
  rw [run_idle hidle hl, hdispatch]
  cases hresult : (i.noted line).aftermath l with
  | ok _ =>
    have hnot : ¬ i.EffectFails line := fun hfails => by
      obtain ⟨failure, hfails⟩ := (effectFails_iff hidle hl).1 hfails
      rw [hresult] at hfails
      cases hfails
    cases entry with
    | none =>
      exact ⟨_, _, rfl, narrated_noted hidle hl (.inl ⟨⟨hidle, l, hl, (hcleared none hending).1 rfl⟩, rfl⟩)⟩
    | some first => exact ⟨_, _, rfl, narrated_noted hidle hl (.inr (.inl ⟨first, rfl, hnot⟩))⟩
  | error failure =>
    have htime' : ({ (conclude entry (i.noted line)).2 with session } : Interpreter).ShowsTime :=
      World.ShowsTime.of_clock htime hclock
    obtain ⟨world, hreport⟩ := report_run htime' l (hwords failure hresult)
    rw [conveying, hreport]
    cases entry with
    | none =>
      -- the command that empties the log leaves no effect that could fail
      rw [aftermath_of_clear (i := i.noted line) hnone ((hcleared none hending).1 rfl)] at hresult
      cases hresult
    | some first =>
      exact ⟨_, _, rfl, narrated_noted hidle hl
        (.inr (.inr ⟨first, failure.told, rfl, (effectFails_iff hidle hl).2 ⟨failure, hresult⟩⟩))⟩

/-- A line that does not answer the gate, and from which nothing escapes. -/
theorem narrated_idle (hnone : i.session.deferred = []) (hidle : i.session.isAwaiting = false)
    (hl : Line.parse line = some l) (hnot : ∀ failure, ¬ i.Escapes line failure)
    (answer : Text → Act Failure Interpreter Unit) :
    ∃ entries i', (course line).run answer i = (.ok entries, i') ∧ Narrated line i i' := by
  cases hending : (i.noted line).ending l with
  | error failure =>
    cases htells : i.telling failure with
    | error cause => exact absurd (.untold hidle hl hending htells) (hnot cause)
    | ok moment => exact narrated_failed h hidle hl hending htells answer
  | ok entry =>
    cases hnow : i.session.depot.world.localNow with
    | error failure => exact absurd (.untimed hidle hl hending hnow) (hnot failure)
    | ok moment =>
      refine narrated_carriedOut h hnone hidle hl hending ⟨moment, hnow⟩ (fun failure hfails => ?_) answer
      cases hwords : failure.words with
      | error cause => exact absurd (.unfinished hidle hl ⟨moment, hnow⟩ hfails hwords) (hnot cause)
      | ok text => exact Failure.hasWords_of_ok hwords

end

/-- A line from which nothing escapes comes to its end. -/
theorem submit_of_not_escapes (hreach : i.Reachable) (h : i.session.Obeys .docile) {line : Text}
    (hnot : ∀ failure, ¬ i.Escapes line failure) :
    ∃ entries i', submit line i = (.ok entries, i') ∧ Narrated line i i' := by
  rw [submit_eq]
  by_cases hline : line.strip = []
  · rw [course_of_blank hline]
    exact ⟨[], i, rfl, fun _ => rfl, fun hne => absurd hline hne, fun hne => absurd hline hne,
      fun hne => absurd hline hne⟩
  · cases hawaits : i.session.isAwaiting with
    | true =>
      obtain ⟨d, hgate⟩ := Session.exists_of_isAwaiting hawaits
      exact narrated_held h hgate hline hnot _
    | false =>
      obtain ⟨l, hl⟩ := Line.exists_of_parse hline
      exact narrated_idle h hreach.deferred_eq_nil hawaits hl hnot _

/-- **Every line is narrated but for those from which something escapes.** This holds in every state that
an interpreter comes to, whatever the store, the parts outside and the clock do, so long as no lines are
submitted on the way and nothing is interrupted. -/
theorem narrated_submit (hreach : i.Reachable) (h : i.session.Obeys .docile) (line : Text) :
    Narration line i := by
  by_cases hescapes : ∃ failure, i.Escapes line failure
  · obtain ⟨failure, hescapes⟩ := hescapes
    obtain ⟨i', hrun, hbroken⟩ := run_of_escapes h hescapes (answerAt i.pending)
    rw [← submit_eq] at hrun
    refine ⟨fun failure' => ⟨fun hfails => ?_, fun hescapes' => ?_⟩, fun entries hok => ?_, fun _ _ => ?_⟩
    · rw [hrun] at hfails
      cases hfails
      exact hescapes
    · obtain ⟨i'', hrun', -⟩ := run_of_escapes h hescapes' (answerAt i.pending)
      rw [submit_eq, hrun']
    · rw [hrun] at hok
      cases hok
    · rw [hrun]
      exact hbroken
  · have hnot : ∀ failure, ¬ i.Escapes line failure := fun failure he => hescapes ⟨failure, he⟩
    obtain ⟨entries, i', hrun, hnarrated⟩ := submit_of_not_escapes hreach h hnot
    refine ⟨fun failure => ⟨fun hfails => ?_, fun he => absurd he (hnot failure)⟩, fun _ _ => ?_,
      fun failure hfails => ?_⟩
    · rw [hrun] at hfails
      cases hfails
    · rw [hrun]
      exact hnarrated
    · rw [hrun] at hfails
      cases hfails

/-- **Nothing escapes where everything that events are to say can be said.** -/
theorem narrated_of_worded {c : Conduct} (hdocile : c.IsDocile) (hworded : c.IsWorded)
    (hreach : i.Reachable) (h : i.session.Obeys c) (line : Text) :
    ∃ entries i', submit line i = (.ok entries, i') ∧ Narrated line i i' := by
  have hnarration := narrated_submit hreach (h.docile hdocile) line
  rcases hsubmit : submit line i with ⟨failure | entries, i'⟩
  · obtain ⟨hinterrupted, hfails⟩ := isInterruption_of_submit hworded h (congrArg Prod.fst hsubmit)
    rw [hdocile.fails failure hfails] at hinterrupted
    cases hinterrupted
  · have hnarrated := hnarration.narrated entries (congrArg Prod.fst hsubmit)
    rw [hsubmit] at hnarrated
    exact ⟨entries, i', rfl, hnarrated⟩

/-- A session whose pages cannot be shown. -/
def sampleLostSession : Session :=
  { Session.bare ⟨World.fresh 0 [], .inMemory .empty⟩ with
    navigator := some (.outside ⟨[], some (.foreign .runtime "no screen")⟩) }

theorem obeys_sampleLostSession : (start sampleLostSession).session.Obeys .docile where
  navigator b hb := by
    cases hb
    refine ⟨?_, fun f hf => ?_⟩
    · rintro r ⟨⟩
    · cases hf
      rfl
  exit b hb := by cases hb
  clipboard b hb := by cases hb
  scheduler := by
    refine ⟨?_, fun line hline => ?_, ?_⟩
    · rintro h ⟨⟩
    · rcases List.mem_singleton.1 hline with ⟨⟩
    · rintro f ⟨⟩
  store f hf := by
    obtain ⟨operation, hfault⟩ := hf
    cases hfault
  labels id f hf := trivial
  clock := trivial

theorem narrated_submit_sampleLostSession :
    ((start sampleLostSession).Reachable ∧ (start sampleLostSession).session.Obeys .docile) ∧
      Narration " open vaults" (start sampleLostSession) ∧
      (submit " open vaults" (start sampleLostSession)).2.log.entries =
        [.info "> open vaults", .success "Opening vaults page...",
          .error "Unexpected error: no screen"] :=
  ⟨⟨.start rfl, obeys_sampleLostSession⟩,
    narrated_submit (.start rfl) obeys_sampleLostSession " open vaults", by decide +kernel⟩

/-- A session whose store cannot list its vaults, for a reason that has no words. -/
def sampleWordless : Session :=
  Session.bare ⟨World.fresh 0 [],
    { Store.inMemory .empty with
      faults := [(.listVaults, .fails (.wordless .runtime (.foreign .runtime "no words")))] }⟩

/-- A session on the first day of the calendar. -/
def sampleFirstDay : Session :=
  Session.bare ⟨World.fresh (-62135553600000000) [], .inMemory .empty⟩

theorem obeys_sampleWordless : (start sampleWordless).session.Obeys .docile where
  navigator b hb := by cases hb
  exit b hb := by cases hb
  clipboard b hb := by cases hb
  scheduler := by
    refine ⟨?_, fun line hline => ?_, ?_⟩
    · rintro h ⟨⟩
    · rcases List.mem_singleton.1 hline with ⟨⟩
    · rintro f ⟨⟩
  store f hf := by
    obtain ⟨operation, hfault⟩ := hf
    cases Table.mem_of_get? hfault with
    | head => rfl
    | tail _ hmem => cases hmem
  labels id f hf := trivial
  clock := trivial

/-- Lines that are announced, and of which nothing more is told: a failure of the store has no words, or
the clock shows no time. -/
theorem exists_escape :
    ((start sampleWordless).Reachable ∧ (start sampleWordless).session.Obeys .docile ∧
      (submit "vault list" (start sampleWordless)).1 = .error (.foreign .runtime "no words") ∧
      (submit "vault list" (start sampleWordless)).2.log.entries = [.info "> vault list"]) ∧
    (submit "open nowhere" (start sampleFirstDay)).1 = .error (.noTime (.noYear 0)) ∧
      (submit "open nowhere" (start sampleFirstDay)).2.log.entries = [.info "> open nowhere"] :=
  ⟨⟨.start rfl, obeys_sampleWordless, by decide +kernel, by decide +kernel⟩, by decide +kernel,
    by decide +kernel⟩

end Interpreter

end VaultConsole
