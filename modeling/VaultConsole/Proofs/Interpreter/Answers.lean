import VaultConsole.Proofs.Interpreter.Reachable
import VaultConsole.Proofs.Session.Creation

/-!
# What a line is answered

Under a clock that shows a time every event is emitted, so nothing stands in the way of an answer. What
fails is answered by what is told of the failure, and what succeeds by its own entry.

* `Entry.told`: what is told of an outcome.
* `Interpreter.report_run`, `Interpreter.giveUp_run`: failures are told.
* `Interpreter.carryOutDeletion_run`: the outcome of a deletion is told.
* `Interpreter.wrapUp_run_of_none`: a command that left no effect waiting.
* `Interpreter.submit_answering`: **a line whose command answers by itself.**
* `Interpreter.Listens`: an interpreter that waits for a line, over a store in memory.
* `Interpreter.submit_held`: a line that comes while a deletion waits.
* `Interpreter.submit_creates`, `Interpreter.submit_deletes`, `Interpreter.answered`: lines that make or
  delete a record, and words to a question.
-/

namespace VaultConsole

open Failure (Ordinarily)

/-- What is told of an outcome: its entry, or what went wrong. -/
def Entry.told : Except Failure Entry → Entry
  | .ok entry => entry
  | .error failure => .error failure.told

namespace Interpreter

/-- An interpreter that answered with an entry, with its session as it was left by that. -/
def saying (entry : Entry) (session : Session) (i : Interpreter) : Interpreter :=
  { i with session, log := i.log.append entry }

variable {i : Interpreter}

theorem report_run (h : i.ShowsTime) (l : Line) {failure : Failure} (hwords : failure.HasWords) :
    ∃ world, report l failure i =
      (.ok (), i.saying (.error failure.told) (i.withWorld world).session) := by
  unfold report
  rw [Act.run_bind, Act.run_settle, hwords, Act.after_ok]
  simp only [Act.run_bind]
  obtain ⟨event, hemit⟩ := emit_of_showsTime h (if failure.isExpected then .warning else .error)
    "command_error" (lineFields l ++ failureFields failure)
  rw [hemit]
  exact ⟨_, rfl⟩

theorem giveUp_run (h : i.ShowsTime) (l : Line) {failure : Failure} (hwords : failure.HasWords) :
    ∃ world, giveUp l failure i =
      (.ok (), i.saying (.error failure.told)
        { (i.withWorld world).session with deferred := [] }) := by
  obtain ⟨world, hreport⟩ := report_run
    (i := { i with session := i.session.dropDeferred }) h l hwords
  refine ⟨world, ?_⟩
  unfold giveUp
  rw [Act.run_bind, inSession, Act.run_within, Act.run_change, Act.after_ok, hreport]
  rfl

/-- What comes of a confirmed deletion is told. -/
theorem carryOutDeletion_run (h : i.ShowsTime) {d : Deletion}
    (hresult : Ordinarily (Session.executeDeletion d i.session).1) :
    ∃ session, session.depot.store = (Session.executeDeletion d i.session).2.depot.store ∧
      carryOutDeletion d i =
        (.ok (), i.saying (.told (Session.executeDeletion d i.session).1) session) := by
  have hsound := Session.sound_executeDeletion d i.session
  have hrun : inSession (Session.executeDeletion d) i =
      ((Session.executeDeletion d i.session).1,
        { i with session := (Session.executeDeletion d i.session).2 }) := rfl
  have hsteady := hsound.keeps
  unfold carryOutDeletion
  rw [Act.run_bind, hresult.attempt hrun, Act.after_ok]
  rcases hexecuted : Session.executeDeletion d i.session with ⟨failure | entry, session⟩ <;>
    rw [hexecuted] at hsteady
  · have htime : ({ i with session } : Interpreter).ShowsTime := h.of_clock hsteady.depot.clock
    rw [hexecuted] at hresult
    have hwords : failure.words = .ok failure.message := (hresult failure rfl).words
    simp only
    rw [Act.run_bind, Act.run_settle, hwords, Act.after_ok]
    split
    · obtain ⟨event, hemit⟩ := emit_of_showsTime htime .error "command_error"
        (([("verb", .text d.kind.operationName)] : Table Text Json) ++ failureFields failure)
      refine ⟨(withWorld (session.depot.world.record event) { i with session }).session, rfl, ?_⟩
      rw [Act.run_bind, hemit]
      rfl
    · exact ⟨session, rfl, rfl⟩
  · exact ⟨session, rfl, rfl⟩

/-- Unless it fails and has no words. -/
theorem carryOutDeletion_of_wordless {d : Deletion} {failure cause : Failure} {session : Session}
    (hexecuted : Session.executeDeletion d i.session = (.error failure, session))
    (hgoes : failure.isInterruption = false) (hwords : failure.words = .error cause) :
    carryOutDeletion d i = (.error cause, { i with session }) := by
  have hrun : inSession (Session.executeDeletion d) i = (.error failure, { i with session }) := by
    rw [inSession, Act.run_within, hexecuted]
  unfold carryOutDeletion
  rw [Act.run_bind, Failure.attempt, Act.attemptUnless, hrun]
  simp only [hgoes, Bool.false_eq_true, if_false, Act.after_ok]
  rw [Act.run_bind, Act.run_settle, hwords]
  rfl

/-- Where no effect waits none can fail. -/
theorem handOver_run_of_none (h : i.session.deferred = [])
    {answer : Text → Act Failure Interpreter Unit} :
    handOver.run answer i = (.ok (), { i with session := i.session.dropDeferred }) := by
  show (Course.ofAct (inSession Session.takeDeferred) >>= fun effects =>
    effects.forM schedule).run answer i = _
  rw [Course.run_bind, Course.run_ofAct]
  show Act.after _ (.ok i.session.deferred, _) = _
  rw [h]
  rfl

/-- A command that left no effect waiting is answered with its entry. -/
theorem wrapUp_run_of_none (h : i.ShowsTime) (hnone : i.session.deferred = []) (l : Line)
    (entry : Entry) (started : Binary64) (answer : Text → Act Failure Interpreter Unit) :
    ∃ world, (wrapUp l (some entry) started).run answer i =
      (.ok (), i.saying entry { (i.withWorld world).session with deferred := [] }) := by
  obtain ⟨event, hlog⟩ : ∃ event, logCommand l (some entry) started (conclude (some entry) i).2 =
      (.ok (), (conclude (some entry) i).2.withWorld (i.session.depot.world.record event)) :=
    emit_of_showsTime (i := (conclude (some entry) i).2) h .info "command_exec" _
  refine ⟨i.session.depot.world.record event, ?_⟩
  show (Course.ofAct (conclude (some entry)) >>= _ : Course Interpreter Unit).run answer i = _
  rw [Course.run_bind, Course.run_ofAct]
  show Act.after _ (.ok (), (conclude (some entry) i).2) = _
  rw [Act.after_ok]
  show (Course.ofAct (logCommand l (some entry) started) >>= _ :
    Course Interpreter Unit).run answer _ = _
  rw [Course.run_bind, Course.run_ofAct, hlog, Act.after_ok, Course.run_bind,
    Course.run_attemptUnlessInterrupted, Failure.attempt, Act.attemptUnless,
    handOver_run_of_none
      (i := (conclude (some entry) i).2.withWorld (i.session.depot.world.record event)) hnone]
  rfl

/-- **A line whose command answers by itself**, and leaves no effect waiting: it is announced, and what
is told of the command follows. -/
theorem submit_answering {act : Act Failure Session Entry} {l : Line} {line : Text}
    (hexecute : Session.execute l = Session.answering act)
    (hact : act.SoundAt Session.Steady Session.Blames i.session) (hl : Line.parse line = some l)
    (hidle : i.session.isAwaiting = false) (htime : i.ShowsTime)
    (hordinary : i.session.depot.store.IsOrdinary) (hnone : i.session.deferred = []) :
    ∃ entries i', submit line i = (.ok entries, i') ∧
      i'.log.entries =
        i.log.entries ++ [.info ("> " ++ line.strip), .told (act i.session).1] ∧
      i'.session.depot.store = (act i.session).2.depot.store ∧
      i'.session.gate = (act i.session).2.gate := by
  have hsteady := hact.keeps
  have htime' : ({ i.noted line with session := (act i.session).2 } : Interpreter).ShowsTime :=
    htime.of_clock hsteady.depot.clock
  have hnone' : (act i.session).2.deferred = [] := by
    rw [hsteady.rest]
    exact hnone
  rw [submit_eq, (leads_idle hidle (Line.strip_ne_nil_of_parse hl) hl).run_eq, Course.run_bind]
  rcases hrun : act i.session with ⟨failure | entry, session⟩ <;>
    rw [hrun] at htime' hnone'
  · have hfail : Session.execute l i.session = (.error failure, session) := by
      rw [hexecute, Session.answering, Act.run_bind, hrun]
      rfl
    have hfailure : failure.IsOrdinary :=
      (hact.fails failure (by rw [hrun])).elim id (hordinary failure)
    obtain ⟨world, hgive⟩ := giveUp_run htime' l hfailure.words
    rw [(leads_dispatch_error (i := i.noted line) hfail hfailure.goes).run_eq, Course.run_ofAct,
      hgive]
    exact ⟨_, _, rfl, List.append_assoc i.log.entries [_] [_], rfl, rfl⟩
  · have hentry : Session.execute l i.session = (.ok (.entry entry), session) := by
      rw [hexecute, Session.answering, Act.run_bind, hrun]
      rfl
    obtain ⟨world, hwrap⟩ := wrapUp_run_of_none htime' hnone' l entry
      (i.noted line).session.elapsed (answerAt i.pending)
    rw [(leads_dispatch_entry (i := i.noted line) hentry).run_eq, hwrap]
    exact ⟨_, _, rfl, List.append_assoc i.log.entries [_] [_], rfl, rfl⟩

/-- A line that comes while a deletion waits: it is announced, the gate is told, the answer is logged,
and what it decides follows. -/
theorem submit_held {d : Deletion} {line : Text} (hgate : i.session.gate = some ⟨some d⟩)
    (htime : i.ShowsTime) (hlabels : i.Labels d) (hline : line.strip ≠ []) :
    ∃ world : World, world.ShowsTime ∧ (submit line i).2 =
      (follow line.strip d (Decision.ofLine line)
        (((announce line.strip i).2.withGate (gateAfter line d)).withWorld world)).2 := by
  obtain ⟨result, hlead⟩ := leads_held hgate hline
  obtain ⟨event, hanswer⟩ :=
    answerGate_of_showsTime (i := (announce line.strip i).2) hgate htime hlabels line.strip
  refine ⟨i.session.depot.world.record event, htime.record event, ?_⟩
  rw [submit_eq, hlead.run_eq, Course.run_done, hanswer, gateAfter_strip, Decision.ofLine_strip]
  rfl

/-- An idle interpreter over a store in memory: no deletion waits and no effect does, and the clock shows a
time. -/
structure Listens (i : Interpreter) : Prop where
  rest : i.AtRest
  idle : i.session.gate = some .idle
  plain : i.session.depot.store.IsPlain

/-! ## Lines that make or delete a record -/

/-- The last entry is a question. -/
def prompts (i : Interpreter) : Bool := i.log.last?.any (·.kind == .prompt)

/-- A line and, if it was answered with a question, a word to that. -/
def answered (line word : Text) (i : Interpreter) : Interpreter :=
  if (submit line i).2.prompts then (submit word (submit line i).2).2 else (submit line i).2

variable {line : Text} {l : Line} {kind : Deletable}

theorem last?_of_entries {before : List Entry} {first last : Entry}
    (h : i.log.entries = before ++ [first, last]) : i.log.last? = some last := by
  rw [EntryLog.last?, h, List.getLast?_append]
  rfl

/-- **A line that is to make a record**: what is told of it stands last, and is no question. -/
theorem submit_creates (hl : Line.parse line = some l) (hc : l.Creates kind) (hrest : i.AtRest)
    (hidle : i.session.gate = some .idle) (hplain : i.session.depot.store.IsPlain) :
    (submit line i).2.log.last? = some (.told (Session.creationOf l kind i.session).1) ∧
      (submit line i).2.prompts = false ∧
      (submit line i).2.session.depot.store =
        (Session.creationOf l kind i.session).2.depot.store := by
  obtain ⟨entries, i', hsubmit, hlog, hstore, -⟩ :=
    submit_answering (Session.execute_of_creates hc) (Session.sound_creationOf l kind i.session) hl
      (Session.isAwaiting_of_idle hidle) hrest.time hplain.isOrdinary hrest.deferred
  have hlast := last?_of_entries hlog
  rw [hsubmit]
  refine ⟨hlast, ?_, hstore⟩
  rw [prompts, hlast]
  cases hresult : (Session.creationOf l kind i.session).1 with
  | error failure => rfl
  | ok entry =>
    obtain ⟨message, rfl⟩ := Session.yields_creationOf l kind i.session entry hresult
    rfl

/-- **A line that is to delete a record**: either what went wrong stands last, or the question does and
the deletion is behind the gate. -/
theorem submit_deletes (hl : Line.parse line = some l) (hd : l.Deletes kind) (hrest : i.AtRest)
    (hidle : i.session.gate = some .idle) (hplain : i.session.depot.store.IsPlain) :
    (submit line i).2.session.depot.store = i.session.depot.store ∧
      match (Session.deletionOf l kind i.session).1 with
      | .error failure =>
        (submit line i).2.log.last? = some (.error failure.told) ∧ (submit line i).2.prompts = false
      | .ok d =>
        (submit line i).2.prompts = true ∧ (submit line i).2.session.gate = some ⟨some d⟩ := by
  have hsame : (Session.deletionOf l kind i.session).2 = i.session :=
    (Session.keeps_deletionOf (R := fun s s' => s' = s) l kind) i.session
  have hsound : (do Session.askToDelete (← Session.deletionOf l kind) :
      Act Failure Session Entry).Sound Session.Steady Session.Blames :=
    (Session.sound_deletionOf l kind).bind fun _ => Session.sound_askToDelete _
  obtain ⟨entries, i', hsubmit, hlog, hstore, hgate⟩ :=
    submit_answering (Session.execute_of_deletes hd) (hsound i.session) hl
      (Session.isAwaiting_of_idle hidle) hrest.time hplain.isOrdinary hrest.deferred
  have hlast := last?_of_entries hlog
  rw [hsubmit]
  rw [Act.run_bind] at hstore hgate hlast
  rcases hrun : Session.deletionOf l kind i.session with ⟨failure | d, s⟩ <;>
    rw [hrun] at hstore hgate hlast hsame
  · refine ⟨hstore.trans (congrArg (·.depot.store) hsame), hlast, ?_⟩
    simp only [prompts, hlast]
    rfl
  · have hasked : Session.askToDelete d s =
        (.ok (.prompt (Session.confirmationPrompt d)), s.armed d) := by
      have hgate : s.gate = some .idle := (congrArg (·.gate) hsame).trans hidle
      unfold Session.askToDelete
      rw [Act.run_bind, Act.run_look, hgate]
      rfl
    rw [Act.after_ok, hasked] at hstore hgate hlast
    refine ⟨hstore.trans (congrArg (·.depot.store) hsame), ?_, hgate⟩
    simp only [prompts, hlast]
    rfl

variable {d : Deletion}

theorem follow_confirm (line : Text) (d : Deletion) :
    follow line d .confirm i = carryOutDeletion d (remember line i).2 := by
  rw [follow, Act.run_bind]
  rfl

/-- A word that confirms: what is told of the deletion stands last. -/
theorem submit_yes (hgate : i.session.gate = some ⟨some d⟩) (htime : i.ShowsTime)
    (hplain : i.session.depot.store.IsPlain) :
    ∃ s : Session, s.depot.store = i.session.depot.store ∧
      (submit "yes" i).2.log.last? = some (.told (Session.executeDeletion d s).1) ∧
      (submit "yes" i).2.session.depot.store = (Session.executeDeletion d s).2.depot.store := by
  have hline : ("yes" : Text).strip ≠ [] := by decide
  obtain ⟨world, htime', hsubmit⟩ := submit_held hgate htime (labels_of_plain hplain d) hline
  let j := ((announce ("yes" : Text).strip i).2.withGate (gateAfter "yes" d)).withWorld world
  have hresult : Ordinarily (Session.executeDeletion d j.session).1 :=
    Session.ordinarily_of_sound (Session.sound_executeDeletion d j.session) hplain.isOrdinary
  obtain ⟨session, hstore, hrun⟩ := carryOutDeletion_run
    (i := (remember ("yes" : Text).strip j).2) htime' hresult
  have hconfirm : Decision.ofLine "yes" = .confirm := by decide
  rw [hsubmit, hconfirm, follow_confirm, hrun]
  exact ⟨j.session, rfl, List.getLast?_concat .., hstore⟩

/-- A word that refuses. -/
theorem submit_cancel (hgate : i.session.gate = some ⟨some d⟩) (htime : i.ShowsTime)
    (hplain : i.session.depot.store.IsPlain) :
    (submit "cancel" i).2.session.depot.store = i.session.depot.store := by
  have hline : ("cancel" : Text).strip ≠ [] := by decide
  obtain ⟨world, -, hsubmit⟩ := submit_held hgate htime (labels_of_plain hplain d) hline
  have hcancel : Decision.ofLine "cancel" = .cancel := by decide
  rw [hsubmit, hcancel]
  rfl

end Interpreter

end VaultConsole
