import VaultConsole.Proofs.Interpreter.Mute
import VaultConsole.Proofs.Interpreter.Output
import VaultConsole.Proofs.Session.Answering
import VaultConsole.Proofs.Session.Reports

/-!
# What is told of failures, and what is logged of them

A failure is told the user by an entry, and reported in the log by an event. Wherever a failure is told
the two are made one right after the other, with one exception: a confirmed deletion that fails as it may
be expected to is told, but not reported.

* `Event.IsReportOf`: an event that reports a failure.
* `Interpreter.Discloses`: failures were told and reported, in one order.
* `Interpreter.Outcome`: what a line comes to with respect to failures; `Interpreter.outcome_course`.
* `Interpreter.Logged`: all failures that a line tells are reported.
* `Interpreter.reporting_of_calls`, `HostStep.reporting_sequence`: **a line is logged just if it does
  not confirm a deletion that fails as expected.**
-/

namespace VaultConsole

/-- An event that reports a failure: of which class it is, and its words. -/
structure Event.IsReportOf (e : Event) (failure : Failure) : Prop where
  name : e.name = World.reportName
  kind : Table.get? ("error_type" : Text) e.fields = some (.text failure.kind.name)
  words : Table.get? ("error" : Text) e.fields = some (.text failure.message)

/-- A failure that may be expected, and has words. -/
def Failure.IsSilent (failure : Failure) : Prop := failure.isExpected = true ∧ failure.HasWords

namespace Interpreter

/-- The entries of a kind that tells failures. -/
def errors (entries : List Entry) : List Entry := entries.filter (·.kind = .error)

theorem errors_append (entries more : List Entry) : errors (entries ++ more) = errors entries ++ errors more :=
  List.filter_append ..

/-- Between two states failures were told and reported, one by one and in one order. -/
structure Discloses (failures : List Failure) (i i' : Interpreter) : Prop where
  entries : errors i'.log.entries = errors i.log.entries ++ failures.map (.error ·.told)
  events : ∃ events, i'.session.reports = i.session.reports ++ events ∧
    List.Forall₂ Event.IsReportOf events failures

variable {failures failures' : List Failure} {i i' i'' : Interpreter}

theorem discloses_nil_iff : Discloses [] i i' ↔
    errors i'.log.entries = errors i.log.entries ∧ i'.session.reports = i.session.reports := by
  refine ⟨fun ⟨hentries, events, hevents, hreports⟩ => ?_, fun h => ⟨by simpa using h.1, [], ?_⟩⟩
  · cases hreports
    exact ⟨by simpa using hentries, by simpa using hevents⟩
  · simpa using h.2

theorem Discloses.trans (h : Discloses failures i i') (h' : Discloses failures' i' i'') :
    Discloses (failures ++ failures') i i'' := by
  obtain ⟨events, hevents, hreports⟩ := h.events
  obtain ⟨events', hevents', hreports'⟩ := h'.events
  refine ⟨?_, events ++ events', ?_, List.rel_append hreports hreports'⟩
  · rw [h'.entries, h.entries, List.append_assoc, List.map_append]
  · rw [hevents', hevents, List.append_assoc]

instance : Std.Refl (Discloses []) := ⟨fun _ => discloses_nil_iff.2 ⟨rfl, rfl⟩⟩

instance : IsTrans Interpreter (Discloses []) := ⟨fun _ _ _ h h' => h.trans h'⟩

/-! ## What tells no failure -/

theorem tacit_inSession {α : Type} {act : Act Failure Session α} (h : act.Keeps Session.Tacit) :
    (inSession act).Keeps (Discloses []) := fun i => discloses_nil_iff.2 ⟨rfl, h i.session⟩

theorem tacit_emit {name : Text} (h : name ≠ World.reportName) (severity : Severity)
    (fields : Table Text Json) : (emit severity name fields).Keeps (Discloses []) :=
  tacit_inSession (Session.tacit_emit h severity fields)

theorem errors_append_answer {entry : Entry} (h : entry.kind ≠ .error) (log : EntryLog) :
    errors (log.append entry).entries = errors log.entries := by
  show errors (log.entries ++ [entry]) = _
  rw [errors_append, errors, errors, List.filter_cons_of_neg (by simpa using h)]
  exact List.append_nil _

theorem tacit_answer {entry : Entry} (h : entry.kind ≠ .error) : (answer entry).Keeps (Discloses []) :=
  fun i => discloses_nil_iff.2 ⟨errors_append_answer h i.log, rfl⟩

theorem tacit_remember (line : Text) : (remember line).Keeps (Discloses []) :=
  fun _ => discloses_nil_iff.2 ⟨rfl, rfl⟩

theorem tacit_announce (line : Text) : (announce line).Keeps (Discloses []) :=
  fun i => discloses_nil_iff.2 ⟨@errors_append_answer (.info _) nofun i.log, rfl⟩

theorem tacit_logCommand (l : Line) (entry : Option Entry) (started : Binary64) :
    (logCommand l entry started).Keeps (Discloses []) :=
  (Act.Keeps.look _).bind fun _ => tacit_emit (by decide) _ _

theorem tacit_carryOut (effect : Effect) : (carryOut effect).Keeps (Discloses []) :=
  (Course.Keeps.ofAct (tacit_inSession (Session.tacit_touch effect))).bind fun reaction =>
    .undergo reaction

theorem tacit_schedule (effect : Effect) : (schedule effect).Keeps (Discloses []) := by
  have htake : Session.takeHandling.Keeps Session.Tacit := fun _ => rfl
  refine (Course.Keeps.ofAct (tacit_inSession htake)).bind fun handling => ?_
  refine (Course.Keeps.forM fun move _ => ?_).bind fun _ => .ending handling.failure
  cases move with
  | submit line => exact .call line
  | carryOut => exact tacit_carryOut effect
  | hold => exact .ofAct (tacit_inSession (Session.tacit_enqueue effect))

theorem tacit_handOver : handOver.Keeps (Discloses []) := by
  have htake : Session.takeDeferred.Keeps Session.Tacit := fun _ => rfl
  exact (Course.Keeps.ofAct (tacit_inSession htake)).bind fun _ => .forM fun effect _ => tacit_schedule effect

theorem tacit_execute (l : Line) : (execute l).Keeps (Discloses []) := by
  refine (Course.Keeps.ofAct (tacit_inSession (Session.tacit_execute l))).bind fun reply => ?_
  cases reply with
  | entry entry => exact .pure _
  | cleared => exact .pure _
  | secret account echo =>
    refine Course.Keeps.bind ?_ fun account => .pure _
    exact .copySecret (fun _ => tacit_inSession fun _ => rfl)
      (fun text => tacit_inSession (Session.tacit_copy text)) (fun _ => tacit_inSession fun _ => rfl) account

/-- Where nobody takes further lines, what a course does is what it does by itself. -/
theorem keeps_run_deaf {α : Type} {c : Course Interpreter α} (h : c.Keeps (Discloses [])) :
    (c.run deaf).Keeps (Discloses []) := h.run fun _ => .pure ()

/-- A command that succeeds tells no failure. -/
theorem kind_of_execute {l : Line} {entry : Entry} (h : (execute l).run deaf i = (.ok (some entry), i')) :
    entry.kind ≠ .error := by
  have hrun : (execute l).run deaf i =
      Act.after (fun reply => (entryOf reply).run deaf) (inSession (Session.execute l) i) :=
    Course.run_bind deaf i _ entryOf
  rw [hrun] at h
  rcases hreply : inSession (Session.execute l) i with ⟨failure | reply, j⟩ <;> rw [hreply] at h
  · cases h
  · cases reply with
    | entry answer =>
      cases h
      exact (Session.answers_execute l i.session _ (congrArg Prod.fst hreply) entry rfl).kind
    | cleared => cases h
    | secret account echo =>
      have hsecret := Course.run_bind deaf j (copySecret account) fun account =>
        (pure (some (Session.secretEntry echo account)) : Course Interpreter (Option Entry))
      rw [Act.after_ok] at h
      rcases hcopied : (copySecret account).run deaf j with ⟨failure | account', j'⟩ <;>
        rw [hcopied] at hsecret <;> cases hsecret.symm.trans h
      unfold Session.secretEntry
      split <;> nofun

/-! ## Failures -/

/-- A report is emitted if the clock shows a time; otherwise nothing happens. -/
theorem emit_report (severity : Severity) (fields : Table Text Json) (i : Interpreter) :
    (∃ event : Event, event.name = World.reportName ∧ event.fields = fields ∧
      emit severity "command_error" fields i =
        (.ok (), i.withWorld (i.session.depot.world.record event))) ∨
      ∃ failure, emit severity "command_error" fields i = (.error failure, i) := by
  cases hmoment : i.session.depot.world.localNow with
  | ok moment =>
    refine .inl ⟨{ severity, name := "command_error", moment, fields }, rfl, rfl, ?_⟩
    rw [emit, inSession, Act.run_within, Session.emit, Session.inDepot, Act.run_within,
      Depot.emit_eq hmoment]
    rfl
  | error failure => exact .inr ⟨failure, emit_of_noTime hmoment _ _ _⟩

/-- **A failure is reported before it is told**, and told only where it was reported. -/
theorem discloses_telling {severity : Severity} {fields : Table Text Json} {failure : Failure}
    (hkind : Table.get? ("error_type" : Text) fields = some (.text failure.kind.name))
    (hwords : Table.get? ("error" : Text) fields = some (.text failure.message)) (i : Interpreter) :
    ∃ failures, (∀ f ∈ failures, f = failure) ∧
      Discloses failures i
        ((do emit severity "command_error" fields; answer (.error failure.told) :
          Act Failure Interpreter Unit) i).2 := by
  rw [Act.run_bind]
  rcases emit_report severity fields i with ⟨event, hname, hfields, hemit⟩ | ⟨noTime, hemit⟩ <;> rw [hemit]
  · refine ⟨[failure], by simp, errors_append _ _, [event], ?_, ?_⟩
    · show (i.session.depot.world.record event).reports = _
      rw [World.reports_record, if_pos hname]
      rfl
    · exact .cons ⟨hname, by rw [hfields, hkind], by rw [hfields, hwords]⟩ .nil
  · exact ⟨[], by simp, Std.Refl.refl i⟩

theorem discloses_report (l : Line) (failure : Failure) (i : Interpreter) :
    ∃ failures, (∀ f ∈ failures, f = failure) ∧ Discloses failures i (report l failure i).2 := by
  unfold report
  rw [Act.run_bind, Act.run_settle]
  cases failure.words with
  | error cause => exact ⟨[], by simp, Std.Refl.refl i⟩
  | ok text => exact discloses_telling rfl rfl i

theorem discloses_giveUp (l : Line) (failure : Failure) (i : Interpreter) :
    ∃ failures, (∀ f ∈ failures, f = failure) ∧ Discloses failures i (giveUp l failure i).2 := by
  have hdrop : (inSession (Act.change Session.dropDeferred)).Keeps (Discloses []) :=
    tacit_inSession fun _ => rfl
  obtain ⟨failures, hfailure, hreport⟩ :=
    discloses_report l failure (inSession (Act.change Session.dropDeferred) i).2
  exact ⟨failures, hfailure, (hdrop i).trans hreport⟩

/-- An interruption is nothing to be expected. -/
theorem isExpected_of_isInterruption {failure : Failure} (h : failure.isInterruption = true) :
    failure.isExpected = false := by
  have hkind : failure.kind = .interrupt := by simpa [Failure.isInterruption] using h
  rw [Failure.isExpected, hkind]
  rfl

/-- An entry more for a failure, and no report of it. -/
def Silences (failure : Failure) (i i' : Interpreter) : Prop :=
  errors i'.log.entries = errors i.log.entries ++ [.error failure.told] ∧
    i'.session.reports = i.session.reports

/-- A confirmed deletion that fails is told and reported, unless this is as expected; then it is only
told. Without words it is neither. -/
theorem carryOutDeletion_cases (d : Deletion) (i : Interpreter) :
    (∃ failures, Discloses failures i (carryOutDeletion d i).2 ∧
        (∀ f ∈ failures, (Session.executeDeletion d i.session).1 = .error f) ∧
        ∀ f, (Session.executeDeletion d i.session).1 = .error f → ¬ f.IsSilent) ∨
      ∃ failure, (Session.executeDeletion d i.session).1 = .error failure ∧ failure.IsSilent ∧
        Silences failure i (carryOutDeletion d i).2 := by
  have hexecute := tacit_inSession (Session.tacit_executeDeletion d) i
  unfold carryOutDeletion
  rw [Act.run_bind, Failure.attempt, Act.attemptUnless]
  rcases hresult : Session.executeDeletion d i.session with ⟨failure | entry, session⟩
  · have hrun : inSession (Session.executeDeletion d) i = (.error failure, { i with session }) := by
      rw [inSession, Act.run_within, hresult]
    rw [hrun] at hexecute ⊢
    simp only
    split
    · next hinterrupted =>
      refine .inl ⟨[], hexecute, by simp, fun f hf => ?_⟩
      cases hf
      rintro ⟨hexpected, -⟩
      rw [isExpected_of_isInterruption hinterrupted] at hexpected
      cases hexpected
    · rw [Act.after_ok]
      simp only
      rw [Act.run_bind, Act.run_settle]
      cases hwords : failure.words with
      | error cause =>
        refine .inl ⟨[], hexecute, by simp, fun f hf => ?_⟩
        cases hf
        rintro ⟨-, hsaid⟩
        cases hsaid.symm.trans hwords
      | ok text =>
        rw [Act.after_ok]
        cases hexpected : failure.isExpected with
        | true =>
          have hsame := discloses_nil_iff.1 hexecute
          refine .inr ⟨failure, rfl, ⟨hexpected, Failure.hasWords_of_ok hwords⟩, ?_, hsame.2⟩
          exact (errors_append _ _).trans (congrArg (· ++ _) hsame.1)
        | false =>
          obtain ⟨failures, hfailure, htold⟩ := @discloses_telling .error
            (([("verb", .text d.kind.operationName)] : Table Text Json) ++ failureFields failure)
            failure rfl rfl { i with session }
          refine .inl ⟨failures, hexecute.trans htold, fun f hf => by rw [hfailure f hf], fun f hf => ?_⟩
          cases hf
          rintro ⟨htrue, -⟩
          cases hexpected.symm.trans htrue
  · have hrun : inSession (Session.executeDeletion d) i = (.ok entry, { i with session }) := by
      rw [inSession, Act.run_within, hresult]
    have hkind : entry.kind ≠ .error :=
      (Session.bare_executeDeletion d i.session entry (by rw [hresult])).kind
    rw [hrun] at hexecute ⊢
    exact .inl ⟨[], trans_of (Discloses []) hexecute (tacit_answer hkind _), by simp, by simp⟩

/-! ## Commands -/

/-- Once a command has been carried out, an effect of it that fails is told and reported. -/
theorem discloses_wrapUp (l : Line) (entry : Option Entry) (started : Binary64) (i : Interpreter) :
    ∃ failures, Discloses failures (conclude entry i).2 ((wrapUp l entry started).run deaf i).2 ∧
      ∀ f ∈ failures, (handOver.run deaf (i.concluded l entry started)).1 = .error f := by
  have hlog := tacit_logCommand l entry started (conclude entry i).2
  have hwrap : (wrapUp l entry started).run deaf i = _ := run_concluded _ _ _ _ _ _
  have hconcluded : i.concluded l entry started = (logCommand l entry started (conclude entry i).2).2 := by
    rw [concluded, Act.run_bind, conclude_run, Act.after_ok]
  rw [hwrap, hconcluded]
  rcases hlogged : logCommand l entry started (conclude entry i).2 with ⟨failure | _, j⟩ <;>
    rw [hlogged] at hlog
  · exact ⟨[], hlog, by simp⟩
  · have hhand := keeps_run_deaf tacit_handOver j
    rw [Act.after_ok, Course.run_bind, Course.run_attemptUnlessInterrupted, Failure.attempt,
      Act.attemptUnless]
    rcases hended : handOver.run deaf j with ⟨failure | _, j'⟩ <;> rw [hended] at hhand
    · simp only
      split
      · exact ⟨[], trans_of (Discloses []) hlog hhand, by simp⟩
      · obtain ⟨failures, hfailure, hreport⟩ := discloses_report l failure j'
        exact ⟨failures, (trans_of (Discloses []) hlog hhand).trans hreport,
          fun f hf => by rw [hfailure f hf]⟩
    · exact ⟨[], trans_of (Discloses []) hlog hhand, by simp⟩

/-- **A command that fails is told and reported, and so is an effect of it that fails.** What a command
that empties the log tells comes after that. -/
theorem discloses_dispatch (l : Line) (i : Interpreter) :
    ∃ failures,
      (Verb.ofToken? l.verb ≠ some .clear → Discloses failures i ((dispatch l).run deaf i).2) ∧
      (Verb.ofToken? l.verb = some .clear →
        Discloses failures { i with log := .empty } ((dispatch l).run deaf i).2) ∧
      ∀ f ∈ failures,
        i.ending l = .error f ∨ i.aftermath l = .error f := by
  have hexecute := keeps_run_deaf (tacit_execute l) i
  have hdispatch : (dispatch l).run deaf i = _ := run_timed _ _ _ _
  rw [hdispatch, Failure.attempt, Act.attemptUnless]
  by_cases hclear : Verb.ofToken? l.verb = some .clear
  · obtain ⟨failures, hwrap, hfails⟩ := discloses_wrapUp l none i.session.elapsed i
    rw [execute_of_clear hclear]
    exact ⟨failures, fun h => absurd hclear h, fun _ => hwrap,
      fun f hf => .inr (by rw [aftermath, execute_of_clear hclear]; exact hfails f hf)⟩
  · rcases hresult : (execute l).run deaf i with ⟨failure | entry, j⟩ <;> rw [hresult] at hexecute
    · simp only
      split
      · exact ⟨[], fun _ => hexecute, fun h => absurd h hclear, by simp⟩
      · obtain ⟨failures, hfailure, hgive⟩ := discloses_giveUp l failure j
        exact ⟨failures, fun _ => hexecute.trans hgive, fun h => absurd h hclear,
          fun f hf => .inl (by rw [ending, hresult, hfailure f hf])⟩
    · obtain ⟨failures, hwrap, hfails⟩ := discloses_wrapUp l entry i.session.elapsed j
      cases entry with
      | none => exact absurd (clear_of_execute hresult) hclear
      | some entry =>
        have hanswer : Discloses [] i (conclude (some entry) j).2 :=
          trans_of (Discloses []) hexecute (tacit_answer (kind_of_execute hresult) j)
        exact ⟨failures, fun _ => hanswer.trans hwrap, fun h => absurd h hclear,
          fun f hf => .inr (by rw [aftermath, hresult]; exact hfails f hf)⟩

/-! ## Lines -/

/-- A line confirms the deletion that waits, and when this was logged the deletion fails. -/
def DeletionFails (line : Text) (i : Interpreter) (failure : Failure) : Prop :=
  ∃ d label, i.session.gate = some ⟨some d⟩ ∧ Decision.ofLine line = .confirm ∧
    i.logging d = .ok label ∧
    (Session.executeDeletion d (i.decided line d).session).1 = .error failure

theorem deletionFails_iff {line : Text} {d : Deletion} {label : Json} {failure : Failure}
    (hgate : i.session.gate = some ⟨some d⟩) (hconfirm : Decision.ofLine line = .confirm)
    (hlogging : i.logging d = .ok label) :
    i.DeletionFails line failure ↔
      (Session.executeDeletion d (i.decided line d).session).1 = .error failure := by
  refine ⟨fun ⟨d', label', hgate', _, _, hfails⟩ => ?_, fun h => ⟨d, label, hgate, hconfirm, hlogging, h⟩⟩
  cases hgate.symm.trans hgate'
  exact hfails

/-- A line confirms a deletion, and this fails as it may be expected to. -/
def FailsSilently (line : Text) (i : Interpreter) : Prop :=
  ∃ failure, i.DeletionFails line failure ∧ failure.IsSilent

/-- Something fails that is done for a line: its command, an effect of that, or the deletion that it
confirms. -/
inductive Raises (line : Text) (i : Interpreter) (failure : Failure) : Prop
  | command {l : Line} (idle : i.session.isAwaiting = false) (parsed : Line.parse line = some l)
      (fails : (i.noted line).ending l = .error failure)
  | effect {l : Line} (idle : i.session.isAwaiting = false) (parsed : Line.parse line = some l)
      (fails : (i.noted line).aftermath l = .error failure)
  | deletion (fails : i.DeletionFails line failure)

/-- A line leaves the deletion where it is that waits. -/
def Rejects (line : Text) (i : Interpreter) : Prop :=
  i.session.isAwaiting = true ∧ Decision.ofLine line = .reject

/-- What a line comes to with respect to failures. -/
inductive Outcome (line : Text) (i i' : Interpreter) : Prop
  /-- All that is told is reported. -/
  | disclosed (failures : List Failure)
      (kept : ¬ i.Clears line → Discloses failures i i')
      (lost : i.Clears line → Discloses failures { i with log := .empty } i')
      (raised : ∀ f ∈ failures, i.Raises line f) (loud : ¬ i.FailsSilently line)
  /-- The user is reminded of the deletion that waits. -/
  | reminded (rejects : i.Rejects line)
      (entries : errors i'.log.entries = errors i.log.entries ++ [.error reminder])
      (reports : i'.session.reports = i.session.reports)
  /-- A deletion fails as it may be expected to, and this is told but not reported. -/
  | silenced (failure : Failure) (fails : i.DeletionFails line failure)
      (silent : failure.IsSilent) (silences : Silences failure i i')

/-- A line that answers the gate empties no log. -/
theorem not_clears_of_isAwaiting (h : i.session.isAwaiting = true) (line : Text) : ¬ i.Clears line :=
  fun hclears => by
    have hidle := hclears.1
    rw [h] at hidle
    cases hidle

/-- What a line decides about the deletion that waits. -/
theorem outcome_follow {d : Deletion} (line : Text) (hgate : i.session.gate = some ⟨some d⟩)
    {label : Json} (hlogging : i.logging d = .ok label) (hdecided : Discloses [] i (i.decided line d)) :
    i.Outcome line (follow line.strip d (Decision.ofLine line) (i.decided line d)).2 := by
  have hawaits := Session.isAwaiting_of_gate hgate
  have hkeeps := not_clears_of_isAwaiting hawaits line
  have hsame := discloses_nil_iff.1 hdecided
  cases hdecision : Decision.ofLine line with
  | reject =>
    refine .reminded ⟨hawaits, hdecision⟩ ?_ hsame.2
    exact (errors_append _ _).trans (congrArg (· ++ _) hsame.1)
  | cancel =>
    have hanswer : Discloses [] i (follow line.strip d .cancel (i.decided line d)).2 :=
      trans_of (Discloses []) hdecided
        (((tacit_remember line.strip).bind fun _ => tacit_answer (by decide)) _)
    refine .disclosed [] (fun _ => hanswer) (fun h => absurd h hkeeps) (by simp) ?_
    rintro ⟨failure, ⟨-, -, -, hconfirm, -⟩, -⟩
    cases hdecision.symm.trans hconfirm
  | confirm =>
    have hremember := tacit_remember line.strip (i.decided line d)
    have hfails : ∀ f, i.DeletionFails line f ↔
        (Session.executeDeletion d (i.decided line d).session).1 = .error f :=
      fun f => deletionFails_iff hgate hdecision hlogging
    rw [follow_confirm]
    rcases carryOutDeletion_cases d (remember line.strip (i.decided line d)).2 with
      ⟨failures, htold, hfailures, hloud⟩ | ⟨failure, hfailure, hsilent, hentries, hreports⟩
    · refine .disclosed failures (fun _ => (trans_of (Discloses []) hdecided hremember).trans htold)
        (fun h => absurd h hkeeps) (fun f hf => .deletion ((hfails f).2 (hfailures f hf))) ?_
      rintro ⟨failure, hfailure, hsilent⟩
      exact hloud failure ((hfails failure).1 hfailure) hsilent
    · refine .silenced failure ((hfails failure).2 hfailure) hsilent ⟨?_, hreports.trans hsame.2⟩
      exact hentries.trans (congrArg (· ++ _) hsame.1)

/-- A decision is no failure. -/
theorem tacit_logDecision (d : Deletion) (decision : Decision) :
    (logDecision d decision).Keeps (Discloses []) :=
  (Act.Keeps.look _).bind fun _ => (Act.Keeps.settle _).bind fun _ => (Act.Keeps.look _).bind fun _ =>
    (Act.Keeps.settle _).bind fun _ => tacit_emit (by decide) _ _

/-- While a deletion waits, a line answers the gate. -/
theorem outcome_held {d : Deletion} (hgate : i.session.gate = some ⟨some d⟩) {line : Text}
    (hline : line.strip ≠ []) : i.Outcome line ((course line).run deaf i).2 := by
  have hannounce := discloses_nil_iff.1 (tacit_announce line.strip i)
  have hanswered : Discloses [] i ((announce line.strip i).2.withGate (gateAfter line d)) :=
    discloses_nil_iff.2 ⟨hannounce.1, hannounce.2⟩
  cases hlogging : i.logging d with
  | error failure =>
    rw [run_unlogged deaf hgate hline hlogging]
    refine .disclosed [] (fun _ => hanswered) (fun h => ?_) (by simp) ?_
    · exact absurd h (not_clears_of_isAwaiting (Session.isAwaiting_of_gate hgate) line)
    · -- what cannot be logged is not carried out
      rintro ⟨failure', ⟨d', label, hgate', -, hlogging', -⟩, -⟩
      cases hgate.symm.trans hgate'
      cases hlogging.symm.trans hlogging'
  | ok label =>
    have houtcome := outcome_follow line hgate hlogging
      (trans_of (Discloses []) hanswered (tacit_logDecision d (Decision.ofLine line) _))
    rw [(run_logged deaf hgate hline hlogging).2]
    rcases hfollow : follow line.strip d (Decision.ofLine line) (i.decided line d) with ⟨_ | _, i'⟩ <;>
      rw [hfollow] at houtcome <;> exact houtcome

/-- While no deletion waits, the command of a line is carried out. -/
theorem outcome_idle (hidle : i.session.isAwaiting = false) {line : Text} {l : Line}
    (hl : Line.parse line = some l) : i.Outcome line ((course line).run deaf i).2 := by
  have hnoted : Discloses [] i (i.noted line) :=
    trans_of (Discloses []) (tacit_announce line.strip i) (tacit_remember line.strip _)
  obtain ⟨failures, hkept, hlost, hraised⟩ := discloses_dispatch l (i.noted line)
  have hclears : i.Clears line ↔ Verb.ofToken? l.verb = some .clear := by
    refine ⟨fun ⟨_, l', hl', hclear⟩ => ?_, fun hclear => ⟨hidle, l, hl, hclear⟩⟩
    cases hl.symm.trans hl'
    exact hclear
  have hrun : ((course line).run deaf i).2 = ((dispatch l).run deaf (i.noted line)).2 := by
    rw [(leads_idle hidle (Line.strip_ne_nil_of_parse hl) hl).run_eq, Course.run_bind]
    rcases (dispatch l).run deaf (i.noted line) with ⟨_ | _, j⟩ <;> rfl
  rw [hrun]
  refine .disclosed failures (fun h => hnoted.trans (hkept (mt hclears.2 h))) (fun h => ?_)
    (fun f hf => (hraised f hf).elim (.command hidle hl) (.effect hidle hl)) ?_
  · obtain ⟨hentries, hevents⟩ := hlost (hclears.1 h)
    exact ⟨hentries, hevents⟩
  · rintro ⟨failure, ⟨d, s, hgate, -⟩, -⟩
    rw [Session.isAwaiting_of_gate hgate] at hidle
    cases hidle

/-- **What a line comes to with respect to failures**, where no line comes in while it is answered. -/
theorem outcome_course (line : Text) (i : Interpreter) : i.Outcome line ((course line).run deaf i).2 := by
  by_cases hline : line.strip = []
  · rw [course_of_blank hline]
    refine .disclosed [] (fun _ => Std.Refl.refl i) (fun h => ?_) (by simp) ?_
    · obtain ⟨-, l, hl, -⟩ := h
      exact absurd hline (Line.strip_ne_nil_of_parse hl)
    · rintro ⟨failure, ⟨d, s, -, hconfirm, -⟩, -⟩
      rw [← Decision.ofLine_strip, hline] at hconfirm
      exact absurd hconfirm (by decide)
  · cases hawaits : i.session.isAwaiting with
    | false =>
      obtain ⟨l, hl⟩ := Line.exists_of_parse hline
      exact outcome_idle hawaits hl
    | true =>
      obtain ⟨d, hgate⟩ := Session.exists_of_isAwaiting hawaits
      exact outcome_held hgate hline

/-- Where no line comes in while a line is answered, nothing that is done depends on how it would be
taken. -/
theorem submit_eq_deaf {line : Text} (h : (course line).calls (answerAt i.pending) i = []) :
    submit line i = (course line).run deaf i := by
  rw [submit_eq]
  refine Course.run_congr fun call hcall => ?_
  rw [h] at hcall
  cases hcall

/-- Such a line empties the log just if its own command does. -/
theorem empties_iff_clears {line : Text} (h : (course line).calls (answerAt i.pending) i = []) :
    i.Empties line ↔ i.Clears line := by
  have hturns : HostStep.turnsOf line i = [⟨i.pending, line, i⟩] := by
    show Turn.turnsAt i.pending line i = _
    cases hpending : i.pending with
    | zero => rfl
    | succ depth =>
      rw [hpending] at h
      rw [Turn.turnsAt, h]
      rfl
  simp [Empties, hturns]

/-! ## What is logged -/

/-- The failures that a line tells are those that it reports, in one order. Each is one that is raised by
what is done for the line. -/
structure Logs (line : Text) (i : Interpreter) (failures : List Failure) : Prop where
  /-- The entries that come in for failures tell these, one by one. Where the line rejects, there is the
  reminder and no other. -/
  told : errors (added line i) = failures.map (.error ·.told) ∨
    failures = [] ∧ i.Rejects line ∧ errors (added line i) = [.error reminder]
  /-- The reports that are emitted are of these, one by one. -/
  reported : ∃ events, (submit line i).2.session.reports = i.session.reports ++ events ∧
    List.Forall₂ Event.IsReportOf events failures
  raised : ∀ f ∈ failures, i.Raises line f

/-- All failures that a line tells are reported. -/
def Logged (line : Text) (i : Interpreter) : Prop := ∃ failures, i.Logs line failures

/-- How failures are logged. -/
structure Reporting (line : Text) (i : Interpreter) : Prop where
  /-- All that are told are reported, but where a deletion fails that was confirmed, as it may be expected
  to, and in words. -/
  logged_iff : i.Logged line ↔ ¬ i.FailsSilently line
  /-- Such a failure is told, and nothing is reported. -/
  silent : ∀ failure, i.DeletionFails line failure → failure.IsSilent →
    errors (added line i) = [.error failure.message] ∧
      (submit line i).2.session.reports = i.session.reports

section
variable {line : Text}

/-- The entries for failures that come in stand behind those that are left. -/
theorem errors_submit (h : (course line).calls (answerAt i.pending) i = []) :
    (¬ i.Clears line → errors (submit line i).2.log.entries =
        errors i.log.entries ++ errors (added line i)) ∧
      (i.Clears line → errors (submit line i).2.log.entries = errors (added line i)) := by
  have htells := (tells_submit line i).congr (empties_iff_clears h)
  refine ⟨fun hkept => ?_, fun hlost => ?_⟩
  · rw [htells.kept hkept, errors_append]
  · rw [htells.lost hlost]

/-- **How the failures of a line are logged** that is answered without another line coming in: in every
state, for every store, and however parts outside fail. -/
theorem reporting_of_calls (h : (course line).calls (answerAt i.pending) i = []) :
    i.Reporting line := by
  obtain ⟨hkeeps, hempties⟩ := errors_submit h
  have houtcome := outcome_course line i
  rw [← submit_eq_deaf h] at houtcome
  cases houtcome with
  | disclosed failures kept lost raised loud =>
    refine ⟨⟨fun _ => loud, fun _ => ⟨failures, .inl ?_, ?_, raised⟩⟩, fun failure hfails hexpected => ?_⟩
    · by_cases hclears : i.Clears line
      · exact (hempties hclears).symm.trans (lost hclears).entries
      · exact List.append_cancel_left ((hkeeps hclears).symm.trans (kept hclears).entries)
    · by_cases hclears : i.Clears line
      · exact (lost hclears).events
      · exact (kept hclears).events
    · exact absurd ⟨failure, hfails, hexpected⟩ loud
  | reminded rejects entries reports =>
    have hkept := hkeeps (not_clears_of_isAwaiting rejects.1 line)
    have hnever : ∀ failure, ¬ i.DeletionFails line failure := by
      rintro failure ⟨-, -, -, hconfirm, -⟩
      cases rejects.2.symm.trans hconfirm
    refine ⟨⟨fun _ hsilent => ?_, fun _ => ⟨[], .inr ⟨rfl, rejects, ?_⟩, ⟨[], ?_, .nil⟩, by simp⟩⟩,
      fun failure hfails => absurd hfails (hnever failure)⟩
    · obtain ⟨failure, hfails, -⟩ := hsilent
      exact hnever failure hfails
    · exact List.append_cancel_left (hkept.symm.trans entries)
    · rw [reports, List.append_nil]
  | silenced failure fails hsilent silences =>
    obtain ⟨d, label, hgate, hconfirm, hlogging, hfails⟩ := fails
    have hawaits := Session.isAwaiting_of_gate hgate
    have htold : errors (added line i) = [.error failure.told] := by
      have hkept := hkeeps (not_clears_of_isAwaiting hawaits line)
      exact List.append_cancel_left (hkept.symm.trans silences.1)
    refine ⟨⟨?_, fun hloud => ?_⟩, ?_⟩
    · rintro ⟨failures, htells, ⟨events, hevents, hreports⟩, -⟩
      -- nothing is reported, so nothing could be told
      have hnone : events = [] := by simpa [silences.2] using hevents
      rw [hnone] at hreports
      cases hreports
      rcases htells with hnothing | ⟨-, hrejects, -⟩
      · cases htold.symm.trans hnothing
      · cases hconfirm.symm.trans hrejects.2
    · exact absurd ⟨failure, ⟨d, label, hgate, hconfirm, hlogging, hfails⟩, hsilent⟩ hloud
    · intro failure' hfails' _
      have hsame := hfails.symm.trans ((deletionFails_iff hgate hconfirm hlogging).1 hfails')
      cases hsame
      refine ⟨?_, silences.2⟩
      rw [htold, Failure.told, if_pos hsilent.1]

end

end Interpreter

namespace HostStep

open Interpreter (start errors added)

/-- **How failures are logged along a run of lines**, where parts outside submit no lines themselves: of
every line all failures that it tells are reported, one by one, but where it confirms a deletion that fails
as it may be expected to. -/
theorem reporting_sequence {session : Session} (h : session.IsMute) (before : List Text) (line : Text) :
    (sequence (before.map .submit) (start session)).Reporting line := by
  have hstart : (start session).session.IsMute := ⟨h.navigator, h.exit, h.clipboard, h.scheduler⟩
  exact Interpreter.reporting_of_calls (Interpreter.calls_eq_nil (isMute_sequence before hstart) line _)

/-- A session with one vault, which its store does not delete, and a navigator that fails. -/
def sampleRefusingStore : Session :=
  { Session.bare
      ⟨World.fresh 0 [],
        { Store.inMemory ⟨[⟨"v", "Home", "", Store.sampleMoment, Store.sampleMoment⟩], []⟩ with
          faults := [(.deleteVault, .answers (.bool false))] }⟩ with
    navigator := some (.outside ⟨[], some (.foreign .runtime "busy")⟩) }

theorem isMute_sampleRefusingStore : sampleRefusingStore.IsMute where
  navigator := by rintro b ⟨⟩ r ⟨⟩
  exit := by rintro b ⟨⟩
  clipboard := by rintro b ⟨⟩
  scheduler := by rintro r ⟨⟩

/-- An interpreter over such a session, which has asked whether to delete its vault. -/
def sampleAsked : Interpreter :=
  sequence (["open vaults", "vault delete --name Home"].map .submit) (start sampleRefusingStore)

theorem reporting_sampleAsked :
    sampleRefusingStore.IsMute ∧ sampleAsked.Reporting "yes" ∧
      errors sampleAsked.log.entries = [.error "Unexpected error: busy"] ∧
      sampleAsked.session.reports.map (·.name) = ["command_error"] :=
  ⟨isMute_sampleRefusingStore, reporting_sequence isMute_sampleRefusingStore _ "yes",
    by decide +kernel, by decide +kernel⟩

/-- The vault is not deleted, and the user is told so, but nothing of it is reported. -/
theorem exists_told_unreported :
    sampleRefusingStore.IsMute ∧
      errors (added "yes" sampleAsked) = [.error "Vault \"Home\" could not be deleted."] ∧
      (Interpreter.submit "yes" sampleAsked).2.session.reports.length =
        sampleAsked.session.reports.length ∧
      ¬ sampleAsked.Logged "yes" := by
  have htold : errors (added "yes" sampleAsked) = [.error "Vault \"Home\" could not be deleted."] := by
    decide +kernel
  have hreports : (Interpreter.submit "yes" sampleAsked).2.session.reports.length =
      sampleAsked.session.reports.length := by decide +kernel
  refine ⟨isMute_sampleRefusingStore, htold, hreports, ?_⟩
  rintro ⟨failures, htells, ⟨events, hevents, hall⟩, -⟩
  have hnone : events = [] := by
    rw [hevents, List.length_append] at hreports
    exact List.length_eq_zero_iff.1 (by omega)
  rw [hnone] at hall
  cases hall
  rcases htells with hnothing | ⟨-, hrejects, -⟩
  · cases htold.symm.trans hnothing
  · exact absurd hrejects.2 (by decide)

end HostStep

end VaultConsole
