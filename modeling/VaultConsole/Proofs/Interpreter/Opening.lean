import VaultConsole.Interpreter
import VaultConsole.Proofs.Course
import VaultConsole.Proofs.Session.Removal
import VaultConsole.Proofs.Session.Request
import VaultConsole.Proofs.Text.Blank

/-!
# How a line is answered

What is done for a line has an opening, in which the line answers the gate or its command is carried
out, and a rest, in which parts outside may submit further lines. All that a line does to the gate
and to the records it does in its opening; in the rest the session stands still but for such lines.

* `Interpreter.holds_submitNested`: what a line leaves true, with all lines inside it.
* `Interpreter.Along`: a relation of sessions, between interpreters.
* `Interpreter.answerGate_held`: what a line does while a deletion waits.
* `Interpreter.opens_course`: what a line does while none does.
-/

namespace VaultConsole

namespace Interpreter

/-- What is done with a line that is submitted where there is room for so many levels of turns. -/
def answerAt : (depth : Nat) → Text → Act Failure Interpreter Unit
  | 0, _ => pure ()
  | depth + 1, line => discard (submitNested depth line)

theorem submitNested_eq (depth : Nat) (line : Text) :
    submitNested depth line = (course line).run (answerAt depth) := by cases depth <;> rfl

/-- A line keeps to a relation, with all lines inside it, if what is done for lines does. -/
theorem keeps_submitNested {Q : Interpreter → Interpreter → Prop} [Std.Refl Q] [IsTrans Interpreter Q]
    (hcourse : ∀ line, (course line).Keeps Q) (depth : Nat) (line : Text) :
    (submitNested depth line).Keeps Q := by
  induction depth generalizing line with
  | zero =>
    rw [submitNested_eq]
    exact (hcourse line).run fun _ => .pure ()
  | succ depth ih =>
    rw [submitNested_eq]
    refine (hcourse line).run fun line i => ?_
    rw [answerAt, Act.snd_discard]
    exact ih line i

section
variable {I : Interpreter → Prop} (hcourse : ∀ line i, I i → (course line).Meets I (fun _ => I) (fun _ => I) i)
include hcourse

/-- What the courses of lines keep up is so where a line ends, with all lines inside it. -/
theorem holds_submitNested (depth : Nat) (line : Text) {i : Interpreter} (h : I i) :
    I (submitNested depth line i).2 := by
  induction depth generalizing line i with
  | zero =>
    rw [submitNested_eq]
    exact (hcourse line i h).run fun _ _ h => h
  | succ depth ih =>
    rw [submitNested_eq]
    refine (hcourse line i h).run fun line i h => ?_
    rw [answerAt, Act.snd_discard]
    exact ih line h

theorem holds_answerAt (depth : Nat) (line : Text) {i : Interpreter} (h : I i) :
    I (answerAt depth line i).2 := by
  cases depth with
  | zero => exact h
  | succ depth =>
    rw [answerAt, Act.snd_discard]
    exact holds_submitNested hcourse depth line h

end

/-- A relation of sessions, between interpreters. -/
def Along (R : Session → Session → Prop) (i i' : Interpreter) : Prop := R i.session i'.session

variable {R : Session → Session → Prop}

instance [Std.Refl R] : Std.Refl (Along R) := ⟨fun i => Std.Refl.refl i.session⟩

instance [IsTrans Session R] : IsTrans Interpreter (Along R) where
  trans _ _ _ h h' := trans_of R h h'

theorem keeps_inSession {α : Type} {act : Act Failure Session α} (h : act.Keeps R) :
    (inSession act).Keeps (Along R) := h.within fun _ _ hs => hs

@[simp] theorem keeps_emit [Session.Follows R] (severity : Severity) (name : Text)
    (fields : Table Text Json) : (emit severity name fields).Keeps (Along R) :=
  keeps_inSession (Session.keeps_emit severity name fields)

section
variable [Std.Refl R]

theorem along_of_same {i i' : Interpreter} (h : i'.session = i.session) : Along R i i' := by
  rw [Along, h]
  exact Std.Refl.refl i.session

@[simp] theorem keeps_answer (entry : Entry) : (answer entry).Keeps (Along R) :=
  fun _ => along_of_same rfl

@[simp] theorem keeps_remember (line : Text) : (remember line).Keeps (Along R) :=
  fun _ => along_of_same rfl

@[simp] theorem keeps_conclude (entry : Option Entry) : (conclude entry).Keeps (Along R) := by
  cases entry <;> exact fun _ => along_of_same rfl

@[simp] theorem keeps_announce (line : Text) : (announce line).Keeps (Along R) :=
  fun _ => along_of_same rfl

@[simp] theorem keeps_entriesSince (start : Nat) : (entriesSince start).Keeps (Along R) :=
  fun _ => along_of_same rfl

end

/-! ## While a deletion waits -/

/-- Carrying out a confirmed deletion takes away what it hits, or nothing. -/
theorem takes_carryOutDeletion (d : Deletion) :
    (carryOutDeletion d).Keeps (Along (Session.Takes d)) := by
  have hexecute := keeps_inSession (Session.takes_executeDeletion d)
  refine (hexecute.attemptUnless _).bind fun result => ?_
  cases result with
  | ok entry => exact keeps_answer entry
  | error failure =>
    exact (Act.Keeps.settle _).bind fun _ =>
      .ite ((keeps_emit _ _ _).bind fun _ => keeps_answer _) (keeps_answer _)

/-- Whatever a line decides, at most those records are taken away that the deletion hits. -/
theorem takes_follow (decision : Decision) (line : Text) (d : Deletion) :
    (follow line d decision).Keeps (Along (Session.Takes d)) := by
  cases decision with
  | confirm => exact (keeps_remember line).bind fun _ => takes_carryOutDeletion d
  | cancel => exact (keeps_remember line).bind fun _ => keeps_answer _
  | reject => exact keeps_answer _

/-- A line that does not confirm leaves the session as it is. -/
theorem keeps_follow [Std.Refl R] [IsTrans Session R] {decision : Decision}
    (h : decision ≠ .confirm) (line : Text) (d : Deletion) :
    (follow line d decision).Keeps (Along R) := by
  cases decision with
  | confirm => exact absurd rfl h
  | cancel => exact (keeps_remember line).bind fun _ => keeps_answer _
  | reject => exact keeps_answer _

end Interpreter

/-- What waits is a deletion. -/
theorem Session.exists_of_isAwaiting {s : Session} (h : s.isAwaiting = true) :
    ∃ d, s.gate = some ⟨some d⟩ := by
  rw [isAwaiting, Option.any_eq_true] at h
  obtain ⟨gate, hgate, hawaits⟩ := h
  obtain ⟨d, hd⟩ := Option.isSome_iff_exists.1 hawaits
  exact ⟨d, hgate.trans (congrArg (fun pending => some (Gate.mk pending)) hd)⟩

theorem Session.isAwaiting_of_gate {s : Session} {d : Deletion} (h : s.gate = some ⟨some d⟩) :
    s.isAwaiting = true := by
  rw [isAwaiting, h]
  rfl

theorem Session.isAwaiting_of_idle {s : Session} (h : s.gate = some .idle) : s.isAwaiting = false := by
  rw [isAwaiting, h]
  rfl

theorem Decision.ofLine_strip (line : Text) : Decision.ofLine line.strip = Decision.ofLine line := by
  unfold Decision.ofLine
  rw [Text.strip_strip]

/-- What a line decides about a deletion that is held. -/
theorem Gate.resolve_held (line : Text) (d : Deletion) :
    Gate.resolve line ⟨some d⟩ =
      .ok ((Decision.ofLine line, d), if Decision.ofLine line = .reject then ⟨some d⟩ else idle) := by
  unfold resolve
  cases Decision.ofLine line <;> simp

namespace Interpreter

/-- An interpreter with another gate. -/
def withGate (gate : Gate) (i : Interpreter) : Interpreter :=
  { i with session := { i.session with gate := some gate } }

/-- The gate after a line was answered while a deletion waited. -/
def gateAfter (line : Text) (d : Deletion) : Gate :=
  if Decision.ofLine line = .reject then ⟨some d⟩ else .idle

theorem gateAfter_strip (line : Text) (d : Deletion) : gateAfter line.strip d = gateAfter line d := by
  rw [gateAfter, gateAfter, Decision.ofLine_strip]

/-- An interpreter in another world. -/
def withWorld (world : World) (i : Interpreter) : Interpreter :=
  { i with session := { i.session with depot := { i.session.depot with world } } }

/-- The clock shows a time. -/
def ShowsTime (i : Interpreter) : Prop := i.session.depot.world.ShowsTime

/-- An event changes the world alone. -/
theorem emit_of_showsTime {i : Interpreter} (h : i.ShowsTime) (severity : Severity) (name : Text)
    (fields : Table Text Json) :
    ∃ event, emit severity name fields i =
      (.ok (), i.withWorld (i.session.depot.world.record event)) := by
  obtain ⟨moment, hmoment⟩ := h
  refine ⟨{ severity, name, moment, fields }, ?_⟩
  rw [emit, inSession, Act.run_within, Session.emit, Session.inDepot, Act.run_within,
    Depot.emit_eq hmoment]
  rfl

theorem ShowsTime.record {i : Interpreter} (h : i.ShowsTime) (event : Event) :
    (i.withWorld (i.session.depot.world.record event)).ShowsTime :=
  h.of_clock (World.clock_writeRunLog _ _)

/-- No event is emitted where the clock shows no time. -/
theorem emit_of_noTime {i : Interpreter} {failure : Failure}
    (h : i.session.depot.world.localNow = .error failure) (severity : Severity) (name : Text)
    (fields : Table Text Json) : emit severity name fields i = (.error failure, i) := by
  rw [emit, inSession, Act.run_within, Session.emit, Session.inDepot, Act.run_within,
    Depot.emit_of_noTime h]

/-- An event can say something of what a deletion is for. -/
def Labels (i : Interpreter) (d : Deletion) : Prop :=
  ∃ label, i.session.depot.store.labelOf d.targetId = .ok label

/-- Where all identifiers are what they seem, an event can say something of each. -/
theorem labels_of_plain {i : Interpreter} (h : i.session.depot.store.IsPlain) (d : Deletion) :
    i.Labels d := ⟨_, Store.labelOf_of_none (by rw [h.2]; rfl) d.targetId⟩

section
variable {i : Interpreter} {d : Deletion}

@[simp] theorem keeps_logDecision [Std.Refl R] [IsTrans Session R] [Session.Follows R] (d : Deletion)
    (decision : Decision) : (logDecision d decision).Keeps (Along R) :=
  (Act.Keeps.look _).bind fun _ => (Act.Keeps.settle _).bind fun _ =>
    (Act.Keeps.look _).bind fun _ => (Act.Keeps.settle _).bind fun _ => keeps_emit _ _ _

/-- A decision is logged where the clock shows a time and something can be said of the target. -/
theorem logDecision_run (htime : i.ShowsTime) (hlabels : i.Labels d) (decision : Decision) :
    ∃ event, logDecision d decision i =
      (.ok (), i.withWorld (i.session.depot.world.record event)) := by
  have hmoment := htime
  obtain ⟨moment, hmoment⟩ := hmoment
  obtain ⟨label, hlabel⟩ := hlabels
  unfold logDecision
  simp only [Act.run_bind, Act.run_look, Act.run_settle, Act.after_ok, hmoment, hlabel]
  exact emit_of_showsTime htime _ _ _

/-- What is needed to log a decision about a deletion: the time, and what an event says of the target. -/
def logging (d : Deletion) (i : Interpreter) : Except Failure Json := do
  let _ ← i.session.depot.world.localNow
  i.session.depot.store.labelOf d.targetId

theorem logging_eq_ok_iff : (∃ label, i.logging d = .ok label) ↔ i.ShowsTime ∧ i.Labels d := by
  unfold logging ShowsTime World.ShowsTime Labels
  cases i.session.depot.world.localNow with
  | error failure =>
    refine ⟨?_, ?_⟩
    · rintro ⟨_, ⟨⟩⟩
    · rintro ⟨⟨_, ⟨⟩⟩, _⟩
  | ok moment => exact ⟨fun h => ⟨⟨moment, rfl⟩, h⟩, fun h => h.2⟩

/-- Where that is lacking a decision is not logged, and nothing changes. -/
theorem logDecision_of_error {failure : Failure} (h : i.logging d = .error failure)
    (decision : Decision) : logDecision d decision i = (.error failure, i) := by
  unfold logging at h
  unfold logDecision
  cases hmoment : i.session.depot.world.localNow with
  | error failure' =>
    rw [hmoment] at h
    cases h
    simp only [Act.run_bind, Act.run_look, Act.run_settle, Act.after_ok, hmoment]
    rfl
  | ok moment =>
    rw [hmoment] at h
    have hlabel : i.session.depot.store.labelOf d.targetId = .error failure := h
    simp only [Act.run_bind, Act.run_look, Act.run_settle, Act.after_ok, hmoment, hlabel]
    rfl

theorem logDecision_of_not (h : ¬ (i.ShowsTime ∧ i.Labels d)) (decision : Decision) :
    ∃ failure, logDecision d decision i = (.error failure, i) := by
  cases hlogging : i.logging d with
  | ok label => exact absurd (logging_eq_ok_iff.1 ⟨label, hlogging⟩) h
  | error failure => exact ⟨failure, logDecision_of_error hlogging decision⟩

/-- While a deletion waits, first the gate changes, then the answer is logged, and what comes of it
follows. -/
theorem answerGate_eq (h : i.session.gate = some ⟨some d⟩) (line : Text) :
    answerGate line i =
      Act.after (fun _ => follow line d (Decision.ofLine line))
        (logDecision d (Decision.ofLine line) (i.withGate (gateAfter line d))) := by
  unfold answerGate
  rw [Act.run_bind, Act.run_look, Act.after_ok, h, Option.map_some, Gate.resolve_held]
  show (_ >>= _ : Act Failure Interpreter Unit) i = _
  rw [Act.run_bind, Act.run_change, Act.after_ok, Act.run_bind]
  rfl

/-- Where the answer can be logged, it is. -/
theorem answerGate_of_showsTime (h : i.session.gate = some ⟨some d⟩) (htime : i.ShowsTime)
    (hlabels : i.Labels d) (line : Text) :
    ∃ event, answerGate line i =
      follow line d (Decision.ofLine line)
        ((i.withGate (gateAfter line d)).withWorld (i.session.depot.world.record event)) := by
  obtain ⟨event, hlog⟩ := logDecision_run (i := i.withGate (gateAfter line d)) htime hlabels
    (Decision.ofLine line)
  refine ⟨event, ?_⟩
  rw [answerGate_eq h, hlog]
  rfl

end

/-- **What a line does while a deletion waits**: first the gate changes, and all that comes then
leaves it. Records are taken away only by a line that confirms. -/
theorem answerGate_held {i : Interpreter} {d : Deletion} (h : i.session.gate = some ⟨some d⟩)
    (line : Text) :
    Along (Session.Takes d) (i.withGate (gateAfter line d)) (answerGate line i).2 ∧
      (Decision.ofLine line ≠ .confirm →
        Along Session.Still (i.withGate (gateAfter line d)) (answerGate line i).2) := by
  rw [answerGate_eq h, ← Act.run_bind]
  -- the event may fail, and then nothing is carried out: this too takes nothing away
  refine ⟨?_, fun hconfirm => ?_⟩
  · exact (keeps_logDecision d _).bind (fun _ => takes_follow _ line d) _
  · exact (keeps_logDecision d _).bind (fun _ => keeps_follow hconfirm line d) _

/-- Nothing is done for a blank line. -/
theorem course_of_blank {line : Text} (hline : line.strip = []) : course line = pure [] := by
  unfold course
  rw [if_pos (by rw [hline]; rfl)]

/-- A line that is not blank is announced, and that is no more than an entry. -/
theorem leads_announce {line : Text} (hline : line.strip ≠ []) (i : Interpreter) :
    Course.Leads (course line) i
      (do process line.strip; entriesSince i.log.size) (announce line.strip i).2 := by
  unfold course
  rw [if_neg (by simpa using hline)]
  have hrun : announce line.strip i = (.ok i.log.size, (announce line.strip i).2) := rfl
  exact Course.Leads.bind_ofAct hrun _

/-- While a deletion waits, what is typed answers the gate. -/
theorem leads_process_held {i : Interpreter} {d : Deletion} (h : i.session.gate = some ⟨some d⟩)
    (line : Text) :
    Course.Leads (process line) i (.done (answerGate line i).1) (answerGate line i).2 := by
  have hwaits : (inSession (Act.look Session.isAwaiting) : Act Failure Interpreter Bool) i = (.ok true, i) :=
    congrArg (fun b => (Except.ok b, i)) (Session.isAwaiting_of_gate h)
  exact (Course.Leads.bind_ofAct hwaits _).trans (.ofAct _ _)

/-- While a deletion waits, a line does nothing else than answer the gate. -/
theorem leads_held {i : Interpreter} {d : Deletion} (h : i.session.gate = some ⟨some d⟩)
    {line : Text} (hline : line.strip ≠ []) :
    ∃ result, Course.Leads (course line) i (.done result)
      (answerGate line.strip (announce line.strip i).2).2 := by
  have hprocess := leads_process_held (i := (announce line.strip i).2) h line.strip
  have hrest := (leads_announce hline i).trans (hprocess.bind _)
  cases hanswer : (answerGate line.strip (announce line.strip i).2).1 with
  | error failure =>
    rw [hanswer] at hrest
    exact ⟨_, hrest⟩
  | ok _ =>
    rw [hanswer] at hrest
    exact ⟨_, hrest.trans (.ofAct _ _)⟩

/-! ## While no deletion waits -/

/-- An interpreter that has announced a line and remembers it. -/
def noted (line : Text) (i : Interpreter) : Interpreter :=
  (remember line.strip (announce line.strip i).2).2

/-- While no deletion waits, the command of a line that was announced is carried out. -/
theorem leads_idle {i : Interpreter} (h : i.session.isAwaiting = false) {line : Text}
    (hline : line.strip ≠ []) {l : Line} (hl : Line.parse line = some l) :
    Course.Leads (course line) i (do dispatch l; entriesSince i.log.size) (i.noted line) := by
  have hwaits : (inSession (Act.look Session.isAwaiting) : Act Failure Interpreter Bool)
      (announce line.strip i).2 = (.ok false, (announce line.strip i).2) :=
    congrArg (fun b => (Except.ok b, (announce line.strip i).2)) h
  have hremember : remember line.strip (announce line.strip i).2 = (.ok (), i.noted line) := rfl
  have hprocess : Course.Leads (process line.strip) (announce line.strip i).2 (dispatch l)
      (i.noted line) := by
    refine (Course.Leads.bind_ofAct hwaits _).trans ?_
    rw [if_neg Bool.false_ne_true, Line.parse_strip, hl]
    exact Course.Leads.bind_ofAct hremember _
  exact (leads_announce hline i).trans (hprocess.bind _)

section
variable [Session.Follows R]

theorem keeps_carryOut (effect : Effect) : (carryOut effect).Keeps (Along R) :=
  (Course.Keeps.ofAct (keeps_inSession (Session.reacts_touch effect).keeps)).bind fun reaction =>
    .undergo reaction

theorem keeps_schedule (effect : Effect) : (schedule effect).Keeps (Along R) := by
  refine (Course.Keeps.ofAct (keeps_inSession Session.keeps_takeHandling)).bind fun handling => ?_
  refine (Course.Keeps.forM fun move _ => ?_).bind fun _ => .ending handling.failure
  cases move with
  | submit line => exact .call line
  | carryOut => exact keeps_carryOut effect
  | hold => exact .ofAct (keeps_inSession (Session.keeps_enqueue effect))

theorem keeps_entryOf (reply : Reply) : (entryOf reply).Keeps (Along R) := by
  cases reply with
  | entry entry => exact .pure _
  | cleared => exact .pure _
  | secret account echo =>
    refine Course.Keeps.bind ?_ fun account => .pure _
    exact .copySecret (fun _ => keeps_inSession (Session.keeps_hold _))
      (fun text => keeps_inSession (Session.reacts_copy text).keeps)
      (fun _ => keeps_inSession (Session.keeps_release _)) account

/-- The command of a line is carried out first; the rest of its course leaves the session as it is. -/
theorem opens_execute (l : Line) (i : Interpreter) :
    Course.Opens (Along R) (execute l) i (inSession (Session.execute l) i).2 :=
  (Course.Opens.ofAct _ i).bind keeps_entryOf

variable [Std.Refl R] [IsTrans Session R]

theorem keeps_report (l : Line) (failure : Failure) :
    (report l failure).Keeps (Along R) :=
  (Act.Keeps.settle _).bind fun _ => (keeps_emit _ _ _).bind fun _ => keeps_answer _

theorem keeps_logCommand (l : Line) (entry : Option Entry) (started : Binary64) :
    (logCommand l entry started).Keeps (Along R) :=
  (Act.Keeps.look _).bind fun _ => keeps_emit _ _ _

end

section
variable [Session.Coarse R]

theorem keeps_handOver : handOver.Keeps (Along R) :=
  (Course.Keeps.ofAct (keeps_inSession Session.keeps_takeDeferred)).bind fun _ =>
    .forM fun effect _ => keeps_schedule effect

variable [Std.Refl R] [IsTrans Session R]

theorem keeps_giveUp (l : Line) (failure : Failure) :
    (giveUp l failure).Keeps (Along R) :=
  (keeps_inSession Session.keeps_dropDeferred).bind fun _ => keeps_report l failure

theorem opens_dispatch (l : Line) (i : Interpreter) :
    Course.Opens (Along R) (dispatch l) i (inSession (Session.execute l) i).2 := by
  have hstarted : (inSession (Act.look Session.elapsed) : Act Failure Interpreter Binary64) i =
      (.ok i.session.elapsed, i) := rfl
  refine .after hstarted ?_
  refine (opens_execute l i).attemptUnlessInterrupted.bind fun result => ?_
  cases result with
  | error failure => exact .ofAct (keeps_giveUp l failure)
  | ok entry =>
    refine (Course.Keeps.ofAct (keeps_conclude entry)).bind fun _ => ?_
    refine (Course.Keeps.ofAct (keeps_logCommand l entry _)).bind fun _ => ?_
    refine keeps_handOver.attemptUnlessInterrupted.bind fun result => ?_
    cases result with
    | error failure => exact .ofAct (keeps_report l failure)
    | ok _ => exact .pure _

/-- **What a line does while no deletion waits**: its command is carried out, and all that comes then
leaves the session as it is. -/
theorem opens_course {i : Interpreter} (h : i.session.isAwaiting = false) {line : Text}
    (hline : line.strip ≠ []) {l : Line} (hl : Line.parse line = some l) :
    ∃ i', Course.Opens (Along R) (course line) i i' ∧
      i'.session = (Session.execute l i.session).2 := by
  have hclose : ∀ _ : Unit,
      (Course.ofAct (entriesSince i.log.size)).Keeps (Along R) :=
    fun _ => .ofAct (keeps_entriesSince _)
  obtain ⟨rest, hlead, hkeeps⟩ := (opens_dispatch l (i.noted line)).bind hclose
  exact ⟨_, ⟨rest, (leads_idle h hline hl).trans hlead, hkeeps⟩, rfl⟩

end

/-- What is done for a line once its command has succeeded. -/
def wrapUp (l : Line) (entry : Option Entry) (started : Binary64) : Course Interpreter Unit := do
  conclude entry
  logCommand l entry started
  match ← Course.attemptUnlessInterrupted handOver with
  | .ok _ => return
  | .error failure => report l failure

theorem conclude_run (entry : Option Entry) (i : Interpreter) :
    conclude entry i = (.ok (), (conclude entry i).2) := by
  cases entry <;> rfl

/-- The time of a command counts from before it is carried out. -/
theorem run_timed (l : Line) (answer : Text → Act Failure Interpreter Unit) (i : Interpreter)
    (next : Binary64 → Except Failure (Option Entry) → Course Interpreter Unit) :
    (Course.ofAct (inSession (Act.look Session.elapsed)) >>= fun started =>
      (execute l).attemptUnlessInterrupted >>= next started : Course Interpreter Unit).run answer i =
      Act.after (fun result => (next i.session.elapsed result).run answer)
        (Failure.attempt ((execute l).run answer) i) := by
  have hstarted : (inSession (Act.look Session.elapsed) : Act Failure Interpreter Binary64) i =
      (.ok i.session.elapsed, i) := rfl
  rw [Course.run_bind, Course.run_ofAct, hstarted, Act.after_ok, Course.run_bind,
    Course.run_attemptUnlessInterrupted]

/-- Effects are handed over once a command was logged. -/
theorem run_concluded (l : Line) (entry : Option Entry) (started : Binary64)
    (answer : Text → Act Failure Interpreter Unit) (i : Interpreter)
    (next : Except Failure Unit → Course Interpreter Unit) :
    (Course.ofAct (conclude entry) >>= fun _ => Course.ofAct (logCommand l entry started) >>= fun _ =>
      handOver.attemptUnlessInterrupted >>= next : Course Interpreter Unit).run answer i =
      Act.after (fun _ => (handOver.attemptUnlessInterrupted >>= next).run answer)
        (logCommand l entry started (conclude entry i).2) := by
  rw [Course.run_bind, Course.run_ofAct, conclude_run, Act.after_ok, Course.run_bind, Course.run_ofAct]

/-- A command that answers with an entry at once. -/
theorem leads_dispatch_entry {l : Line} {i : Interpreter} {entry : Entry} {s : Session}
    (h : Session.execute l i.session = (.ok (.entry entry), s)) :
    Course.Leads (dispatch l) i (wrapUp l (some entry) i.session.elapsed)
      { i with session := s } := by
  have hstarted : (inSession (Act.look Session.elapsed) : Act Failure Interpreter Binary64) i =
      (.ok i.session.elapsed, i) := rfl
  have hexecute : inSession (Session.execute l) i =
      (.ok (.entry entry), { i with session := s }) := by
    rw [inSession, Act.run_within, h]
  have hentry : Course.Leads (execute l) i (.done (.ok (some entry))) { i with session := s } :=
    Course.Leads.bind_ofAct hexecute entryOf
  exact (Course.Leads.bind_ofAct hstarted _).trans (hentry.attempt_ok.bind _)

/-- A command that fails, other than by an interruption. -/
theorem leads_dispatch_error {l : Line} {i : Interpreter} {failure : Failure} {s : Session}
    (h : Session.execute l i.session = (.error failure, s)) (hgoes : failure.isInterruption = false) :
    Course.Leads (dispatch l) i (.ofAct (giveUp l failure)) { i with session := s } := by
  have hstarted : (inSession (Act.look Session.elapsed) : Act Failure Interpreter Binary64) i =
      (.ok i.session.elapsed, i) := rfl
  have hexecute : inSession (Session.execute l) i = (.error failure, { i with session := s }) := by
    rw [inSession, Act.run_within, h]
  have hentry : Course.Leads (execute l) i (.done (.error failure)) { i with session := s } := by
    have hrun := Course.Leads.ofAct (inSession (Session.execute l)) i
    rw [hexecute] at hrun
    exact hrun.bind entryOf
  exact (Course.Leads.bind_ofAct hstarted _).trans ((hentry.attempt_error hgoes).bind _)

end Interpreter

end VaultConsole
