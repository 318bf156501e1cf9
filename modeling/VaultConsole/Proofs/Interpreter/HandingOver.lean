import VaultConsole.Proofs.Interpreter.Reachable
import VaultConsole.Proofs.Interpreter.Wide

/-!
# Effects are handed over once

What a line still has to do when it was answered is given to the scheduler. A run is told by the calls
of the scheduler, in the order in which they happen, each with what the log held at that moment. What a
line owes to the scheduler can be told from the line and the state that it finds: one call if it opens
a page or ends the session and there is a part for that, and none if it fails, if it answers the gate,
or if it is any other command.

* `Interpreter.handovers`: the calls of the scheduler along a course.
* `Session.Spares`: what does not call the scheduler.
* `Turn.due`: what a line owes to the scheduler; `Turn.due_ne_nil_iff`: when that is a call.
* `Interpreter.owes_course`: **a line hands over what it owes, before any line inside it begins.**
* `HostStep.handsOver_of_keepTime`: **along a run the scheduler is called for what the lines owe, in
  their order, and between lines no effect waits.**
-/

namespace VaultConsole

/-- A call of the scheduler: with which delay and which effect, and what the log held then. -/
structure Handover where
  delay : Delay
  effect : Effect
  log : EntryLog

namespace Interpreter

open Classical in
/-- The calls of the scheduler along a course, in the order in which they happen. The session's delay
goes with each; `inside` are the calls in a line that is submitted on the way. -/
noncomputable def handovers {α : Type} (answer : Text → Act Failure Interpreter Unit)
    (inside : Text → Interpreter → List Handover) : Course Interpreter α → Interpreter → List Handover
  | .done _, _ => []
  | .own act next, i =>
    (if h : ∃ effect rest, Course.own act next = (schedule effect).proceed rest then
      [⟨i.session.actionDelay, h.choose, i.log⟩]
    else []) ++ handovers answer inside (next (act i).1) (act i).2
  | .submit line next, i =>
    inside line i ++ handovers answer inside (next (answer line i).1) (answer line i).2

end Interpreter

namespace Session

/-- The scheduler is not called, and effects are given the same delay as before. -/
def Spares (s s' : Session) : Prop := s'.scheduler = s.scheduler ∧ s'.actionDelay = s.actionDelay

instance : Std.Refl Spares := ⟨fun _ => ⟨rfl, rfl⟩⟩

instance : IsTrans Session Spares := ⟨fun _ _ _ h h' => ⟨h'.1.trans h.1, h'.2.trans h.2⟩⟩

instance : Lax Spares where
  of_steady h := by
    rw [h.rest]
    exact ⟨rfl, rfl⟩
  effects _ _ _ := ⟨rfl, rfl⟩
  clipboard _ _ := ⟨rfl, rfl⟩
  navigator _ _ _ _ := ⟨rfl, rfl⟩
  exit _ _ _ _ := ⟨rfl, rfl⟩
  stop _ := ⟨rfl, rfl⟩

end Session

namespace Interpreter

open Session (Spares)

/-! ## The calls of the scheduler -/

/-- Goes along with what the scheduler does with an effect. -/
def goAlong (effect : Effect) (handling : Handling) : Course Interpreter Unit := do
  handling.moves.forM (make effect)
  Course.ending handling.failure

theorem spares_goAlong (effect : Effect) (handling : Handling) :
    (goAlong effect handling).Keeps (Along Spares) :=
  (Course.Keeps.forM fun move _ => allows_make effect move).bind fun _ => .ending handling.failure

section
variable {α β : Type} {answer : Text → Act Failure Interpreter Unit}
  {inside : Text → Interpreter → List Handover} {i : Interpreter}

/-- A call of the scheduler, and what comes of it. -/
theorem schedule_proceed (effect : Effect) (rest : Except Failure Unit → Course Interpreter α) :
    (schedule effect).proceed rest =
      .own (inSession Session.takeHandling) fun result =>
        (Course.onward (goAlong effect) result).proceed rest := rfl

/-- An act that leaves every scheduler as it is does not call it: a call uses up what a scheduler is
going to do. -/
theorem handovers_own {act : Act Failure Interpreter β} {next : Except Failure β → Course Interpreter α}
    (h : act.Keeps (Along Spares)) :
    handovers answer inside (.own act next) i =
      handovers answer inside (next (act i).1) (act i).2 := by
  have hnot : ¬ ∃ effect rest, Course.own act next = (schedule effect).proceed rest := by
    rintro ⟨effect, rest, hcall⟩
    rw [schedule_proceed] at hcall
    obtain ⟨hβ, hact, -⟩ := Course.own.inj hcall
    subst hβ
    rw [eq_of_heq hact] at h
    -- a scheduler with one call to come has none afterwards
    have hspares := h (start { Session.bare ⟨World.fresh 0 [], .inMemory .empty⟩ with
      scheduler := ⟨[⟨[], none⟩], .immediate⟩ })
    have hupcoming : ([] : List Handling) = [⟨[], none⟩] := congrArg Scheduler.upcoming hspares.1
    cases hupcoming
  rw [handovers, dif_neg hnot, List.nil_append]

/-- A course tells for which effect it calls the scheduler. -/
theorem schedule_proceed_inj {effect effect' : Effect}
    {rest rest' : Except Failure Unit → Course Interpreter α}
    (h : (schedule effect).proceed rest = (schedule effect').proceed rest') : effect = effect' := by
  rw [schedule_proceed, schedule_proceed] at h
  obtain ⟨-, -, hnext⟩ := Course.own.inj h
  -- a scheduler that holds the effect shows which one it was given
  have hhold := congrFun (eq_of_heq hnext) (.ok ⟨[.hold], none⟩)
  obtain ⟨-, hact, -⟩ := Course.own.inj hhold
  let i := start (Session.bare ⟨World.fresh 0 [], .inMemory .empty⟩)
  have hqueue : ([(Delay.whole 0, effect)] : List (Delay × Effect)) = [(Delay.whole 0, effect')] :=
    congrArg (fun act => (act i).2.session.scheduled) (eq_of_heq hact)
  simpa using hqueue

theorem handovers_schedule (effect : Effect) (rest : Except Failure Unit → Course Interpreter α) :
    handovers answer inside ((schedule effect).proceed rest) i =
      ⟨i.session.actionDelay, effect, i.log⟩ ::
        handovers answer inside ((goAlong effect i.session.scheduler.next.1).proceed rest)
          (inSession Session.takeHandling i).2 := by
  have hcall : ∃ effect' rest', (schedule effect).proceed rest = (schedule effect').proceed rest' :=
    ⟨effect, rest, rfl⟩
  rw [schedule_proceed] at hcall
  have hchosen : effect = hcall.choose :=
    schedule_proceed_inj ((schedule_proceed effect rest).trans hcall.choose_spec.choose_spec)
  rw [schedule_proceed, handovers, dif_pos hcall, ← hchosen]
  rfl

end

/-! ## What a course owes -/

section
variable {α β : Type} (answer : Text → Act Failure Interpreter Unit)
  (inside : Text → Interpreter → List Handover)

/-- From a state a course calls the scheduler for what it owes, and only then for the lines that are
submitted on the way. -/
def Owes (due : List Handover) (c : Course Interpreter α) (i : Interpreter) : Prop :=
  handovers answer inside c i =
    due ++ (c.calls answer i).flatMap fun (line, i) => inside line i

variable {answer inside} {i : Interpreter} {due : List Handover}

theorem owes_done (result : Except Failure α) : Owes answer inside [] (.done result) i := rfl

/-- A line that is submitted calls the scheduler for itself. -/
theorem Owes.submit {line : Text} {next : Except Failure Unit → Course Interpreter α}
    (h : Owes answer inside [] (next (answer line i).1) (answer line i).2) :
    Owes answer inside [] (.submit line next) i := by
  rw [Owes, handovers, h]
  rfl

theorem Owes.own {act : Act Failure Interpreter β} {next : Except Failure β → Course Interpreter α}
    (hact : act.Keeps (Along Spares)) (h : Owes answer inside due (next (act i).1) (act i).2) :
    Owes answer inside due (.own act next) i := (handovers_own hact).trans h

theorem Owes.after {act : Act Failure Interpreter β} {result : Except Failure β} {i' : Interpreter}
    {next : Except Failure β → Course Interpreter α} (hact : act.Keeps (Along Spares))
    (hrun : act i = (result, i')) (h : Owes answer inside due (next result) i') :
    Owes answer inside due (.own act next) i := by
  refine .own hact ?_
  rw [hrun]
  exact h

/-- Where the scheduler is left as it is nothing is owed. -/
theorem owes_of_keeps {c : Course Interpreter α} (hc : c.Keeps (Along Spares)) :
    Owes answer inside [] c i := by
  induction c generalizing i with
  | done result => exact owes_done result
  | own act next ih => exact .own hc.1 (ih _ (hc.2 _))
  | submit line next ih => exact .submit (ih _ (hc _))

/-- Something that leaves the scheduler as it is comes before what owes nothing. -/
theorem owes_proceed {I : Interpreter → Prop} {Q : Except Failure α → Interpreter → Prop}
    {c : Course Interpreter α} {next : Except Failure α → Course Interpreter β}
    (hanswer : ∀ line i, I i → I (answer line i).2) (hc : c.Keeps (Along Spares))
    (hmeets : c.Meets I (fun _ => I) Q i) (h : ∀ result i', Q result i' → Owes answer inside [] (next result) i') :
    Owes answer inside [] (c.proceed next) i := by
  induction c generalizing i with
  | done result => exact h result i hmeets
  | own act rest ih => exact .own hc.1 (ih _ (hc.2 _) hmeets)
  | submit line rest ih => exact .submit (ih _ (hc _) (hmeets.2 _ _ (hanswer line i hmeets.1)))

/-- The scheduler is called once. -/
theorem owes_schedule (effect : Effect) {rest : Except Failure Unit → Course Interpreter α}
    (hrest : ∀ result, (rest result).Keeps (Along Spares)) :
    Owes answer inside [⟨i.session.actionDelay, effect, i.log⟩]
      ((schedule effect).proceed rest) i := by
  have hmoves : ((goAlong effect i.session.scheduler.next.1).proceed rest).Keeps (Along Spares) :=
    (spares_goAlong effect _).proceed hrest
  have howes : Owes answer inside [] _ (inSession Session.takeHandling i).2 := owes_of_keeps hmoves
  rw [Owes, handovers_schedule, howes]
  rfl

/-! ## What a line owes -/

theorem takeDeferred_run {effects : List Effect} (h : i.session.deferred = effects) :
    inSession Session.takeDeferred i = (.ok effects, { i with session := i.session.dropDeferred }) := by
  rw [← h]
  rfl

section
variable {rest : Except Failure Unit → Course Interpreter α}
  (hrest : ∀ result, (rest result).Keeps (Along Spares))
include hrest

/-- A command that left no effect waiting owes nothing. -/
theorem owes_wrapUp_of_none (h : i.session.deferred = []) (l : Line) (entry : Option Entry)
    (started : Binary64) : Owes answer inside [] ((wrapUp l entry started).proceed rest) i := by
  rcases hlog : logCommand l entry started (conclude entry i).2 with ⟨result, i'⟩
  have hnone : i'.session.deferred = [] := by
    have hpatient := keeps_logCommand (R := Session.Patient) l entry started (conclude entry i).2
    rw [hlog] at hpatient
    exact hpatient.1.trans ((keeps_conclude (R := Session.Patient) entry i).1.trans h)
  refine .after (keeps_conclude entry) (conclude_run entry i) (.after (allows_logCommand l entry started) hlog ?_)
  cases result with
  | error failure => exact owes_of_keeps (hrest _)
  | ok _ =>
    refine .after (keeps_inSession fun s => ⟨rfl, rfl⟩) (takeDeferred_run hnone) ?_
    exact owes_of_keeps (hrest _)

/-- A command that left one effect waiting, with an entry, owes one call. -/
theorem owes_wrapUp_of_one {effect : Effect} (h : i.session.deferred = [effect])
    (htime : i.ShowsTime) (l : Line) (entry : Entry) (started : Binary64) :
    Owes answer inside [⟨i.session.actionDelay, effect, i.log.append entry⟩]
      ((wrapUp l (some entry) started).proceed rest) i := by
  obtain ⟨event, hlog⟩ : ∃ event, logCommand l (some entry) started (conclude (some entry) i).2 =
      (.ok (), (conclude (some entry) i).2.withWorld (i.session.depot.world.record event)) :=
    emit_of_showsTime (i := (conclude (some entry) i).2) htime .info "command_exec" _
  refine .after (keeps_conclude (some entry)) rfl (.after (allows_logCommand _ _ _) hlog ?_)
  refine .after (keeps_inSession fun s => ⟨rfl, rfl⟩) (takeDeferred_run h) ?_
  -- what comes after the call does not call the scheduler again
  show Owes answer inside _ (((((schedule effect).proceed _).proceed _).proceed _).proceed rest) _
  rw [Course.proceed_assoc, Course.proceed_assoc, Course.proceed_assoc]
  refine owes_schedule effect fun result => ?_
  cases result with
  | ok _ => exact hrest _
  | error failure =>
    show Course.Keeps _ (Course.proceed (if failure.isInterruption then _ else _) _)
    split
    · exact hrest _
    · exact ⟨allows_report l failure, fun _ => hrest _⟩

/-- A command that opens a page or ends the session owes one call, with its effect and after its
entry. -/
theorem owes_dispatch_of_handing {l : Line} {entry : Entry} {effect : Effect}
    (h : Session.handing? l i.session = some (entry, effect)) (hi : i.AtRest) :
    Owes answer inside [⟨i.session.actionDelay, effect, i.log.append entry⟩]
      ((dispatch l).proceed rest) i := by
  have hexecute : inSession (Session.execute l) i =
      (.ok (.entry entry), { i with session := i.session.deferring effect }) := by
    rw [inSession, Act.run_within, Session.execute_of_handing h]
  have hone : (i.session.deferring effect).deferred = [effect] := by
    rw [Session.deferring, hi.deferred, List.nil_append]
  refine .after (keeps_inSession (.look _)) rfl ?_
  refine .after (keeps_inSession (Session.lax_execute l)) hexecute ?_
  exact owes_wrapUp_of_one hrest (i := { i with session := i.session.deferring effect }) hone hi.time
    l entry _

/-- Any other command owes nothing, whatever becomes of it. -/
theorem owes_dispatch_of_none {l : Line} (h : Session.handing? l i.session = none) (hi : i.AtRest)
    (hanswer : ∀ line i, i.AtRest → (answer line i).2.AtRest) :
    Owes answer inside [] ((dispatch l).proceed rest) i := by
  have hpatient : Along Session.Patient i (inSession (Session.execute l) i).2 :=
    (Session.sound_execute h).keeps.patient
  have hexecute : (execute l).Meets AtRest (fun _ => AtRest) (fun _ => AtRest) i := by
    refine .bind_ofAct (inSession (Session.execute l)) ?_
    cases (inSession (Session.execute l) i).1 with
    | error failure => exact hi.of_patient hpatient
    | ok reply => exact meets_of_patient (keeps_entryOf reply) (hi.of_patient hpatient)
  refine .after (keeps_inSession (.look _)) rfl ?_
  show Owes answer inside [] ((((execute l).proceed _).proceed _).proceed rest) i
  rw [Course.proceed_assoc, Course.proceed_assoc]
  refine owes_proceed hanswer (allows_execute l) hexecute fun result i' hi' => ?_
  cases result with
  | ok entry => exact owes_wrapUp_of_none hrest hi'.deferred l entry _
  | error failure =>
    show Owes answer inside [] (Course.proceed (if failure.isInterruption then _ else _) _) i'
    split
    · exact owes_of_keeps (hrest _)
    · exact owes_of_keeps ⟨allows_giveUp l failure, fun _ => hrest _⟩

end

end

end Interpreter

/-- What a line owes to the scheduler: a call for the page that it opens or for the end of the session,
with the delay of the session, when its entry stands in the log. While a deletion waits a line owes
nothing, and neither does one that fails or one with another command. -/
def Turn.due (t : Turn) : List Handover :=
  if t.start.session.isAwaiting then []
  else
    match (Line.parse t.line).bind (Session.handing? · t.start.session) with
    | some (entry, effect) =>
      let announced := t.start.log.append (.info ("> " ++ t.line.strip))
      [⟨t.start.session.actionDelay, effect, announced.append entry⟩]
    | none => []

namespace Turn

variable {t : Turn}

theorem due_of_awaiting (h : t.start.session.isAwaiting = true) : t.due = [] := by
  rw [due, if_pos h]

theorem due_of_none (h : (Line.parse t.line).bind (Session.handing? · t.start.session) = none) :
    t.due = [] := by
  rw [due, h]
  split <;> rfl

theorem due_of_handing {l : Line} {entry : Entry} {effect : Effect}
    (hidle : t.start.session.isAwaiting = false) (hl : Line.parse t.line = some l)
    (h : Session.handing? l t.start.session = some (entry, effect)) :
    t.due = [⟨t.start.session.actionDelay, effect,
      (t.start.log.append (.info ("> " ++ t.line.strip))).append entry⟩] := by
  rw [due, if_neg (by simp [hidle]), hl, Option.bind_some, h]

/-- While no deletion waits a line owes a call just when it is a command to open a page or to end the
session, and succeeds. -/
theorem due_ne_nil_iff {l : Line} (hidle : t.start.session.isAwaiting = false)
    (hl : Line.parse t.line = some l) :
    t.due ≠ [] ↔
      (Verb.ofToken? l.verb = some .openPage ∨ Verb.ofToken? l.verb = some .exit) ∧
        ∃ reply, (Session.execute l t.start.session).1 = .ok reply := by
  cases h : Session.handing? l t.start.session with
  | none =>
    rw [due_of_none (by rw [hl]; exact h)]
    refine ⟨fun hdue => absurd rfl hdue, ?_⟩
    rintro ⟨hverb, reply, hreply⟩
    obtain ⟨failure, -, hrun⟩ := Session.execute_of_not_handing hverb h
    rw [hrun] at hreply
    cases hreply
  | some handing =>
    rw [due_of_handing hidle hl h, Session.execute_of_handing h]
    refine ⟨fun _ => ⟨?_, _, rfl⟩, fun _ => List.cons_ne_nil _ _⟩
    unfold Session.handing? at h
    split at h
    · next hverb => exact .inl hverb
    · next hverb => exact .inr hverb
    · cases h

end Turn

namespace Interpreter

open Session (Spares)

section
variable {answer : Text → Act Failure Interpreter Unit}
  {inside : Text → Interpreter → List Handover} {i : Interpreter} (hi : i.AtRest)
  (hanswer : ∀ line i, i.AtRest → (answer line i).2.AtRest) (depth : Nat) (line : Text)
include hi hanswer

/-- A line that was announced either answers the gate, or its command is carried out. -/
theorem owes_process {α : Type} {rest : Except Failure Unit → Course Interpreter α}
    (hrest : ∀ result, (rest result).Keeps (Along Spares)) :
    Owes answer inside (Turn.due ⟨depth, line, i⟩) ((process line.strip).proceed rest)
      (announce line.strip i).2 := by
  have hwaits : (inSession (Act.look Session.isAwaiting) : Act Failure Interpreter Bool)
      (announce line.strip i).2 = (.ok i.session.isAwaiting, (announce line.strip i).2) := rfl
  refine .after (keeps_inSession (.look _)) hwaits ?_
  cases hawaits : i.session.isAwaiting with
  | true =>
    rw [Turn.due_of_awaiting hawaits]
    exact owes_of_keeps ⟨allows_answerGate line.strip, hrest⟩
  | false =>
    simp only [Line.parse_strip]
    cases hl : Line.parse line with
    | none =>
      rw [Turn.due_of_none (by rw [hl]; rfl)]
      exact owes_of_keeps (hrest _)
    | some l =>
      have hnoted : (i.noted line).AtRest := ⟨hi.deferred, hi.time⟩
      refine .after (keeps_remember _) rfl ?_
      cases hhanding : Session.handing? l i.session with
      | none =>
        rw [Turn.due_of_none (by rw [hl]; exact hhanding)]
        exact owes_dispatch_of_none hrest (i := i.noted line) hhanding hnoted hanswer
      | some handing =>
        rw [Turn.due_of_handing hawaits hl hhanding]
        exact owes_dispatch_of_handing hrest (i := i.noted line) hhanding hnoted

/-- **A line hands over what it owes, before any line inside it begins**, and nothing else but for such
lines. -/
theorem owes_course : Owes answer inside (Turn.due ⟨depth, line, i⟩) (course line) i := by
  unfold course
  simp only
  split
  · next hblank =>
    have hnone : Line.parse line = none := by
      cases hl : Line.parse line with
      | none => rfl
      | some l => exact absurd (by simpa using hblank) (Line.strip_ne_nil_of_parse hl)
    rw [Turn.due_of_none (by rw [hnone]; rfl)]
    exact owes_of_keeps (.pure _)
  · refine .after (keeps_announce _) rfl (owes_process hi hanswer depth line fun result => ?_)
    cases result with
    | ok _ => exact .ofAct (keeps_entriesSince _)
    | error failure => trivial

end

/-- The calls of the scheduler in a line, from a state on. -/
noncomputable def handoversAt : (depth : Nat) → Text → Interpreter → List Handover
  | 0, line, i => handovers (answerAt 0) (fun _ _ => []) (course line) i
  | depth + 1, line, i => handovers (answerAt (depth + 1)) (handoversAt depth) (course line) i

/-- What is handed over in a line is what it and the lines inside it owe. -/
theorem handoversAt_eq (depth : Nat) (line : Text) {i : Interpreter} (hi : i.AtRest) :
    handoversAt depth line i = (Turn.turnsAt depth line i).flatMap Turn.due := by
  induction depth generalizing line i with
  | zero =>
    have howes : Owes (answerAt 0) (fun _ _ => []) _ (course line) i :=
      owes_course hi (fun line _ => atRest_answerAt 0 line) 0 line
    rw [handoversAt, howes, Turn.turnsAt, List.flatMap_singleton]
    simp
  | succ depth ih =>
    have howes : Owes (answerAt (depth + 1)) (handoversAt depth) _ (course line) i :=
      owes_course hi (fun line _ => atRest_answerAt (depth + 1) line) (depth + 1) line
    rw [handoversAt, howes, Turn.turnsAt, List.flatMap_cons, List.flatMap_assoc]
    refine congrArg _ (List.flatMap_congr fun call hcall => ?_)
    have hrest : call.2.AtRest := (meets_course line i hi).of_mem_calls
      (fun line _ h => atRest_answerAt (depth + 1) line h) hcall
    exact ih call.1 hrest

end Interpreter

open Interpreter

/-- The calls of the scheduler in a turn: from when its line is submitted until all is done for it. -/
noncomputable def Turn.handovers (t : Turn) : List Handover := handoversAt t.depth t.line t.start

namespace HostStep

open Session (Spares)

/-- The calls of the scheduler in a line of the host. -/
noncomputable def handoversOf (line : Text) (i : Interpreter) : List Handover :=
  handoversAt i.session.pendingReactions line i

/-- The calls of the scheduler along a run, in the order in which they happen. -/
noncomputable def handovers : List HostStep → Interpreter → List Handover
  | [], _ => []
  | s :: rest, i => Interpreter.handovers answer handoversOf s.course i ++ handovers rest (s.run i)

/-- At each step of a run the clock shows a time. -/
def KeepTime : List HostStep → Interpreter → Prop
  | [], _ => True
  | s :: rest, i => i.ShowsTime ∧ s.KeepsTime ∧ KeepTime rest (s.run i)

/-- A host does not call the scheduler itself. -/
theorem spares_course (s : HostStep) : s.course.Keeps (Along Spares) :=
  s.keeps_course_of (fun _ => ⟨rfl, rfl⟩) (fun _ _ => ⟨rfl, rfl⟩) allows_carryOut
    fun _ _ => ⟨rfl, rfl⟩

variable {s : HostStep} {i : Interpreter}

/-- What is handed over in a step of the host is what its lines owe. -/
theorem handovers_step (hs : s.KeepsTime) (hi : i.AtRest) :
    Interpreter.handovers answer handoversOf s.course i = (s.turns i).flatMap Turn.due := by
  have howes : Owes answer handoversOf [] s.course i := owes_of_keeps s.spares_course
  rw [howes, List.nil_append, turns, List.flatMap_assoc]
  refine List.flatMap_congr fun call hcall => ?_
  have hrest : call.2.AtRest := (meets_step hs hi).of_mem_calls
    (fun line _ h => atRest_answer line h) hcall
  exact handoversAt_eq _ call.1 hrest

/-- After a step of the host no effect waits. -/
theorem deferred_run (hs : s.KeepsTime) (hi : i.AtRest) : (s.run i).session.deferred = [] :=
  (meets_step hs hi).run fun line _ => atRest_answer line

/-- Lines alone do not stop the clock, so it shows a time at each of them if it does at the first. -/
theorem keepTime_of_lines (lines : List Text) (hi : i.AtRest) : KeepTime (lines.map .submit) i := by
  induction lines generalizing i with
  | nil => trivial
  | cons line rest ih => exact ⟨hi.time, trivial, ih (atRest_answer line hi)⟩

/-- Whenever a line of a run begins, also inside another one, no effect waits. -/
theorem atRest_of_mem_trace {steps : List HostStep} (htime : KeepTime steps i)
    (hnone : i.session.deferred = []) {t : Turn} (ht : t ∈ trace steps i) : t.start.AtRest := by
  induction steps generalizing i with
  | nil => cases ht
  | cons s rest ih =>
    have hi : i.AtRest := ⟨hnone, htime.1⟩
    rw [trace, List.mem_append] at ht
    rcases ht with ht | ht
    · obtain ⟨call, hcall, ht⟩ := List.mem_flatMap.1 ht
      have hcalled : call.2.AtRest := (meets_step htime.2.1 hi).of_mem_calls
        (fun line _ h => atRest_answer line h) hcall
      exact Turn.atRest_start hcalled ht
    · exact ih htime.2.2 (deferred_run htime.2.1 hi) ht

theorem deferred_sequence {before after : List HostStep} (htime : KeepTime (before ++ after) i)
    (hnone : i.session.deferred = []) : (sequence before i).session.deferred = [] := by
  induction before generalizing i with
  | nil => exact hnone
  | cons s rest ih => exact ih htime.2.2 (deferred_run htime.2.1 ⟨hnone, htime.1⟩)

/-- What is handed over along a run is what its lines owe. -/
theorem handovers_eq {steps : List HostStep} (htime : KeepTime steps i)
    (hnone : i.session.deferred = []) :
    handovers steps i = (trace steps i).flatMap Turn.due := by
  induction steps generalizing i with
  | nil => rfl
  | cons s rest ih =>
    have hi : i.AtRest := ⟨hnone, htime.1⟩
    have hrest := ih htime.2.2 (deferred_run htime.2.1 hi)
    rw [handovers, trace, List.flatMap_append, handovers_step htime.2.1 hi, hrest]

/-- Along a run what lines owe is handed over once, while they are answered, and in their order. -/
structure HandsOver (steps : List HostStep) (i : Interpreter) : Prop where
  /-- Every turn, also one inside another, is one call of `submit`. -/
  submitted : ∀ t ∈ trace steps i, t.finish = (Interpreter.submit t.line t.start).2
  /-- Before the run, between its steps and after it no effect waits. -/
  rests : ∀ before after, steps = before ++ after → (sequence before i).session.deferred = []
  /-- Neither does one when a line begins, or when all is done for it, also inside another line. -/
  restsInside : ∀ t ∈ trace steps i,
    t.start.session.deferred = [] ∧ t.finish.session.deferred = []
  /-- A line that is a command owes a call just when it is to open a page or to end the session, and
  succeeds. -/
  succeeds : ∀ t ∈ trace steps i, ∀ l, t.start.session.isAwaiting = false →
    Line.parse t.line = some l →
      (t.due ≠ [] ↔
        (Verb.ofToken? l.verb = some .openPage ∨ Verb.ofToken? l.verb = some .exit) ∧
          ∃ reply, (Session.execute l t.start.session).1 = .ok reply)
  /-- While a line is answered, the scheduler is called for what it owes and for what the lines inside
  it owe. -/
  inTime : ∀ t ∈ trace steps i, t.handovers = t.turns.flatMap Turn.due
  /-- Along the run the scheduler is called for what the lines owe, in their order. -/
  inOrder : handovers steps i = (trace steps i).flatMap Turn.due

/-- **Effects are handed over once, and only after success.** Whatever a host does and whatever the
scheduler and the other parts outside do, this holds of every run at whose steps the clock shows a
time. -/
theorem handsOver_of_keepTime {steps : List HostStep} {i : Interpreter} (htime : KeepTime steps i)
    (hnone : i.session.deferred = []) : HandsOver steps i where
  submitted _ ht := Turn.finish_eq_submit (pending_start_le ht)
  rests before after hsteps := by
    rw [hsteps] at htime
    exact deferred_sequence htime hnone
  restsInside t ht := by
    have hrest := atRest_of_mem_trace htime hnone ht
    exact ⟨hrest.deferred, (atRest_submitNested t.depth t.line hrest).deferred⟩
  succeeds _ _ _ hidle hl := Turn.due_ne_nil_iff hidle hl
  inTime t ht := handoversAt_eq t.depth t.line (atRest_of_mem_trace htime hnone ht)
  inOrder := handovers_eq htime hnone

/-- A session whose scheduler submits a line on its first call, then fails, and refuses every effect
after that. -/
def sampleRefusingSession : Session :=
  { Session.bare ⟨World.fresh 0 [], .inMemory .empty⟩ with
    navigator := some (.outside .quiet)
    exit := some (.outside .quiet)
    scheduler := ⟨[⟨[.submit "open profile"], some (.foreign .runtime "busy")⟩],
      .refusing (.foreign .runtime "closed")⟩ }

/-- Three commands, of which one fails. -/
def sampleCommands : List Text := ["open vaults", "open nothing", "quit"]

theorem handsOver_sampleCommands :
    (KeepTime (sampleCommands.map .submit) (start sampleRefusingSession) ∧
      (start sampleRefusingSession).session.deferred = []) ∧
      HandsOver (sampleCommands.map .submit) (start sampleRefusingSession) ∧
      ((trace (sampleCommands.map .submit) (start sampleRefusingSession)).flatMap Turn.due).map
          (fun call => (call.effect, call.log.last?)) =
        [(.navigate .vaults, some (.success "Opening vaults page...")),
          (.navigate .profile, some (.success "Opening profile page...")),
          (.exit, some (.info "Exiting CLI..."))] := by
  have htime : (start sampleRefusingSession).ShowsTime :=
    ⟨⟨1970, 1, 1, 0, 0, 0, 0, 0, by decide⟩, by decide +kernel⟩
  have hkeeps := keepTime_of_lines sampleCommands ⟨rfl, htime⟩
  exact ⟨⟨hkeeps, rfl⟩, handsOver_of_keepTime hkeeps rfl, by decide +kernel⟩

end HostStep

end VaultConsole
