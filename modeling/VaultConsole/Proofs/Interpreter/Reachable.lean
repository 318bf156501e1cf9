import VaultConsole.Proofs.Interpreter.Deletion
import VaultConsole.Proofs.Session.Steady

/-!
# No effect waits from line to line

An effect comes to wait when its command has succeeded, and is handed over as soon as that was logged.
So whenever a line begins, also inside another one, no effect of an earlier line waits.

* `Interpreter.AtRest`: no effect waits, and the clock shows a time.
* `Interpreter.meets_course`: a line begins further lines only at rest, and ends at rest.
* `Interpreter.Reachable`: the states that an interpreter comes to.
* `Interpreter.Reachable.deferred_eq_nil`: **in all of them no effect waits.**
-/

namespace VaultConsole

/-- The effects that wait and the clock are left as they are. -/
def Session.Patient (s s' : Session) : Prop :=
  s'.deferred = s.deferred ∧ s'.depot.world.clock = s.depot.world.clock

namespace Session

instance : Std.Refl Patient := ⟨fun _ => ⟨rfl, rfl⟩⟩

instance : IsTrans Session Patient :=
  ⟨fun _ _ _ h h' => ⟨h'.1.trans h.1, h'.2.trans h.2⟩⟩

instance : Follows Patient := ⟨fun h => ⟨h.deferred, h.clock⟩⟩

theorem Steady.patient {s s' : Session} (h : s.Steady s') : s.Patient s' :=
  ⟨by rw [h.rest], h.depot.clock⟩

end Session

namespace Interpreter

open Session (Patient)

/-- No effect waits, and the clock shows a time. -/
structure AtRest (i : Interpreter) : Prop where
  deferred : i.session.deferred = []
  time : i.ShowsTime

variable {i i' : Interpreter}

theorem ShowsTime.of_patient (h : i.ShowsTime) (hpatient : Along Patient i i') : i'.ShowsTime :=
  World.ShowsTime.of_clock h hpatient.2

theorem AtRest.of_patient (h : i.AtRest) (hpatient : Along Patient i i') : i'.AtRest :=
  ⟨hpatient.1.trans h.deferred, h.time.of_patient hpatient⟩

/-! ## How a line ends -/

/-- A deletion that was confirmed leaves the effects that wait and the clock as they are. -/
theorem patient_carryOutDeletion (d : Deletion) : (carryOutDeletion d).Keeps (Along Patient) := by
  have hexecute : (inSession (Session.executeDeletion d)).Keeps (Along Patient) :=
    (keeps_inSession (Session.sound_executeDeletion d).keeps).mono fun _ _ h => h.patient
  refine (hexecute.attemptUnless _).bind fun result => ?_
  cases result with
  | ok entry => exact keeps_answer entry
  | error failure =>
    exact (Act.Keeps.settle _).bind fun _ =>
      .ite ((keeps_emit _ _ _).bind fun _ => keeps_answer _) (keeps_answer _)

theorem patient_answerGate (line : Text) : (answerGate line).Keeps (Along Patient) := by
  refine (Act.Keeps.look _).bind fun gate => ?_
  split
  · next decision d gate _ =>
    refine Act.Keeps.bind (fun _ => ⟨rfl, rfl⟩) fun _ => (keeps_logDecision d decision).bind fun _ => ?_
    cases decision with
    | reject => exact keeps_answer _
    | cancel => exact (keeps_remember _).bind fun _ => keeps_answer _
    | confirm => exact (keeps_remember _).bind fun _ => patient_carryOutDeletion d
  · exact .pure _

/-- A course that leaves the effects that wait as they are. -/
theorem meets_of_patient {α : Type} {c : Course Interpreter α} (hc : c.Keeps (Along Patient))
    (h : i.AtRest) : c.Meets AtRest (fun _ => AtRest) (fun _ => AtRest) i :=
  .of_keeps hc (fun _ _ hpatient h => h.of_patient hpatient) h

/-- A command that fails leaves no effect that waits. -/
theorem meets_execute (l : Line) (h : i.AtRest) :
    (execute l).Meets AtRest (fun _ => AtRest)
      (fun result i' => i'.ShowsTime ∧ ∀ failure, result = .error failure → i'.AtRest) i := by
  refine .bind_ofAct (inSession (Session.execute l)) ?_
  rcases Session.execute_cases l i.session with ⟨effect, entry, hrun⟩ | hsound
  · have hact : inSession (Session.execute l) i =
        (.ok (.entry entry), { i with session := i.session.deferring effect }) := by
      rw [inSession, Act.run_within, hrun]
    rw [hact]
    exact ⟨h.time, fun _ hfails => by cases hfails⟩
  · have hpatient : Along Patient i (inSession (Session.execute l) i).2 := hsound.keeps.patient
    have hrest := h.of_patient hpatient
    cases (inSession (Session.execute l) i).1 with
    | error failure => exact ⟨hrest.time, fun _ _ => hrest⟩
    | ok reply =>
      exact (meets_of_patient (keeps_entryOf reply) hrest).imp fun _ _ h => ⟨h.time, fun _ _ => h⟩

/-- Once a command has been logged the effects that it left are handed over, and none waits. -/
theorem meets_handOver (h : i.ShowsTime) :
    handOver.Meets AtRest (fun _ => AtRest) (fun _ => AtRest) i := by
  have htaken : (inSession Session.takeDeferred i).2.AtRest := ⟨rfl, h⟩
  refine .bind_ofAct (inSession Session.takeDeferred) ?_
  exact meets_of_patient (.forM fun effect _ => keeps_schedule effect) htaken

theorem meets_wrapUp (l : Line) (entry : Option Entry) (started : Binary64) (h : i.ShowsTime) :
    (wrapUp l entry started).Meets AtRest (fun _ => AtRest) (fun _ => AtRest) i := by
  have htime : (conclude entry i).2.ShowsTime :=
    h.of_patient (keeps_conclude (R := Patient) entry i)
  obtain ⟨event, hlog⟩ : ∃ event, logCommand l entry started (conclude entry i).2 =
      (.ok (), (conclude entry i).2.withWorld
        ((conclude entry i).2.session.depot.world.record event)) := emit_of_showsTime htime _ _ _
  refine (Course.Leads.bind_ofAct (conclude_run entry i) _).meets ?_
  refine (Course.Leads.bind_ofAct hlog _).meets (.bind ?_)
  refine .attemptUnlessInterrupted ((meets_handOver (htime.record event)).imp fun result i' hrest => ?_)
  cases result with
  | ok _ => exact hrest
  | error failure =>
    simp only
    split
    · exact hrest
    · exact hrest.of_patient (keeps_report (R := Patient) l failure i')

theorem meets_dispatch (l : Line) (h : i.AtRest) :
    (dispatch l).Meets AtRest (fun _ => AtRest) (fun _ => AtRest) i := by
  refine .bind_ofAct (inSession (Act.look Session.elapsed)) (.bind ?_)
  refine .attemptUnlessInterrupted ((meets_execute l h).imp ?_)
  rintro result i' ⟨htime, hfailed⟩
  cases result with
  | ok entry => exact meets_wrapUp l entry _ htime
  | error failure =>
    simp only
    split
    · exact hfailed failure rfl
    · have hdropped : (inSession (Act.change Session.dropDeferred) i').2.AtRest := ⟨rfl, htime⟩
      exact hdropped.of_patient (keeps_report (R := Patient) l failure _)

/-- **A line begins further lines only where no effect waits, and leaves none itself.** -/
theorem meets_course (line : Text) (i : Interpreter) (h : i.AtRest) :
    (course line).Meets AtRest (fun _ => AtRest) (fun _ => AtRest) i := by
  unfold course
  simp only
  split
  · exact h
  · have hannounced : (announce line.strip i).2.AtRest :=
      h.of_patient (keeps_announce (R := Patient) _ i)
    have hclose : ∀ (result : Except Failure Unit) i', i'.AtRest →
        (Course.onward (fun _ : Unit => Course.ofAct (entriesSince i.log.size)) result).Meets AtRest
          (fun _ => AtRest) (fun _ => AtRest) i' := by
      intro result i' hrest
      cases result <;> exact hrest
    refine .bind_ofAct (announce line.strip) (.bind ?_)
    refine Course.Meets.imp (Q := fun _ => AtRest) ?_ hclose
    refine .bind_ofAct (inSession (Act.look Session.isAwaiting)) ?_
    show Course.Meets _ _ _ (if _ then _ else _) _
    split
    · exact hannounced.of_patient (patient_answerGate line.strip _)
    · split
      · next l _ =>
        refine .bind_ofAct (remember line.strip) (meets_dispatch l ?_)
        exact hannounced.of_patient (keeps_remember (R := Patient) _ _)
      · exact hannounced

theorem atRest_submitNested (depth : Nat) (line : Text) (h : i.AtRest) :
    (submitNested depth line i).2.AtRest := holds_submitNested meets_course depth line h

theorem atRest_answerAt (depth : Nat) (line : Text) (h : i.AtRest) :
    (answerAt depth line i).2.AtRest := holds_answerAt meets_course depth line h

end Interpreter

open Interpreter

/-- Every line inside another one begins at rest. -/
theorem Turn.atRest_start {depth : Nat} {line : Text} {i : Interpreter} (h : i.AtRest) {t : Turn}
    (ht : t ∈ turnsAt depth line i) : t.start.AtRest :=
  (holds_of_mem_turnsAt meets_course h ht).1

namespace HostStep

/-- What a host waits for does not stop the clock from showing a time. -/
def KeepsTime : HostStep → Prop
  | runScheduled wait => ∀ delay w, w.ShowsTime → (wait delay w).2.ShowsTime
  | _ => True

theorem atRest_answer {i : Interpreter} (line : Text) (h : i.AtRest) : (answer line i).2.AtRest := by
  rw [answer, Act.snd_discard]
  exact atRest_submitNested _ line h

/-- A step of the host begins lines only at rest, and leaves no effect that waits. -/
theorem meets_step {s : HostStep} (hs : s.KeepsTime) {i : Interpreter} (h : i.AtRest) :
    s.course.Meets AtRest (fun _ => AtRest) (fun _ i' => i'.session.deferred = []) i := by
  have hquiet : ∀ {f : Interpreter → Interpreter}, (∀ i, (f i).session = i.session) →
      (Course.ofAct (Act.change f : Act Failure Interpreter Unit)).Meets AtRest (fun _ => AtRest)
        (fun _ i' => i'.session.deferred = []) i := fun hf => by
    show (Act.change _ i).2.session.deferred = []
    rw [Act.run_change, hf]
    exact h.deferred
  cases s with
  | submit line => exact ⟨h, fun _ _ hrest => hrest.deferred⟩
  | submitBuffer => exact ⟨h, fun _ _ hrest => hrest.deferred⟩
  | edit text => exact hquiet fun _ => rfl
  | recallPrevious => exact hquiet (session_recallBy History.previous)
  | recallNext => exact hquiet (session_recallBy History.next)
  | complete => exact hquiet fun _ => rfl
  | runScheduled wait =>
    have hwait : ∀ delay, (Course.ofAct (inSession (Session.inDepot (Depot.inWorld (wait delay))) :
        Act Failure Interpreter Unit)).Keeps fun i i' => i.AtRest → i'.AtRest :=
      fun delay => .ofAct fun i h => ⟨h.deferred, hs delay _ h.time⟩
    have htaken : (inSession Session.takeScheduled i).2.AtRest := ⟨h.deferred, h.time⟩
    refine .bind_ofAct (inSession Session.takeScheduled) ?_
    refine Course.Meets.imp (Q := fun _ i' => AtRest i') ?_ fun _ _ h => h.deferred
    refine .of_keeps (.forM fun effect _ => (hwait effect.1).bind fun _ => ?_) (fun _ _ h => h) htaken
    exact (keeps_carryOut (R := Session.Patient) effect.2).mono fun _ _ hp h => h.of_patient hp
  | elapse change => exact h.deferred

end HostStep

namespace Interpreter

/-- The states that an interpreter comes to: after what a host does, and where a part outside submits a
line on the way. From step to step the parts outside, the store and the world may become anything. -/
inductive Reachable : Interpreter → Prop
  | start {session : Session} (none : session.deferred = []) : Reachable (start session)
  | step (s : HostStep) {i : Interpreter} (before : Reachable i) (time : i.ShowsTime)
      (waits : s.KeepsTime) : Reachable (s.run i)
  | inside (s : HostStep) {i : Interpreter} (before : Reachable i) (time : i.ShowsTime)
      (waits : s.KeepsTime) {t : Turn} (ht : t ∈ s.turns i) : Reachable t.start
  | outside (session : Session) {i : Interpreter} (before : Reachable i)
      (gate : session.gate = i.session.gate) (deferred : session.deferred = i.session.deferred) :
      Reachable { i with session }

/-- **In no state that an interpreter comes to does an effect of an earlier line wait.** -/
theorem Reachable.deferred_eq_nil {i : Interpreter} (h : i.Reachable) : i.session.deferred = [] := by
  induction h with
  | start none => exact none
  | step s before time waits ih =>
    exact (HostStep.meets_step waits ⟨ih, time⟩).run fun line _ => HostStep.atRest_answer line
  | inside s before time waits ht ih =>
    obtain ⟨call, hcall, ht⟩ := List.mem_flatMap.1 ht
    have hrest : call.2.AtRest := (HostStep.meets_step waits ⟨ih, time⟩).of_mem_calls
      (fun line _ => HostStep.atRest_answer line) hcall
    exact (Turn.atRest_start hrest ht).deferred
  | outside session before gate deferred ih => exact deferred.trans ih

end Interpreter

end VaultConsole
