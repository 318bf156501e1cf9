import VaultConsole.Proofs.Interpreter.Reachable
import VaultConsole.Proofs.Session.Mute

/-!
# Lines that are answered without calls back

Where no part outside submits lines, none comes in while a line is answered, and this stays so from line
to line. Parts outside may fail on the way in any way.

* `Interpreter.Mutes`: courses of mute parts outside.
* `Interpreter.mutes_course`: what is done for a line is such a course.
* `Interpreter.calls_eq_nil`, `HostStep.isMute_sequence`: **no line comes in while another is answered,
  be it the first or any later one.**
-/

namespace VaultConsole

namespace Interpreter

open Session (Muted)

/-- A course that submits no lines where all parts outside are mute, and leaves them so. -/
def Mutes {α : Type} (c : Course Interpreter α) : Prop :=
  ∀ i : Interpreter, i.session.IsMute →
    c.Meets (fun _ => False) (fun _ _ => False) (fun _ i' => i'.session.IsMute) i

section
variable {α β : Type} {P : α → Prop}

theorem mutes_done (result : Except Failure α) : Mutes (.done result) := fun _ hi => hi

theorem mutes_pure (a : α) : Mutes (pure a) := mutes_done (.ok a)

/-- Acts that leave the parts outside alone. -/
theorem mutes_of_keeps {act : Act Failure Interpreter α} (h : act.Keeps (Along Muted)) :
    Mutes (.ofAct act) := fun i hi => h i hi

theorem Mutes.proceed {c : Course Interpreter α} {next : Except Failure α → Course Interpreter β}
    (h : Mutes c) (hnext : ∀ result, Mutes (next result)) : Mutes (c.proceed next) := fun i hi =>
  .proceed ((h i hi).imp fun result i' hmute => hnext result i' hmute)

theorem Mutes.bind {c : Course Interpreter α} {next : α → Course Interpreter β} (h : Mutes c)
    (hnext : ∀ a, Mutes (next a)) : Mutes (c >>= next) := by
  refine h.proceed fun result => ?_
  cases result with
  | ok a => exact hnext a
  | error failure => exact mutes_done _

/-- What comes after an act on the session, of which the value is known. -/
theorem mutes_after {act : Act Failure Session α} {next : α → Course Interpreter β}
    (h : Session.Mutes P act) (hnext : ∀ a, P a → Mutes (next a)) :
    Mutes (do next (← inSession act)) := by
  intro i hi
  obtain ⟨hmute, hvalue⟩ := h i.session hi
  refine .bind_ofAct (inSession act) ?_
  cases hresult : (inSession act i).1 with
  | ok a => exact hnext a (hvalue a hresult) _ hmute
  | error failure => exact hmute

theorem Mutes.attemptUnlessInterrupted {c : Course Interpreter α} (h : Mutes c) :
    Mutes c.attemptUnlessInterrupted := by
  refine h.proceed fun result => ?_
  cases result with
  | ok a => exact mutes_pure _
  | error failure =>
    simp only
    split <;> exact mutes_done _

theorem mutes_forM {items : List α} {f : α → Course Interpreter PUnit}
    (h : ∀ a ∈ items, Mutes (f a)) : Mutes (items.forM f) := by
  induction items with
  | nil => exact mutes_pure _
  | cons a rest ih =>
    exact (h a List.mem_cons_self).bind fun _ => ih fun b hb => h b (List.mem_cons_of_mem a hb)

end

/-! ## Calls of parts outside -/

theorem mutes_ending (failure : Option Failure) : Mutes (Course.ending failure) := by
  cases failure <;> exact mutes_done _

theorem mutes_undergo {reaction : Reaction} (h : reaction.IsMute) :
    Mutes (Course.undergo reaction) := by
  have hnone : reaction.resubmits = [] := h
  unfold Course.undergo
  rw [hnone]
  exact mutes_ending reaction.failure

theorem mutes_carryOut (effect : Effect) : Mutes (carryOut effect) :=
  mutes_after (Session.mutes_touch effect) fun _ => mutes_undergo

theorem mutes_schedule (effect : Effect) : Mutes (schedule effect) := by
  refine mutes_after Session.mutes_takeHandling fun handling hhandling => ?_
  refine (mutes_forM fun move hmove => ?_).bind fun _ => mutes_ending handling.failure
  cases move with
  | submit line => exact absurd hmove (hhandling line)
  | carryOut => exact mutes_carryOut effect
  | hold => exact mutes_of_keeps (keeps_inSession (Session.muted_enqueue effect))

theorem mutes_handOver : Mutes handOver :=
  (mutes_of_keeps (keeps_inSession Session.muted_takeDeferred)).bind fun _ =>
    mutes_forM fun effect _ => mutes_schedule effect

theorem mutes_copySecret (account : Account) : Mutes (copySecret account) := by
  have hcopy : Mutes (do
      Course.undergo (← inSession (Session.copy account.password)) : Course Interpreter Unit) :=
    mutes_after (Session.mutes_copy _) fun _ => mutes_undergo
  refine (mutes_of_keeps (keeps_inSession (Session.muted_hold _))).bind fun _ => ?_
  refine (hcopy.proceed fun _ => mutes_done _).bind fun copied => ?_
  refine (mutes_of_keeps (keeps_inSession (Session.muted_release _))).bind fun released => ?_
  exact (mutes_done copied).bind fun _ => mutes_pure _

theorem mutes_execute (l : Line) : Mutes (execute l) := by
  refine (mutes_of_keeps (keeps_inSession (Session.muted_execute l))).bind fun reply => ?_
  cases reply with
  | entry entry => exact mutes_pure _
  | cleared => exact mutes_pure _
  | secret account echo => exact (mutes_copySecret account).bind fun _ => mutes_pure _

/-! ## Answers -/

theorem muted_emit (severity : Severity) (name : Text) (fields : Table Text Json) :
    (emit severity name fields).Keeps (Along Muted) :=
  (keeps_inSession (Session.sound_emit severity name fields).keeps).mono fun _ _ h => h.muted

theorem muted_report (l : Line) (failure : Failure) : (report l failure).Keeps (Along Muted) :=
  (Act.Keeps.settle _).bind fun _ => (muted_emit _ _ _).bind fun _ => keeps_answer _

theorem muted_carryOutDeletion (d : Deletion) : (carryOutDeletion d).Keeps (Along Muted) := by
  have hexecute : (inSession (Session.executeDeletion d)).Keeps (Along Muted) :=
    (keeps_inSession (Session.sound_executeDeletion d).keeps).mono fun _ _ h => h.muted
  refine (hexecute.attemptUnless _).bind fun result => ?_
  cases result with
  | ok entry => exact keeps_answer entry
  | error failure =>
    exact (Act.Keeps.settle _).bind fun _ =>
      .ite ((muted_emit _ _ _).bind fun _ => keeps_answer _) (keeps_answer _)

theorem muted_logDecision (d : Deletion) (decision : Decision) :
    (logDecision d decision).Keeps (Along Muted) :=
  (Act.Keeps.look _).bind fun _ => (Act.Keeps.settle _).bind fun _ =>
    (Act.Keeps.look _).bind fun _ => (Act.Keeps.settle _).bind fun _ => muted_emit _ _ _

theorem muted_answerGate (line : Text) : (answerGate line).Keeps (Along Muted) := by
  refine (Act.Keeps.look _).bind fun gate => ?_
  split
  · next decision d gate _ =>
    have hgate : ∀ i : Interpreter, Along Muted i (i.withGate gate) :=
      fun _ hi => ⟨hi.navigator, hi.exit, hi.clipboard, hi.scheduler⟩
    refine Act.Keeps.bind hgate fun _ => (muted_logDecision d decision).bind fun _ => ?_
    cases decision with
    | reject => exact keeps_answer _
    | cancel => exact (keeps_remember _).bind fun _ => keeps_answer _
    | confirm => exact (keeps_remember _).bind fun _ => muted_carryOutDeletion d
  · exact .pure _

/-! ## Lines -/

theorem mutes_wrapUp (l : Line) (entry : Option Entry) (started : Binary64) :
    Mutes (wrapUp l entry started) := by
  have hlog : (logCommand l entry started).Keeps (Along Muted) :=
    (Act.Keeps.look _).bind fun _ => muted_emit _ _ _
  refine (mutes_of_keeps (keeps_conclude entry)).bind fun _ => (mutes_of_keeps hlog).bind fun _ => ?_
  refine mutes_handOver.attemptUnlessInterrupted.bind fun result => ?_
  cases result with
  | ok _ => exact mutes_pure _
  | error failure => exact mutes_of_keeps (muted_report l failure)

theorem mutes_dispatch (l : Line) : Mutes (dispatch l) := by
  refine (mutes_of_keeps (keeps_inSession (.look _))).bind fun started => ?_
  refine (mutes_execute l).attemptUnlessInterrupted.bind fun result => ?_
  cases result with
  | ok entry => exact mutes_wrapUp l entry started
  | error failure =>
    have hdrop : (Act.change Session.dropDeferred : Act Failure Session Unit).Keeps Muted :=
      fun _ hs => ⟨hs.navigator, hs.exit, hs.clipboard, hs.scheduler⟩
    exact mutes_of_keeps ((keeps_inSession hdrop).bind fun _ => muted_report l failure)

/-- **What is done for a line submits no lines where all parts outside are mute, and leaves them so.** -/
theorem mutes_course (line : Text) : Mutes (course line) := by
  unfold course
  simp only
  split
  · exact mutes_pure _
  · refine (mutes_of_keeps (keeps_announce _)).bind fun start => ?_
    have hprocess : Mutes (process line.strip) := by
      refine (mutes_of_keeps (keeps_inSession (.look _))).bind fun awaits => ?_
      split
      · exact mutes_of_keeps (muted_answerGate _)
      · split
        · exact (mutes_of_keeps (keeps_remember _)).bind fun _ => mutes_dispatch _
        · exact mutes_pure _
    exact hprocess.bind fun _ => mutes_of_keeps (keeps_entriesSince start)

variable {i : Interpreter}

/-- No line comes in while another is answered. -/
theorem calls_eq_nil (h : i.session.IsMute) (line : Text) (answer : Text → Act Failure Interpreter Unit) :
    (course line).calls answer i = [] :=
  List.eq_nil_iff_forall_not_mem.2 fun _ hcall =>
    (mutes_course line i h).of_mem_calls (fun _ _ hfalse => hfalse.elim) hcall

theorem isMute_submit (h : i.session.IsMute) (line : Text) : (submit line i).2.session.IsMute := by
  rw [submit_eq]
  exact (mutes_course line i h).run fun _ _ hfalse => hfalse.elim

end Interpreter

/-- Parts outside that are mute stay so from line to line. -/
theorem HostStep.isMute_sequence (lines : List Text) {i : Interpreter} (h : i.session.IsMute) :
    (sequence (lines.map .submit) i).session.IsMute := by
  induction lines generalizing i with
  | nil => exact h
  | cons line rest ih =>
    have hmute : (run (submit line) i).session.IsMute := by
      rw [run_submit]
      exact Interpreter.isMute_submit h line
    exact ih hmute

end VaultConsole
