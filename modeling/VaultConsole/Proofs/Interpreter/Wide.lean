import VaultConsole.Proofs.Interpreter.Deletion
import VaultConsole.Proofs.Session.Answering
import VaultConsole.Proofs.Session.Lax

/-!
# All that is done for a line

What is done for a line once it was announced changes the session, adds entries to the log and remembers
lines. Only the answer of a command that names records, or that empties the log, is more than that. So a
relation that allows those three, of entries that name no records, is kept to by nearly all of it.

* `Interpreter.Wide`: relations that allow these.
* `Interpreter.allows_execute`, `Interpreter.allows_handOver`, `Interpreter.allows_process`: what keeps
  to them.
* `HostStep.allows_step`: what a host does, where any change of the session is allowed.
-/

namespace VaultConsole

namespace Session

/-- Any two sessions. -/
def Anyhow (_ _ : Session) : Prop := True

instance : Loose Anyhow where
  refl _ := trivial
  trans _ _ _ _ _ := trivial
  of_steady _ := trivial
  effects _ _ _ := trivial
  clipboard _ _ := trivial
  navigator _ _ _ _ := trivial
  exit _ _ _ _ := trivial
  stop _ := trivial
  scheduler _ _ := trivial

end Session

namespace Interpreter

/-- A relation that allows changes of the session of a kind, an entry more that names no records, and a
line more in the history. Nothing else is done for a line once it was announced, but for the answer of
its command. -/
class Wide (S : outParam (Session → Session → Prop)) (R : Interpreter → Interpreter → Prop) :
    Prop extends Std.Refl R, IsTrans Interpreter R where
  session : ∀ i session, S i.session session → R i { i with session }
  answer : ∀ i entry, entry.payload = none → R i { i with log := i.log.append entry }
  remember : ∀ i line, R i { i with history := i.history.record line }

instance {S : Session → Session → Prop} [Std.Refl S] [IsTrans Session S] : Wide S (Along S) where
  session _ _ h := h
  answer i _ _ := Std.Refl.refl (r := S) i.session
  remember i _ := Std.Refl.refl (r := S) i.session

variable {S : Session → Session → Prop} {R : Interpreter → Interpreter → Prop} [wide : Wide S R]
include wide

theorem allows_inSession {α : Type} {act : Act Failure Session α} (h : act.Keeps S) :
    (inSession act).Keeps R := fun i => Wide.session i _ (h i.session)

theorem allows_answer {entry : Entry} (h : entry.payload = none) : (answer entry).Keeps R :=
  fun i => Wide.answer i entry h

theorem allows_remember (line : Text) : (remember line).Keeps R := fun i => Wide.remember i line

section
variable [Session.Lax S]

theorem allows_emit (severity : Severity) (name : Text) (fields : Table Text Json) :
    (emit severity name fields).Keeps R := allows_inSession (Session.lax_emit _ _ _)

theorem allows_report (l : Line) (failure : Failure) : (report l failure).Keeps R :=
  (Act.Keeps.settle _).bind fun _ => (allows_emit _ _ _).bind fun _ => allows_answer rfl

theorem allows_giveUp (l : Line) (failure : Failure) : (giveUp l failure).Keeps R :=
  (allows_inSession Session.lax_dropDeferred).bind fun _ => allows_report l failure

theorem allows_logCommand (l : Line) (entry : Option Entry) (started : Binary64) :
    (logCommand l entry started).Keeps R := (Act.Keeps.look _).bind fun _ => allows_emit _ _ _

theorem allows_carryOutDeletion (d : Deletion) : (carryOutDeletion d).Keeps R := by
  have hexecute := allows_inSession (R := R) (Session.lax_of_sound (Session.sound_executeDeletion d))
  have hyields : (inSession (Session.executeDeletion d)).Yields Entry.IsBare :=
    fun i entry he => Session.bare_executeDeletion d i.session entry he
  refine (hexecute.attemptUnless _).bind_of (hyields.attemptUnless _) fun result hresult => ?_
  cases result with
  | ok entry => exact allows_answer (hresult entry rfl).payload
  | error failure =>
    exact (Act.Keeps.settle _).bind fun _ =>
      .ite ((allows_emit _ _ _).bind fun _ => allows_answer rfl) (allows_answer rfl)

theorem allows_logDecision (d : Deletion) (decision : Decision) : (logDecision d decision).Keeps R :=
  (Act.Keeps.look _).bind fun _ => (Act.Keeps.settle _).bind fun _ =>
    (Act.Keeps.look _).bind fun _ => (Act.Keeps.settle _).bind fun _ => allows_emit _ _ _

theorem allows_answerGate (line : Text) : (answerGate line).Keeps R := by
  refine (Act.Keeps.look _).bind fun gate => ?_
  split
  · next decision d gate _ =>
    have hgate : ∀ i : Interpreter, R i (i.withGate gate) := by
      intro i
      exact Wide.session i _ (Session.Lax.of_steady ⟨Std.Refl.refl i.session.depot, rfl⟩)
    refine Act.Keeps.bind hgate fun _ => (allows_logDecision d decision).bind fun _ => ?_
    cases decision with
    | reject => exact allows_answer rfl
    | cancel => exact (allows_remember _).bind fun _ => allows_answer rfl
    | confirm => exact (allows_remember _).bind fun _ => allows_carryOutDeletion d
  · exact .pure _

theorem allows_carryOut (effect : Effect) : (carryOut effect).Keeps R :=
  (Course.Keeps.ofAct (allows_inSession (Session.lax_touch effect))).bind fun reaction =>
    .undergo reaction

/-- What the scheduler does with an effect is no further call of it. -/
theorem allows_make (effect : Effect) (move : Move) : (make effect move).Keeps R := by
  cases move with
  | submit line => exact .call line
  | carryOut => exact allows_carryOut effect
  | hold => exact .ofAct (allows_inSession (Session.lax_enqueue effect))

theorem allows_execute (l : Line) : (execute l).Keeps R := by
  refine (Course.Keeps.ofAct (allows_inSession (Session.lax_execute l))).bind fun reply => ?_
  cases reply with
  | entry entry => exact .pure _
  | cleared => exact .pure _
  | secret account echo =>
    refine Course.Keeps.bind ?_ fun account => .pure _
    exact .copySecret (fun account => allows_inSession (Session.lax_hold account))
      (fun text => allows_inSession (Session.lax_copy text))
      (fun account => allows_inSession (Session.lax_release account)) account

end

section
variable [Session.Loose S]

theorem allows_schedule (effect : Effect) : (schedule effect).Keeps R := by
  refine (Course.Keeps.ofAct (allows_inSession Session.loose_takeHandling)).bind fun handling => ?_
  exact (Course.Keeps.forM fun move _ => allows_make effect move).bind fun _ => .ending handling.failure

theorem allows_handOver : handOver.Keeps R :=
  (Course.Keeps.ofAct (allows_inSession Session.lax_takeDeferred)).bind fun _ =>
    .forM fun effect _ => allows_schedule effect

/-- Only the answer of a command may go beyond a wide relation. -/
theorem allows_wrapUp {Q : Interpreter → Interpreter → Prop} (hQ : ∀ i i', R i i' → Q i i')
    {entry : Option Entry} (hconclude : (conclude entry).Keeps Q) (l : Line) (started : Binary64) :
    (wrapUp l entry started).Keeps Q := by
  refine (Course.Keeps.ofAct hconclude).bind fun _ => ?_
  refine (Course.Keeps.ofAct ((allows_logCommand l entry started).mono hQ)).bind fun _ => ?_
  refine (allows_handOver.mono hQ).attemptUnlessInterrupted.bind fun result => ?_
  cases result with
  | error failure => exact .ofAct ((allows_report l failure).mono hQ)
  | ok _ => exact .pure _

theorem allows_dispatch {Q : Interpreter → Interpreter → Prop} (hQ : ∀ i i', R i i' → Q i i')
    (hconclude : ∀ entry, (conclude entry).Keeps Q) (l : Line) : (dispatch l).Keeps Q := by
  have hstarted : (inSession (Act.look Session.elapsed) : Act Failure Interpreter Binary64).Keeps R :=
    allows_inSession (Act.Keeps.look _)
  refine (Course.Keeps.ofAct (hstarted.mono hQ)).bind fun started => ?_
  refine ((allows_execute l).mono hQ).attemptUnlessInterrupted.bind fun result => ?_
  cases result with
  | error failure => exact .ofAct ((allows_giveUp l failure).mono hQ)
  | ok entry => exact allows_wrapUp hQ (hconclude entry) l started

/-- Only the announcement of a line and the answer of a command may go beyond a wide relation. -/
theorem allows_process {Q : Interpreter → Interpreter → Prop} (hQ : ∀ i i', R i i' → Q i i')
    (hconclude : ∀ entry, (conclude entry).Keeps Q) (line : Text) : (process line).Keeps Q := by
  have hawaits : (inSession (Act.look Session.isAwaiting) : Act Failure Interpreter Bool).Keeps R :=
    allows_inSession (Act.Keeps.look _)
  refine (Course.Keeps.ofAct (hawaits.mono hQ)).bind fun awaits => ?_
  split
  · exact .ofAct ((allows_answerGate line).mono hQ)
  · split
    · next l _ =>
      exact (Course.Keeps.ofAct ((allows_remember line).mono hQ)).bind fun _ =>
        allows_dispatch hQ hconclude l
    · exact .pure _

/-- What is done for a line keeps to a wide relation if its announcement and the answers of commands
do. -/
theorem allows_course (hannounce : ∀ line, (announce line).Keeps R)
    (hconclude : ∀ entry, (conclude entry).Keeps R) (line : Text) : (course line).Keeps R := by
  unfold course
  simp only
  split
  · exact .pure _
  · refine (Course.Keeps.ofAct (hannounce _)).bind fun start => ?_
    exact (allows_process (fun _ _ h => h) hconclude _).bind fun _ => .ofAct (Act.Keeps.look _)

end

end Interpreter

open Interpreter

/-- What a host does keeps to a wide relation that allows any change of the session, if what is done to
the line that is being typed does. -/
theorem HostStep.allows_step {R : Interpreter → Interpreter → Prop} [Wide Session.Anyhow R]
    (hedit : ∀ i text, R i (Interpreter.setBuffer text i))
    (hrecall : ∀ i step, R i (Interpreter.recallBy step i))
    (hcomplete : ∀ i, R i (Interpreter.complete i)) (s : HostStep) : s.course.Keeps R := by
  have hsession : ∀ {α : Type} (act : Act Failure Session α), (inSession act).Keeps R :=
    fun act => allows_inSession fun _ => trivial
  cases s with
  | submit line => exact .call line
  | submitBuffer => exact (Course.Keeps.ofAct (Act.Keeps.look _)).bind fun line => .call line
  | edit text => exact .ofAct fun i => hedit i text
  | recallPrevious => exact .ofAct fun i => hrecall i History.previous
  | recallNext => exact .ofAct fun i => hrecall i History.next
  | complete => exact .ofAct hcomplete
  | runScheduled wait =>
    refine (Course.Keeps.ofAct (hsession _)).bind fun effects => .forM fun effect _ => ?_
    exact (Course.Keeps.ofAct (hsession _)).bind fun _ => allows_carryOut _
  | elapse change => exact .ofAct (hsession _)

end VaultConsole
