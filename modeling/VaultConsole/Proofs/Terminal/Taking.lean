import VaultConsole.Proofs.Interpreter.Wide
import VaultConsole.Proofs.Interpreter.Nesting
import VaultConsole.Terminal.Full

/-!
# Lines at the terminal

At the terminal a line that is not blank clears what the interpreter holds as being typed, whatever
becomes of the line, and a blank line leaves it. For the latter the screen and the loop matter: they are
the terminal's own, and submit no lines.

* `Session.IsAtTerminal`: pages and exit are those of the terminal.
* `Interpreter.IsUntyped`: nothing is being typed.
* `Terminal.untyped_takeFull`, `Terminal.leaves_takeFull`: **what becomes of what is being typed when the
  terminal takes a line.**
-/

namespace VaultConsole

namespace Session

/-- Pages are shown on the screen, and the exit is that of the loop. -/
structure IsAtTerminal (s : Session) : Prop where
  navigator : ∃ leavesAtOverview, s.navigator = some (.screen leavesAtOverview)
  exit : s.exit = some .loop

/-- A session at the terminal stays there. -/
def StaysAtTerminal (s s' : Session) : Prop := s.IsAtTerminal → s'.IsAtTerminal

instance : Loose StaysAtTerminal where
  refl _ h := h
  trans _ _ _ h h' hs := h' (h hs)
  of_steady h hs := by
    rw [h.rest]
    exact ⟨hs.navigator, hs.exit⟩
  effects _ _ _ hs := ⟨hs.navigator, hs.exit⟩
  scheduler _ _ hs := ⟨hs.navigator, hs.exit⟩
  clipboard _ _ hs := ⟨hs.navigator, hs.exit⟩
  navigator s b b' h hs := by
    obtain ⟨leavesAtOverview, hscreen⟩ := hs.navigator
    rw [hscreen] at h
    cases h
  exit s b b' h hs := by
    rw [hs.exit] at h
    cases h
  stop _ hs := ⟨hs.navigator, hs.exit⟩

/-- The screen and the loop do their work silently. -/
theorem quiet_of_touch {s : Session} (h : s.IsAtTerminal) {effect : Effect} {reaction : Reaction}
    (hrun : (touch effect s).1 = .ok reaction) : reaction = .quiet := by
  cases effect with
  | navigate page =>
    obtain ⟨leavesAtOverview, hscreen⟩ := h.navigator
    change (showPage page s).1 = _ at hrun
    unfold showPage at hrun
    rw [Act.run_bind, Act.run_look, Act.after_ok, hscreen] at hrun
    simp only [Act.run_bind] at hrun
    rcases hshow : showOnScreen leavesAtOverview page s with ⟨failure | _, s'⟩ <;> rw [hshow] at hrun <;>
      cases hrun
    rfl
  | exit =>
    change (leave s).1 = _ at hrun
    unfold leave at hrun
    rw [Act.run_bind, Act.run_look, Act.after_ok, h.exit] at hrun
    cases hrun
    rfl

end Session

namespace Interpreter

/-- Nothing is being typed, and nothing is suggested. -/
structure IsUntyped (i : Interpreter) : Prop where
  buffer : i.buffer = []
  suggestions : i.suggestions = []

/-- What is being typed stays as it is, and a session at the terminal stays there. -/
structure Leaves (i i' : Interpreter) : Prop where
  buffer : i'.buffer = i.buffer
  suggestions : i'.suggestions = i.suggestions
  session : Session.StaysAtTerminal i.session i'.session

instance : Wide Session.StaysAtTerminal Leaves where
  refl _ := ⟨rfl, rfl, fun h => h⟩
  trans _ _ _ h h' :=
    ⟨h'.buffer.trans h.buffer, h'.suggestions.trans h.suggestions, fun hs => h'.session (h.session hs)⟩
  session _ _ hs := ⟨rfl, rfl, hs⟩
  answer _ _ _ := ⟨rfl, rfl, fun h => h⟩
  remember _ _ := ⟨rfl, rfl, fun h => h⟩

/-- If nothing is being typed this stays so, and a session at the terminal stays there. -/
structure Settles (i i' : Interpreter) : Prop where
  untyped : i.IsUntyped → i'.IsUntyped
  session : Session.StaysAtTerminal i.session i'.session

instance : Wide Session.StaysAtTerminal Settles where
  refl _ := ⟨fun h => h, fun h => h⟩
  trans _ _ _ h h' := ⟨fun hi => h'.untyped (h.untyped hi), fun hs => h'.session (h.session hs)⟩
  session _ _ hs := ⟨fun h => ⟨h.buffer, h.suggestions⟩, hs⟩
  answer _ _ _ := ⟨fun h => ⟨h.buffer, h.suggestions⟩, fun h => h⟩
  remember _ _ := ⟨fun h => ⟨h.buffer, h.suggestions⟩, fun h => h⟩

theorem Leaves.settles {i i' : Interpreter} (h : Leaves i i') : Settles i i' :=
  ⟨fun hi => ⟨h.buffer.trans hi.buffer, h.suggestions.trans hi.suggestions⟩, h.session⟩

theorem settles_announce (line : Text) : (announce line).Keeps Settles :=
  fun _ => ⟨fun _ => ⟨rfl, rfl⟩, fun h => h⟩

theorem settles_conclude (entry : Option Entry) : (conclude entry).Keeps Settles := by
  cases entry <;> exact fun _ => ⟨fun h => ⟨h.buffer, h.suggestions⟩, fun h => h⟩

theorem settles_answerAt (depth : Nat) (line : Text) : (answerAt depth line).Keeps Settles := by
  have hcourse : ∀ line, (course line).Keeps Settles := allows_course settles_announce settles_conclude
  cases depth with
  | zero => exact .pure _
  | succ depth =>
    intro i
    rw [answerAt, Act.snd_discard]
    exact keeps_submitNested hcourse depth line i

theorem settles_submit (line : Text) : (submit line).Keeps Settles := by
  intro i
  rw [submit_eq]
  exact (allows_course settles_announce settles_conclude line).run (settles_answerAt _) i

/-- A line that is not blank is no longer being typed, whatever becomes of it. -/
theorem untyped_submit {line : Text} (hline : line.strip ≠ []) (i : Interpreter) :
    (submit line i).2.IsUntyped := by
  rw [submit_eq, (leads_announce hline i).run_eq]
  have hrest : (do process line.strip; entriesSince i.log.size : Course Interpreter (List Entry)).Keeps
      Settles :=
    (allows_process (fun _ _ h => h) settles_conclude _).bind fun _ => .ofAct (.look _)
  exact (hrest.run (settles_answerAt _) _).untyped ⟨rfl, rfl⟩

/-- A blank line comes to nothing. -/
theorem submit_of_blank {line : Text} (hline : line.strip = []) (i : Interpreter) :
    submit line i = (.ok [], i) := by
  rw [submit_eq, course_of_blank hline]
  rfl

/-! ## Effects that the scheduler holds -/

theorem leaves_scheduledCourse {wait : Delay → Act Failure Interpreter Unit}
    (hwait : ∀ delay, (wait delay).Keeps Leaves) : (scheduledCourse wait).Keeps Leaves := by
  refine (Course.Keeps.ofAct (allows_inSession Session.lax_takeScheduled)).bind fun effects => ?_
  refine .forM fun effect _ => ?_
  exact (Course.Keeps.ofAct (hwait _)).bind fun _ => allows_carryOut _

theorem settles_runScheduled {wait : Delay → Act Failure Interpreter Unit}
    (hwait : ∀ delay, (wait delay).Keeps Leaves) : (runScheduled wait).Keeps Settles := by
  refine ((leaves_scheduledCourse hwait).mono fun _ _ h => h.settles).run fun line i => ?_
  rw [Act.snd_discard]
  exact settles_submit line i

/-- An effect at the terminal submits no lines. -/
theorem silent_carryOut {i : Interpreter} (h : i.session.IsAtTerminal) (effect : Effect) :
    (carryOut effect).Meets (fun _ => False) (fun _ _ => False) (fun _ i' => i'.session.IsAtTerminal) i := by
  have hstays : (inSession (Session.touch effect) i).2.session.IsAtTerminal :=
    Session.lax_touch (S := Session.StaysAtTerminal) effect i.session h
  refine Course.Meets.bind_ofAct _ ?_
  cases hrun : (inSession (Session.touch effect) i).1 with
  | error failure => exact hstays
  | ok reaction =>
    rw [Session.quiet_of_touch h hrun]
    exact hstays

theorem silent_scheduledCourse {i : Interpreter} (h : i.session.IsAtTerminal)
    {wait : Delay → Act Failure Interpreter Unit} (hwait : ∀ delay, (wait delay).Keeps Leaves) :
    (scheduledCourse wait).Meets (fun _ => False) (fun _ _ => False) (fun _ i' => i'.session.IsAtTerminal) i := by
  refine Course.Meets.bind_ofAct _ ?_
  have htaken : (inSession Session.takeScheduled i).2.session.IsAtTerminal := ⟨h.navigator, h.exit⟩
  generalize (inSession Session.takeScheduled i).2 = i' at htaken
  show Course.Meets _ _ _ (List.forM i.session.scheduled _) i'
  induction i.session.scheduled generalizing i' with
  | nil => exact htaken
  | cons effect rest ih =>
    refine Course.Meets.bind ?_
    refine Course.Meets.bind_ofAct _ ?_
    have hwaited := (hwait effect.1 i').session htaken
    cases (wait effect.1 i').1 with
    | error failure => exact hwaited
    | ok _ =>
      refine (silent_carryOut hwaited effect.2).imp fun result i'' hi'' => ?_
      cases result with
      | error failure => exact hi''
      | ok _ => exact ih i'' hi''

/-- At the terminal, what is being typed stays while effects are carried out. -/
theorem leaves_runScheduled {i : Interpreter} (h : i.session.IsAtTerminal)
    {wait : Delay → Act Failure Interpreter Unit} (hwait : ∀ delay, (wait delay).Keeps Leaves) :
    Leaves i (runScheduled wait i).2 := by
  have hsilent : (runScheduled wait i) = (scheduledCourse wait).run (fun _ => pure ()) i :=
    (silent_scheduledCourse h hwait).run_eq (fun _ => id) _ _
  rw [hsilent]
  exact (leaves_scheduledCourse hwait).run (fun _ => .pure ()) i

end Interpreter

/-! ## Taking a line -/

namespace Terminal

open Interpreter (Leaves Settles)

theorem leaves_inWorldOf (f : World → World) (i : Interpreter) : Leaves i (inWorldOf f i) :=
  ⟨rfl, rfl, fun h => ⟨h.navigator, h.exit⟩⟩

theorem leaves_sleep (delay : Delay) : (sleep delay).Keeps Leaves := by
  refine Act.Keeps.bind (fun i => leaves_inWorldOf _ i) fun _ => ?_
  split
  · exact fun i => leaves_inWorldOf _ i
  · exact .fail _

theorem leaves_printEntry (e : Entry) : (printEntry e).Keeps Leaves := by
  have hshow : ∀ zone, (Session.showEntry zone e).Keeps Session.StaysAtTerminal := by
    intro zone
    unfold Session.showEntry
    split
    · exact .settle _
    · refine Act.Keeps.bind ?_ fun snapshot => .settle _
      exact (Session.keeps_vaultsWith _).bind fun vaults => (Session.keeps_accountsWith _).bind fun _ => .pure _
  refine (Act.Keeps.look _).bind fun zone => (Interpreter.allows_inSession (hshow zone)).bind fun text => ?_
  exact Act.Keeps.bind (leaves_inWorldOf _) fun _ => leaves_inWorldOf _

/-- What comes once a line was answered: entries are printed, then effects follow. -/
theorem settles_answered (line : Text) (entries : List Entry) :
    (do
      let isEmptied ← Act.look fun i => !line.isBlank && i.log.size = 0
      if isEmptied then Act.change (inWorldOf (·.display .cleared))
      for e in entries do
        printEntry e
      Interpreter.runScheduled sleep : Act Failure Interpreter Unit).Keeps Settles := by
  have hprinted : (do
      for e in entries do
        printEntry e
      Interpreter.runScheduled sleep : Act Failure Interpreter Unit).Keeps Settles := by
    refine Act.Keeps.bind (.forIn fun e _ => ?_) fun _ => Interpreter.settles_runScheduled leaves_sleep
    exact ((leaves_printEntry e).mono fun _ _ h => h.settles).bind fun _ => .pure _
  refine (Act.Keeps.look _).bind fun isEmptied => .ite (Act.Keeps.bind ?_ fun _ => hprinted) hprinted
  exact fun i => (leaves_inWorldOf _ i).settles

theorem settles_takeFull (line : Text) :
    (takeFull line).Keeps Settles :=
  (Interpreter.settles_submit line).bind fun entries => settles_answered line entries

/-- **A line that is not blank is no longer being typed once the terminal has taken it**, whatever becomes
of it. -/
theorem untyped_takeFull {line : Text} (hline : line.isBlank = false) (i : Interpreter) :
    (takeFull line i).2.IsUntyped := by
  have hstrip : line.strip ≠ [] := by
    rw [Ne, Text.strip_eq_nil_iff, hline]
    exact Bool.false_ne_true
  have huntyped := Interpreter.untyped_submit hstrip i
  unfold takeFull
  rw [Act.run_bind]
  rcases hsubmit : Interpreter.submit line i with ⟨failure | entries, i'⟩ <;> rw [hsubmit] at huntyped
  · exact huntyped
  · exact (settles_answered line entries i').untyped huntyped

/-- **A blank line leaves what is being typed** at the terminal. -/
theorem leaves_takeFull {line : Text} (hline : line.isBlank = true) {i : Interpreter}
    (h : i.session.IsAtTerminal) : Leaves i (takeFull line i).2 := by
  unfold takeFull
  rw [Act.run_bind, Interpreter.submit_of_blank ((Text.strip_eq_nil_iff line).2 hline), Act.after_ok]
  simp only [hline]
  exact Interpreter.leaves_runScheduled h leaves_sleep

end Terminal

end VaultConsole
