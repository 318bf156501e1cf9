import VaultConsole.Proofs.Interpreter.Deletion
import VaultConsole.Proofs.Terminal.Taking

/-!
# The line editor and the interpreter

There are two copies of the line that is being typed: the text in the editor, and what the interpreter
holds. The interpreter hears of the editor's text when that changes, and a key puts the interpreter's
text into the editor. But when a prompt opens the editor is emptied, and of this the interpreter does
not hear. So from then on until a text comes into the editor, the interpreter holds what was given up
before: by an interruption, by a failure of the terminal, or for a blank line.

* `Moment`: a moment at which a prompt is open, with what was given up before.
* `Moment.typed`: what the interpreter takes to be typed.
* `Terminal.moments`: the moments of a run; `Terminal.glances_run`: what the user sees at them.
* `Moment.kept_after`: an input leaves the interpreter with what is typed.
* `Terminal.inStep_iff`: **when the editor and the interpreter are in step.**
-/

namespace VaultConsole

/-- An input with which a line goes on. -/
def Input.goesOn : Input → Bool
  | .types _ | .presses _ | .waits _ => true
  | .enters _ | .accepts | .fails _ => false

/-- A moment at which a prompt is open. -/
structure Moment where
  dialogue : Dialogue Interpreter
  /-- What was typed before the prompt opened, and never taken as a line. -/
  abandoned : Text
  /-- Whether a text came into the editor, or a key was pressed, since the prompt opened. -/
  touched : Bool

namespace Moment

/-- What is being typed, as the interpreter has heard it. -/
def typed (m : Moment) : Text := if m.touched then m.dialogue.editor else m.abandoned

/-- What stands below the line. -/
def toolbar (m : Moment) : Text := Terminal.suggestionBar m.dialogue.state.suggestions

/-- What the user sees. -/
def glance (m : Moment) : Glance := ⟨some m.dialogue.editor, m.toolbar⟩

/-- Whether an input brings a text into the editor. -/
def touchedBy (m : Moment) : Input → Bool
  | .types text => text != m.dialogue.editor
  | .presses _ => true
  | _ => false

variable (p : Partner Interpreter)

/-- What stands in the editor once Tab is pressed. -/
def tabbed (m : Moment) : Text := (m.dialogue.handle p (.presses .tab)).editor

/-- The moment after an input with which the line goes on; `rest` are the inputs that are left. -/
def after (input : Input) (rest : List Input) (m : Moment) : Moment :=
  { dialogue := (Dialogue.glance p ({ m.dialogue with inputs := rest }.handle p input)).2
    abandoned := m.abandoned
    touched := m.touched || m.touchedBy input }

/-- The moments of a line, from one of them on. -/
def line : List Input → Moment → List Moment
  | [], m => [m]
  | input :: rest, m => if input.goesOn then m :: line rest (m.after p input rest) else [m]

/-- The last moment of a line. -/
def last : List Input → Moment → Moment
  | [], m => m
  | input :: rest, m => if input.goesOn then last rest (m.after p input rest) else m

end Moment

namespace Dialogue

/-- A dialogue in which a prompt was just opened. -/
def opened (p : Partner Interpreter) (d : Dialogue Interpreter) : Dialogue Interpreter :=
  { d with editor := [], prompts := d.prompts ++ [p.prompt] }

end Dialogue

namespace Terminal

variable (p : Partner Interpreter)

/-- The moment at which a prompt opens. -/
def opening (abandoned : Text) (d : Dialogue Interpreter) : Moment := ⟨d.opened p, abandoned, false⟩

/-- What was typed and never taken as a line when the next prompt opens: a line that is not blank is
taken, and with it all that was typed. -/
def givenUp (abandoned : Text) (d : Dialogue Interpreter) : Text :=
  let typed := (Moment.last p d.inputs (opening p abandoned d)).typed
  match (Dialogue.ask p d).1 with
  | .ok line => if line.isBlank then typed else []
  | .error _ => typed

/-- The moments of at most so many lines, line by line. -/
def sittings : (lines : Nat) → (abandoned : Text) → Dialogue Interpreter → List (List Moment)
  | 0, _, _ => []
  | lines + 1, abandoned, d =>
    if p.isRunning d.state then
      Moment.line p d.inputs (opening p abandoned d) ::
        match Dialogue.step p d with
        | (true, d') => sittings lines (givenUp p abandoned d) d'
        | (false, _) => []
    else []

/-- The moments of a run at which a prompt is open. -/
def moments (d : Dialogue Interpreter) : List Moment :=
  (sittings p (d.inputs.length + 1) [] d).flatten

end Terminal

namespace Interpreter

/-- Nothing is suggested, or what is fit for what is being typed. -/
def SuggestsFit (i : Interpreter) : Prop :=
  i.suggestions = [] ∨ i.suggestions = Suggestion.list i.buffer

theorem suggestsFit_recallBy {i : Interpreter} (h : i.SuggestsFit)
    (step : History → Option Text × History) : (i.recallBy step).SuggestsFit := by
  unfold recallBy
  rcases step i.history with ⟨_ | text, history⟩
  · exact h
  · exact .inr rfl

theorem suggestsFit_of_leaves {i i' : Interpreter} (h : i.SuggestsFit) (hleaves : Leaves i i') :
    i'.SuggestsFit := by
  unfold SuggestsFit
  rw [hleaves.suggestions, hleaves.buffer]
  exact h

end Interpreter

namespace Terminal

/-- A key puts into the editor what the interpreter takes to be typed, and that suggests what is fit. -/
theorem pressedFull_spec (key : Key) {i : Interpreter} (h : i.SuggestsFit) :
    (pressedFull key i).1 = some (pressedFull key i).2.buffer ∧ (pressedFull key i).2.SuggestsFit ∧
      (pressedFull key i).2.session = i.session := by
  cases key with
  | up => exact ⟨rfl, Interpreter.suggestsFit_recallBy h _, Interpreter.session_recallBy _ i⟩
  | down => exact ⟨rfl, Interpreter.suggestsFit_recallBy h _, Interpreter.session_recallBy _ i⟩
  | tab => exact ⟨rfl, .inl rfl, rfl⟩

end Terminal

namespace Moment

open Interpreter (Leaves)
open Terminal (full)

/-- The interpreter holds what is typed, and suggests what is fit for it, if anything. -/
structure Kept (m : Moment) : Prop where
  buffer : m.dialogue.state.buffer = m.typed
  suggestions : m.dialogue.state.SuggestsFit
  /-- Until a text comes into the editor there is none. -/
  editor : m.touched = false → m.dialogue.editor = []
  session : m.dialogue.state.session.IsAtTerminal

variable {username : Text}

/-- When a text has come into the editor the interpreter holds it: it hears of it, or the text is there
already. -/
theorem kept_edit {d : Dialogue Interpreter} {text : Text} (glances : List Glance) (abandoned : Text)
    (hsession : d.state.session.IsAtTerminal)
    (hsame : d.editor = text → d.state.buffer = text ∧ d.state.SuggestsFit) :
    Kept ⟨{ d.edit (full username) text with glances }, abandoned, true⟩ := by
  unfold Dialogue.edit
  by_cases htext : d.editor = text
  · obtain ⟨hbuffer, hsuggests⟩ := hsame htext
    rw [if_pos htext]
    exact ⟨hbuffer.trans htext.symm, hsuggests, fun h => (by cases h), hsession⟩
  · rw [if_neg htext]
    exact ⟨rfl, .inr rfl, fun h => (by cases h), hsession⟩

/-- **An input leaves the interpreter with what is typed.** -/
theorem kept_after {m : Moment} (h : m.Kept) {input : Input} (hinput : input.goesOn = true)
    (rest : List Input) : (m.after (full username) input rest).Kept := by
  cases input with
  | types text =>
    by_cases htext : text = m.dialogue.editor
    · -- nothing changes, and nothing is heard of
      have hsame : m.touchedBy (.types text) = false := by simp [touchedBy, htext]
      have hedit : { m.dialogue with inputs := rest }.edit (full username) text =
          { m.dialogue with inputs := rest } := if_pos htext.symm
      unfold after
      rw [hsame, Bool.or_false, Dialogue.handle, hedit]
      exact ⟨h.buffer, h.suggestions, h.editor, h.session⟩
    · have hheard : (m.touched || m.touchedBy (.types text)) = true := by simp [touchedBy, htext]
      unfold after
      rw [hheard]
      exact kept_edit _ m.abandoned h.session fun hsame => absurd hsame.symm htext
  | presses key =>
    obtain ⟨htext, hsuggests, hsession⟩ := Terminal.pressedFull_spec key h.suggestions
    have hheard : (m.touched || m.touchedBy (.presses key)) = true := Bool.or_true _
    have hhandle : { m.dialogue with inputs := rest }.handle (full username) (.presses key) =
        { m.dialogue with inputs := rest, state := (Terminal.pressedFull key m.dialogue.state).2 }.edit
          (full username) (Terminal.pressedFull key m.dialogue.state).2.buffer := by
      simp only [Dialogue.handle, full, htext]
    unfold after
    rw [hheard, hhandle]
    refine kept_edit _ m.abandoned ?_ fun _ => ⟨rfl, hsuggests⟩
    rw [hsession]
    exact h.session
  | waits seconds =>
    have hsame : m.touchedBy (.waits seconds) = false := rfl
    unfold after
    rw [hsame, Bool.or_false]
    exact ⟨h.buffer, h.suggestions, h.editor, (Terminal.leaves_inWorldOf _ _).session h.session⟩
  | enters line => cases hinput
  | accepts => cases hinput
  | fails failure => cases hinput

theorem kept_of_mem_line {inputs : List Input} {m m' : Moment} (h : m.Kept)
    (hm : m' ∈ m.line (full username) inputs) : m'.Kept := by
  induction inputs generalizing m with
  | nil =>
    rw [line, List.mem_singleton] at hm
    rw [hm]
    exact h
  | cons input rest ih =>
    rw [line] at hm
    split at hm
    · next hinput =>
      rcases List.mem_cons.1 hm with rfl | hm
      · exact h
      · exact ih (kept_after h hinput rest) hm
    · rw [List.mem_singleton.1 hm]
      exact h

theorem last_mem_line (p : Partner Interpreter) (inputs : List Input) (m : Moment) :
    m.last p inputs ∈ m.line p inputs := by
  induction inputs generalizing m with
  | nil => exact List.mem_singleton_self m
  | cons input rest ih =>
    rw [last, line]
    split
    · exact List.mem_cons_of_mem m (ih _)
    · exact List.mem_singleton_self m

variable (username) in
/-- A line is read at the last of its moments. -/
theorem readLine_eq (inputs : List Input) (m : Moment) :
    ∃ result left, Dialogue.readLine (full username) inputs m.dialogue =
      (result, { (m.last (full username) inputs).dialogue with inputs := left }) := by
  induction inputs generalizing m with
  | nil => exact ⟨_, [], rfl⟩
  | cons input rest ih =>
    cases input with
    | enters line => exact ⟨.ok line, rest, rfl⟩
    | accepts => exact ⟨.ok m.dialogue.editor, rest, rfl⟩
    | fails failure => exact ⟨.error failure, rest, rfl⟩
    | types text => exact ih (m.after (full username) (.types text) rest)
    | presses key => exact ih (m.after (full username) (.presses key) rest)
    | waits seconds => exact ih (m.after (full username) (.waits seconds) rest)

end Moment

namespace Terminal

open Interpreter (Leaves)

variable {username : Text}

/-- Between lines the interpreter holds what was given up. -/
structure Between (abandoned : Text) (d : Dialogue Interpreter) : Prop where
  buffer : d.state.buffer = abandoned
  suggestions : d.state.SuggestsFit
  session : d.state.session.IsAtTerminal

theorem kept_opening {abandoned : Text} {d : Dialogue Interpreter} (h : Between abandoned d)
    (p : Partner Interpreter) : (opening p abandoned d).Kept :=
  ⟨h.buffer, h.suggestions, fun _ => rfl, h.session⟩

theorem Between.of_leaves {abandoned : Text} {d d' : Dialogue Interpreter} (h : Between abandoned d)
    (hleaves : Leaves d.state d'.state) : Between abandoned d' :=
  ⟨hleaves.buffer.trans h.buffer, Interpreter.suggestsFit_of_leaves h.suggestions hleaves,
    hleaves.session h.session⟩

/-- A failure is told on the screen, if it has words. -/
theorem leaves_report (failure : Failure) (d : Dialogue Interpreter) :
    Leaves d.state (d.report (full username) failure).state := by
  unfold Dialogue.report
  split
  · exact leaves_inWorldOf _ _
  · exact leaves_inWorldOf _ _
  · cases failure.words with
    | ok words => exact leaves_inWorldOf _ _
    | error cause => exact Std.Refl.refl d.state

variable (username) in
/-- What becomes of a line once it was read. -/
theorem between_take {m : Moment} (h : m.Kept) (line : Text) (left : List Input) :
    Between (if line.isBlank then m.typed else [])
      (Dialogue.inState ((full username).take line)
        { m.dialogue with inputs := left }).2 := by
  show Between _ { m.dialogue with inputs := left, state := (takeFull line m.dialogue.state).2 }
  cases hline : line.isBlank with
  | true =>
    have hleaves := leaves_takeFull hline h.session
    have hbefore : Between m.typed m.dialogue := ⟨h.buffer, h.suggestions, h.session⟩
    exact hbefore.of_leaves hleaves
  | false =>
    have huntyped := untyped_takeFull hline m.dialogue.state
    have hsettles := settles_takeFull line m.dialogue.state
    exact ⟨huntyped.buffer, .inl huntyped.suggestions, hsettles.session h.session⟩

variable (username) in
/-- A line that is asked for is read at the last of its moments. -/
theorem ask_eq (abandoned : Text) (d : Dialogue Interpreter) :
    ∃ result left, Dialogue.ask (full username) d =
      (result, { (Moment.last (full username) d.inputs
        (opening (full username) abandoned d)).dialogue with inputs := left }) :=
  Moment.readLine_eq username d.inputs (opening (full username) abandoned d)

/-- **From one line to the next** the interpreter holds what was given up. -/
theorem between_step {abandoned : Text} {d : Dialogue Interpreter} (h : Between abandoned d) :
    Between (givenUp (full username) abandoned d)
      (Dialogue.step (full username) d).2 := by
  have hkept : (Moment.last (full username) d.inputs
      (opening (full username) abandoned d)).Kept :=
    Moment.kept_of_mem_line (kept_opening h _) (Moment.last_mem_line _ _ _)
  obtain ⟨result, left, hask⟩ := ask_eq username abandoned d
  unfold givenUp Dialogue.step Dialogue.exchange
  rw [Act.run_bind, hask]
  generalize Moment.last (full username) d.inputs
    (opening (full username) abandoned d) = m at hkept
  cases result with
  | error failure =>
    have hbefore : Between m.typed { m.dialogue with inputs := left } :=
      ⟨hkept.buffer, hkept.suggestions, hkept.session⟩
    exact hbefore.of_leaves (leaves_report failure _)
  | ok line =>
    have htaken := between_take username hkept line left
    rw [Act.after_ok]
    rcases hrun : Dialogue.inState ((full username).take line)
      { m.dialogue with inputs := left } with ⟨failure | _, d'⟩ <;> rw [hrun] at htaken
    · exact htaken.of_leaves (leaves_report failure d')
    · exact htaken

theorem kept_of_mem_sittings {lines : Nat} {abandoned : Text} {d : Dialogue Interpreter}
    (h : Between abandoned d) {ms : List Moment} {m : Moment}
    (hms : ms ∈ sittings (full username) lines abandoned d) (hm : m ∈ ms) : m.Kept := by
  induction lines generalizing abandoned d with
  | zero => cases hms
  | succ lines ih =>
    rw [sittings] at hms
    split at hms
    · have hstep : Between (givenUp (full username) abandoned d)
          (Dialogue.step (full username) d).2 := between_step h
      rcases List.mem_cons.1 hms with rfl | hms
      · exact Moment.kept_of_mem_line (kept_opening h _) hm
      · rcases hrun : Dialogue.step (full username) d with ⟨_ | _, d'⟩ <;> rw [hrun] at hms hstep
        · cases hms
        · exact ih hstep hms
    · cases hms

/-! ## What the user sees -/

theorem line_eq_cons (p : Partner Interpreter) (inputs : List Input) (m : Moment) :
    m.line p inputs = m :: (m.line p inputs).tail := by
  cases inputs with
  | nil => rfl
  | cons input rest =>
    rw [Moment.line]
    split <;> rfl

theorem glances_edit (p : Partner Interpreter) (text : Text) (d : Dialogue Interpreter) :
    (d.edit p text).glances = d.glances := by
  unfold Dialogue.edit
  split <;> rfl

theorem glances_handle (p : Partner Interpreter) (input : Input) (d : Dialogue Interpreter) :
    (d.handle p input).glances = d.glances := by
  cases input with
  | types text => exact glances_edit p text d
  | presses key =>
    unfold Dialogue.handle
    simp only
    split
    · exact glances_edit p _ _
    · rfl
  | _ => rfl

/-- After each input with which a line goes on the user looks at the screen. -/
theorem glances_last (inputs : List Input) (m : Moment) :
    (m.last (full username) inputs).dialogue.glances =
      m.dialogue.glances ++ (m.line (full username) inputs).tail.map Moment.glance := by
  induction inputs generalizing m with
  | nil => exact (List.append_nil _).symm
  | cons input rest ih =>
    rw [Moment.last, Moment.line]
    split
    · have hlook : (m.after (full username) input rest).dialogue.glances =
          m.dialogue.glances ++ [(m.after (full username) input rest).glance] := by
        have hhandle := glances_handle (full username) input
          { m.dialogue with inputs := rest }
        exact congrArg (· ++ [(m.after (full username) input rest).glance]) hhandle
      have hcons := line_eq_cons (full username) rest
        (m.after (full username) input rest)
      rw [ih, hlook, List.tail_cons, hcons, List.map_cons, List.append_assoc]
      rfl
    · exact (List.append_nil _).symm

theorem glances_report (p : Partner Interpreter) (failure : Failure) (d : Dialogue Interpreter) :
    (d.report p failure).glances = d.glances := by
  unfold Dialogue.report
  split
  · rfl
  · rfl
  · cases failure.words <;> rfl

variable (username) in
/-- During a line the user sees what its moments after the first one show. -/
theorem glances_step (abandoned : Text) (d : Dialogue Interpreter) :
    (Dialogue.step (full username) d).2.glances = d.glances ++
      (Moment.line (full username) d.inputs
        (opening (full username) abandoned d)).tail.map Moment.glance := by
  have hlast : (Moment.last (full username) d.inputs
      (opening (full username) abandoned d)).dialogue.glances = d.glances ++
        (Moment.line (full username) d.inputs
          (opening (full username) abandoned d)).tail.map Moment.glance := glances_last _ _
  obtain ⟨result, left, hask⟩ := ask_eq username abandoned d
  rw [← hlast]
  unfold Dialogue.step Dialogue.exchange
  rw [Act.run_bind, hask]
  generalize Moment.last (full username) d.inputs
    (opening (full username) abandoned d) = m
  cases result with
  | error failure => exact glances_report _ failure _
  | ok line =>
    rw [Act.after_ok]
    have hkeep : (Dialogue.inState ((full username).take line)
        { m.dialogue with inputs := left }).2.glances = m.dialogue.glances := rfl
    rcases hrun : Dialogue.inState ((full username).take line)
      { m.dialogue with inputs := left } with ⟨failure | _, d'⟩ <;> rw [hrun] at hkeep
    · exact (glances_report _ failure d').trans hkeep
    · exact hkeep

/-- What the user sees in so many lines. -/
theorem glances_converse (lines : Nat) (abandoned : Text) (d : Dialogue Interpreter) :
    (Dialogue.converse (full username) lines d).glances = d.glances ++
      (sittings (full username) lines abandoned d).flatMap fun ms =>
        ms.tail.map Moment.glance := by
  induction lines generalizing abandoned d with
  | zero => exact (List.append_nil _).symm
  | succ lines ih =>
    rw [Dialogue.converse, sittings]
    split
    · have hstep := glances_step username abandoned d
      rw [List.flatMap_cons, ← List.append_assoc]
      rcases hrun : Dialogue.step (full username) d with ⟨_ | _, d'⟩ <;> rw [hrun] at hstep
      · exact hstep.trans (List.append_nil _).symm
      · rw [← hstep]
        exact ih _ d'
    · exact (List.append_nil _).symm

/-- **What the user sees in a run**: the moments of each line but the first one, at which nothing was
done yet. -/
theorem glances_run (d : Dialogue Interpreter) :
    (Dialogue.run (full username) d).glances = d.glances ++
      (sittings (full username) (d.inputs.length + 1) [] d).flatMap fun ms =>
        ms.tail.map Moment.glance := glances_converse _ [] d

/-! ## Editor and interpreter -/

/-- What Tab may make of a text: the text itself, or an entry of the vocabulary that begins with it,
whatever the case. -/
def Completes (t t' : Text) : Prop :=
  t' = t ∨ t' ∈ Suggestion.vocabulary ∧ t.lower <+: t'.lower

theorem completes_of_mem_list {t t' : Text} (h : t' ∈ Suggestion.list t) : Completes t t' := by
  unfold Suggestion.list Suggestion.among at h
  split at h
  · cases h
  · obtain ⟨hvocabulary, hprefix⟩ := List.mem_filter.1 (List.mem_of_mem_take h)
    exact .inr ⟨hvocabulary, List.isPrefixOf_iff_prefix.1 hprefix⟩

/-- At a moment all is as it should be for a text that is being typed: the interpreter holds it, the
toolbar shows nothing or what is suggested for it, and Tab completes it. -/
structure Serves (p : Partner Interpreter) (t : Text) (m : Moment) : Prop where
  buffer : m.dialogue.state.buffer = t
  toolbar : m.toolbar = [] ∨ m.toolbar = suggestionBar (Suggestion.list t)
  tab : Completes t (m.tabbed p)

/-- Tab puts the first suggestion into the editor, or what the interpreter holds. -/
theorem tabbed_eq (m : Moment) : m.tabbed (full username) =
    m.dialogue.state.suggestions.headD m.dialogue.state.buffer := by
  have hedit : ∀ (d : Dialogue Interpreter) (text : Text),
      (d.edit (full username) text).editor = text := by
    intro d text
    unfold Dialogue.edit
    split
    · next h => exact h
    · rfl
  exact hedit _ _

/-- What the interpreter holds is served. -/
theorem serves_typed {m : Moment} (h : m.Kept) : Serves (full username) m.typed m := by
  refine ⟨h.buffer, ?_, ?_⟩
  · rcases h.suggestions with hnone | hlist
    · exact .inl (by rw [Moment.toolbar, hnone]; rfl)
    · exact .inr (by rw [Moment.toolbar, hlist, h.buffer])
  · rw [tabbed_eq, h.buffer]
    rcases h.suggestions with hnone | hlist
    · rw [hnone]
      exact .inl rfl
    · rw [hlist, h.buffer]
      cases hfirst : Suggestion.list m.typed with
      | nil => exact .inl rfl
      | cons first rest =>
        refine completes_of_mem_list ?_
        rw [hfirst]
        exact List.mem_cons_self

theorem typed_eq_editor_iff {m : Moment} (h : m.Kept) :
    m.typed = m.dialogue.editor ↔ m.touched = true ∨ m.abandoned = [] := by
  unfold Moment.typed
  cases htouched : m.touched with
  | true => simp
  | false =>
    rw [h.editor htouched]
    simp

/-- **When the editor and the interpreter are in step.** Whatever is typed, taken, interrupted and
failed, at every moment at which a prompt is open the terminal serves what the interpreter has heard of,
and that is the text in the editor just if a text came into the editor since the prompt opened, or
nothing was given up before. -/
theorem inStep_iff {depot : Depot} {clipboard : Behaviour} {delay : Delay} {inputs : List Input} {m : Moment}
    (h : m ∈ moments (full username)
      (startFull (full username) (fullSession depot clipboard delay) inputs)) :
    Serves (full username) m.typed m ∧
      (Serves (full username) m.dialogue.editor m ↔ m.touched = true ∨ m.abandoned = []) := by
  have hstart : Between [] (startFull (full username) (fullSession depot clipboard delay) inputs) :=
    ⟨rfl, .inl rfl, ⟨⟨false, rfl⟩, rfl⟩⟩
  obtain ⟨ms, hms, hm⟩ := List.mem_flatten.1 h
  have hkept := kept_of_mem_sittings hstart hms hm
  have hserves : Serves (full username) m.typed m := serves_typed hkept
  refine ⟨hserves, ?_⟩
  rw [← typed_eq_editor_iff hkept]
  constructor
  · intro heditor
    exact hkept.buffer.symm.trans heditor.buffer
  · intro hsame
    rw [← hsame]
    exact hserves

/-- A text is typed, then the line is interrupted. -/
def sampleInputs : List Input := [.types "foo", .fails (.interrupt [])]

/-- The terminal at its beginning, over a store in memory. -/
def sampleTerminal : Dialogue Interpreter :=
  startFull (full "ada")
    (fullSession ⟨World.fresh 0 [], .inMemory .empty⟩ .quiet (.whole 0)) sampleInputs

theorem serves_sampleTerminal : ∃ m ∈ moments (full "ada") sampleTerminal,
    m.dialogue.editor = "foo" ∧ Serves (full "ada") m.dialogue.editor m := by
  obtain ⟨m, hm, heditor, htouched⟩ : ∃ m ∈ moments (full "ada") sampleTerminal,
      m.dialogue.editor = "foo" ∧ m.touched = true :=
    ⟨_, List.mem_of_getElem? (i := 1) rfl, rfl, rfl⟩
  exact ⟨m, hm, heditor, (inStep_iff hm).2.2 (.inl htouched)⟩

/-- **Out of step**: when the next prompt opens the editor is empty, the interpreter still holds what was
typed before the interruption, and Tab brings it back. -/
theorem exists_moment_out_of_step : ∃ m ∈ moments (full "ada") sampleTerminal,
    m.dialogue.editor = [] ∧ m.dialogue.state.buffer = "foo" ∧ m.tabbed (full "ada") = "foo" ∧
      ¬ Completes [] "foo" ∧ ¬ Serves (full "ada") m.dialogue.editor m := by
  obtain ⟨m, hm, heditor, hbuffer, htab⟩ : ∃ m ∈ moments (full "ada") sampleTerminal,
      m.dialogue.editor = [] ∧ m.dialogue.state.buffer = "foo" ∧ m.tabbed (full "ada") = "foo" :=
    ⟨_, List.mem_of_getElem? (i := 2) rfl, rfl, rfl, rfl⟩
  have hnot : ¬ Completes [] "foo" := by
    rintro (h | ⟨h, -⟩)
    · cases h
    · exact absurd h (by decide)
  refine ⟨m, hm, heditor, hbuffer, htab, hnot, fun hserves => hnot ?_⟩
  rw [← htab, ← heditor]
  exact hserves.tab

end Terminal

end VaultConsole
