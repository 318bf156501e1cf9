import VaultConsole.Proofs.Interpreter.Answers
import VaultConsole.Proofs.Session.Conduct

/-!
# Courses of parts that keep to a conduct

Where all parts outside keep to a conduct, they do so along every course, and what is done there fails as
the conduct allows. Where they submit no lines, a course changes the session alone. And where every
failure has words, and events can say something of every identifier, nothing but an interruption ends a
line before it is answered.

* `Interpreter.Tames`: courses of parts that keep to a conduct.
* `Interpreter.tames_execute`, `Interpreter.tames_handOver`: commands, and their effects.
* `Interpreter.isInterruption_of_submit`: **what can escape from a line.**
-/

namespace VaultConsole

namespace Interpreter

variable {c : Conduct}

/-! ## Courses -/

/-- What is expected of a line that a part outside submits. -/
def Kept (c : Conduct) {α : Type} (result : Except Failure α) (i : Interpreter) : Prop :=
  i.session.Obeys c ∧ c.Allows result

/-- What a course comes to from a state: all parts still keep to their conduct, and without lines on the
way the session alone has changed. -/
structure Tamed (c : Conduct) {α : Type} (P : α → Prop) (i : Interpreter) (result : Except Failure α)
    (i' : Interpreter) : Prop where
  obeys : i'.session.Obeys c
  front : ¬ c.submits → i' = { i with session := i'.session }
  allows : c.Allows result
  value : ∀ a, result = .ok a → P a

/-- A course that leaves all parts to their conduct, and submits lines only where that is allowed. -/
def Tames (c : Conduct) {α : Type} (P : α → Prop) (course : Course Interpreter α) : Prop :=
  ∀ i : Interpreter, i.session.Obeys c →
    course.Meets (fun i' => c.submits ∧ i'.session.Obeys c) (Kept c) (Tamed c P i) i

section
variable {α β : Type} {P : α → Prop} {Q : β → Prop} {course : Course Interpreter α}

theorem tames_done {result : Except Failure α} (h : c.Allows result)
    (hvalue : ∀ a, result = .ok a → P a) : Tames c P (.done result) :=
  fun _ hi => ⟨hi, fun _ => rfl, h, hvalue⟩

theorem tames_pure {a : α} (h : P a) : Tames c P (pure a) :=
  tames_done (c.allows_ok a) fun _ ha => by cases ha; exact h

/-- A line that a part outside submits. -/
theorem tames_call (h : c.submits) (line : Text) : Tames c (fun _ => True) (Course.call line) :=
  fun _ hi => ⟨⟨h, hi⟩, fun _ _ hkept => ⟨hkept.1, fun hnot => absurd h hnot, hkept.2, fun _ _ => trivial⟩⟩

theorem tames_inSession {act : Act Failure Session α} (h : Session.Tames c P act) :
    Tames c P (.ofAct (inSession act)) := fun i hi =>
  have hact := h i.session hi
  ⟨hact.1, fun _ => rfl, hact.2.1, hact.2.2⟩

theorem Tames.proceed {next : Except Failure α → Course Interpreter β} (h : Tames c P course)
    (hnext : ∀ result, c.Allows result → (∀ a, result = .ok a → P a) → Tames c Q (next result)) :
    Tames c Q (course.proceed next) := by
  intro i hi
  refine .proceed ((h i hi).imp fun result i' ht => ?_)
  refine (hnext result ht.allows ht.value i' ht.obeys).imp fun result' i'' ht' => ?_
  exact ⟨ht'.obeys, fun hnot => by rw [ht'.front hnot, ht.front hnot], ht'.allows, ht'.value⟩

theorem Tames.bind {next : α → Course Interpreter β} (h : Tames c P course)
    (hnext : ∀ a, P a → Tames c Q (next a)) : Tames c Q (course >>= next) := by
  refine h.proceed fun result hallows hvalue => ?_
  cases result with
  | ok a => exact hnext a (hvalue a rfl)
  | error failure =>
    exact tames_done (c.allows_error (hallows failure rfl)) fun _ h => by cases h

theorem Tames.imp {P' : α → Prop} (h : Tames c P course) (himp : ∀ a, P a → P' a) :
    Tames c P' course := fun i hi =>
  (h i hi).imp fun _ _ ht => ⟨ht.obeys, ht.front, ht.allows, fun a ha => himp a (ht.value a ha)⟩

theorem tames_forM {items : List α} {f : α → Course Interpreter PUnit}
    (h : ∀ a ∈ items, Tames c (fun _ => True) (f a)) : Tames c (fun _ => True) (items.forM f) := by
  induction items with
  | nil => exact tames_pure trivial
  | cons a rest ih =>
    exact (h a List.mem_cons_self).bind fun _ _ => ih fun b hb => h b (List.mem_cons_of_mem a hb)

end

theorem tames_ending {failure : Option Failure} (h : ∀ f, failure = some f → c.fails f) :
    Tames c (fun _ => True) (Course.ending failure) := by
  cases failure with
  | none => exact tames_pure trivial
  | some f => exact tames_done (c.allows_error (h f rfl)) fun _ _ => trivial

theorem tames_undergo {reaction : Reaction} (h : reaction.Obeys c) :
    Tames c (fun _ => True) (Course.undergo reaction) := by
  refine (tames_forM fun line hline => ?_).bind fun _ _ => tames_ending h.failure
  exact tames_call (h.resubmits (List.ne_nil_of_mem hline)) line

theorem tames_carryOut (effect : Effect) : Tames c (fun _ => True) (carryOut effect) :=
  (tames_inSession (Session.tames_touch effect)).bind fun _ hreaction => tames_undergo hreaction

theorem tames_schedule (effect : Effect) : Tames c (fun _ => True) (schedule effect) := by
  refine (tames_inSession Session.tames_takeHandling).bind fun handling hhandling => ?_
  refine (tames_forM fun move hmove => ?_).bind fun _ _ => tames_ending hhandling.failure
  cases move with
  | submit line => exact tames_call (hhandling.moves line hmove) line
  | carryOut => exact tames_carryOut effect
  | hold => exact tames_inSession (Session.tames_enqueue effect)

theorem tames_handOver : Tames c (fun _ => True) handOver :=
  (tames_inSession Session.tames_takeDeferred).bind fun _ _ =>
    tames_forM fun effect _ => tames_schedule effect

theorem tames_copySecret (account : Account) : Tames c (fun _ => True) (copySecret account) := by
  have hcopy : Tames c (fun _ => True) (do
      Course.undergo (← inSession (Session.copy account.password)) : Course Interpreter Unit) :=
    (tames_inSession (Session.tames_copy _)).bind fun _ hreaction => tames_undergo hreaction
  refine (tames_inSession (Session.tames_hold account)).bind fun _ _ => ?_
  -- how copying ends is known only when the account was released
  have hattempt : Tames c (fun copied => c.Allows copied) (Course.attempt (do
      Course.undergo (← inSession (Session.copy account.password)) : Course Interpreter Unit)) :=
    hcopy.proceed fun result hallows _ => tames_pure hallows
  refine hattempt.bind fun copied hcopied => ?_
  refine (tames_inSession (Session.tames_release account)).bind fun released _ => ?_
  exact Tames.bind (tames_done hcopied fun _ _ => trivial) fun _ _ => tames_pure trivial

theorem tames_entryOf (reply : Reply) :
    Tames c (fun entry => reply = .cleared ↔ entry = none) (entryOf reply) := by
  cases reply with
  | entry entry => exact tames_pure (by simp)
  | cleared => exact tames_pure (by simp)
  | secret account echo => exact (tames_copySecret account).bind fun _ _ => tames_pure (by simp)

theorem tames_execute (l : Line) :
    Tames c (fun entry => entry = none ↔ Verb.ofToken? l.verb = some .clear) (execute l) :=
  (tames_inSession (Session.tames_execute l)).bind fun reply hreply =>
    (tames_entryOf reply).imp fun _ hentry => hentry.symm.trans hreply

/-- Where no part outside submits lines it does not matter what is done with further lines. -/
theorem Tames.run {α : Type} {P : α → Prop} {course : Course Interpreter α} (h : Tames c P course)
    (hc : ¬ c.submits) {i : Interpreter} (hi : i.session.Obeys c)
    (answer : Text → Act Failure Interpreter Unit) :
    ∃ result session, course.run answer i = (result, { i with session }) ∧ session.Obeys c ∧
      c.Allows result ∧ (∀ a, result = .ok a → P a) ∧
      ∀ answer', course.run answer' i = (result, { i with session }) := by
  have hmeets := h i hi
  have htamed : Tamed c P i (course.run answer i).1 (course.run answer i).2 :=
    hmeets.run fun _ _ hline => absurd hline.1 hc
  rcases hrun : course.run answer i with ⟨result, i'⟩
  rw [hrun] at htamed
  refine ⟨result, i'.session, congrArg _ (htamed.front hc), htamed.obeys, htamed.allows,
    htamed.value, fun answer' => ?_⟩
  rw [hmeets.run_eq (fun _ hline => hc hline.1) answer' answer, hrun]
  exact congrArg _ (htamed.front hc)

/-! ## What can escape from a line -/

/-- What an act or a course comes to that nothing ends early but an interruption by a part outside. -/
structure Concluded (c : Conduct) {α : Type} (result : Except Failure α) (i : Interpreter) : Prop where
  obeys : i.session.Obeys c
  interrupted : ∀ f, result = .error f → f.isInterruption = true
  allows : c.Allows result

/-- An act that nothing ends early but an interruption, where parts keep to a conduct. -/
def Endures (c : Conduct) {α : Type} (act : Act Failure Interpreter α) : Prop :=
  ∀ i : Interpreter, i.session.Obeys c → Concluded c (act i).1 (act i).2

/-- A course that nothing ends early but an interruption, where parts keep to a conduct. -/
def Lasts (c : Conduct) {α : Type} (course : Course Interpreter α) : Prop :=
  ∀ i : Interpreter, i.session.Obeys c →
    course.Meets (fun i' => c.submits ∧ i'.session.Obeys c) (Kept c) (Concluded c) i

section
variable {α β : Type}

theorem concluded_ok {a : α} {i : Interpreter} (h : i.session.Obeys c) :
    Concluded c (.ok a) i := ⟨h, fun _ hf => (nomatch hf), c.allows_ok a⟩

theorem endures_change {f : Interpreter → Interpreter}
    (h : ∀ i, i.session.Obeys c → (f i).session.Obeys c) : Endures c (Act.change f) :=
  fun i hi => concluded_ok (h i hi)

theorem endures_answer (entry : Entry) : Endures c (answer entry) := endures_change fun _ h => h

theorem endures_remember (line : Text) : Endures c (remember line) := endures_change fun _ h => h

theorem endures_look (f : Interpreter → α) : Endures c (Act.look f) := fun _ hi => concluded_ok hi

theorem endures_settle (a : α) : Endures c (Act.settle (.ok a)) := fun _ hi => concluded_ok hi

theorem Endures.bind {act : Act Failure Interpreter α} {next : α → Act Failure Interpreter β}
    (h : Endures c act) (hnext : ∀ a, Endures c (next a)) : Endures c (act >>= next) := by
  intro i hi
  have hact := h i hi
  rw [Act.run_bind]
  rcases hrun : act i with ⟨failure | a, i'⟩ <;> rw [hrun] at hact
  · exact ⟨hact.obeys, fun f hf => hact.interrupted f (by cases hf; rfl),
      c.allows_error (hact.allows failure rfl)⟩
  · exact hnext a i' hact.obeys

theorem Endures.discard {act : Act Failure Interpreter α} (h : Endures c act) :
    Endures c (discard act : Act Failure Interpreter Unit) :=
  h.bind fun _ _ hi => concluded_ok hi

theorem Endures.lasts {act : Act Failure Interpreter α} (h : Endures c act) : Lasts c (Course.ofAct act) :=
  fun i hi => h i hi

theorem Lasts.bind {course : Course Interpreter α} {next : α → Course Interpreter β}
    (h : Lasts c course) (hnext : ∀ a, Lasts c (next a)) : Lasts c (course >>= next) := by
  refine fun i hi => .bind ((h i hi).imp fun result i' hc => ?_)
  cases result with
  | ok a => exact hnext a i' hc.obeys
  | error failure =>
    exact ⟨hc.obeys, fun f hf => hc.interrupted f (by cases hf; rfl),
      c.allows_error (hc.allows failure rfl)⟩

/-- What failed otherwise than by an interruption is dealt with by what comes next. -/
theorem lasts_attempt {P : α → Prop} {course : Course Interpreter α} (h : Tames c P course)
    {next : Except Failure α → Course Interpreter β}
    (hnext : ∀ result, c.Allows result → Lasts c (next result)) :
    Lasts c (course.attemptUnlessInterrupted >>= next) := by
  refine fun i hi => .bind (.attemptUnlessInterrupted ((h i hi).imp fun result i' ht => ?_))
  cases result with
  | ok a => exact hnext (.ok a) ht.allows i' ht.obeys
  | error failure =>
    by_cases hinterrupted : failure.isInterruption = true
    · simp only [if_pos hinterrupted]
      exact ⟨ht.obeys, fun f hf => by cases hf; exact hinterrupted,
        c.allows_error (ht.allows failure rfl)⟩
    · simp only [if_neg hinterrupted]
      exact hnext (.error failure) ht.allows i' ht.obeys

end

section
variable (hc : c.IsWorded)
include hc

theorem endures_emit (severity : Severity) (name : Text) (fields : Table Text Json) :
    Endures c (emit severity name fields) := by
  intro i hi
  obtain ⟨event, hemit⟩ := emit_of_showsTime (hi.showsTime hc) severity name fields
  have hobeys := (Session.tames_of_sound (Session.sound_emit severity name fields) i.session hi).1
  rw [show (emit severity name fields i).1 = .ok () by rw [hemit]]
  exact concluded_ok hobeys

theorem endures_report (l : Line) {failure : Failure} (h : c.fails failure) :
    Endures c (report l failure) := by
  unfold report
  rw [hc.fails failure h]
  exact (endures_settle _).bind fun _ => (endures_emit hc _ _ _).bind fun _ => endures_answer _

theorem endures_logDecision (d : Deletion) (decision : Decision) : Endures c (logDecision d decision) := by
  intro i hi
  obtain ⟨moment, hmoment⟩ := hi.showsTime hc
  cases hlabel : i.session.depot.store.labelOf d.targetId with
  | error failure => exact absurd (hi.labels _ _ hlabel) hc.obscures
  | ok label =>
    unfold logDecision
    simp only [Act.run_bind, Act.run_look, Act.run_settle, Act.after_ok, hmoment, hlabel]
    exact endures_emit hc _ _ _ i hi

theorem endures_carryOutDeletion (d : Deletion) : Endures c (carryOutDeletion d) := by
  intro i hi
  have hexecuted := Session.tames_of_sound (c := c) (Session.sound_executeDeletion d)
    i.session hi
  have hrun : inSession (Session.executeDeletion d) i =
      ((Session.executeDeletion d i.session).1,
        { i with session := (Session.executeDeletion d i.session).2 }) := rfl
  unfold carryOutDeletion
  rw [Act.run_bind, Failure.attempt, Act.attemptUnless, hrun]
  rcases hresult : Session.executeDeletion d i.session with ⟨failure | entry, session⟩ <;>
    rw [hresult] at hexecuted
  · by_cases hinterrupted : failure.isInterruption = true
    · simp only [if_pos hinterrupted]
      exact ⟨hexecuted.1, fun f hf => by cases hf; exact hinterrupted,
        c.allows_error (hexecuted.2.1 failure rfl)⟩
    · have hwords : failure.words = .ok failure.message :=
        hc.fails failure (hexecuted.2.1 failure rfl)
      simp only [if_neg hinterrupted, Act.after_ok, hwords]
      refine ((endures_settle _).bind fun _ => ?_) _ hexecuted.1
      split
      · exact (endures_emit hc _ _ _).bind fun _ => endures_answer _
      · exact endures_answer _
  · exact endures_answer _ _ hexecuted.1

theorem endures_answerGate (line : Text) : Endures c (answerGate line) := by
  refine (endures_look _).bind fun gate => ?_
  split
  · next decision d gate _ =>
    have hgate : Endures c (Act.change fun i : Interpreter =>
        { i with session := { i.session with gate := some gate } }) :=
      endures_change fun _ h =>
        ⟨h.navigator, h.exit, h.clipboard, h.scheduler, h.store, h.labels, h.clock⟩
    refine hgate.bind fun _ => (endures_logDecision hc d decision).bind fun _ => ?_
    cases decision with
    | reject => exact endures_answer _
    | cancel => exact (endures_remember _).bind fun _ => endures_answer _
    | confirm => exact (endures_remember _).bind fun _ => endures_carryOutDeletion hc d
  · exact fun _ hi => concluded_ok hi

theorem lasts_dispatch (l : Line) : Lasts c (dispatch l) := by
  refine Lasts.bind (fun i hi => concluded_ok hi) fun started => ?_
  refine lasts_attempt (tames_execute l) fun result hresult => ?_
  cases result with
  | error failure =>
    have hdropped : Endures c (inSession (Act.change Session.dropDeferred)) := fun i h =>
      concluded_ok ⟨h.navigator, h.exit, h.clipboard, h.scheduler, h.store, h.labels, h.clock⟩
    exact (hdropped.bind fun _ => endures_report hc l (hresult failure rfl)).lasts
  | ok entry =>
    have hconclude : Endures c (conclude entry) := by
      cases entry <;> exact endures_change fun _ h => h
    have hlog : Endures c (logCommand l entry started) := fun i hi => endures_emit hc _ _ _ i hi
    refine hconclude.lasts.bind fun _ => hlog.lasts.bind fun _ => ?_
    refine lasts_attempt tames_handOver fun result hresult => ?_
    cases result with
    | ok _ => exact fun i hi => concluded_ok hi
    | error failure => exact (endures_report hc l (hresult failure rfl)).lasts

theorem lasts_course (line : Text) : Lasts c (course line) := by
  unfold course
  simp only
  split
  · exact fun i hi => concluded_ok hi
  · refine Lasts.bind (fun i hi => concluded_ok hi) fun start => ?_
    refine Lasts.bind ?_ fun _ => fun i hi => concluded_ok hi
    refine Lasts.bind (fun i hi => concluded_ok hi) fun awaits => ?_
    split
    · exact (endures_answerGate hc _).lasts
    · split
      · next l _ => exact (endures_remember _).lasts.bind fun _ => lasts_dispatch hc l
      · exact fun i hi => concluded_ok hi

theorem endures_submitNested (depth : Nat) (line : Text) : Endures c (submitNested depth line) := by
  induction depth generalizing line with
  | zero =>
    exact fun i hi => (lasts_course hc line i hi).run fun _ _ hi' => ⟨hi'.2, c.allows_ok _⟩
  | succ depth ih =>
    refine fun i hi => (lasts_course hc line i hi).run fun line i' hi' => ?_
    have hline := (ih line).discard i' hi'.2
    exact ⟨hline.obeys, hline.allows⟩

/-- **What can escape from a line** is an interruption by a part outside, where everything that events are
to say can be said. -/
theorem isInterruption_of_submit {line : Text} {i : Interpreter} (h : i.session.Obeys c)
    {failure : Failure} (hfails : (submit line i).1 = .error failure) :
    failure.isInterruption = true ∧ c.fails failure :=
  have hended := endures_submitNested hc i.pending line i h
  ⟨hended.interrupted failure hfails, hended.allows failure hfails⟩

end

end Interpreter

end VaultConsole
