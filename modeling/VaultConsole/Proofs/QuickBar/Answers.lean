import VaultConsole.Proofs.Course
import VaultConsole.Proofs.Session.Creation
import VaultConsole.QuickBar

/-!
# What the bar answers

Under a clock that shows a time a line of the bar is answered by what its command comes to. A deletion is
asked about first, and carried out on a yes.

* `QuickBar.submit_run`: **what a line of the bar is answered.**
* `QuickBar.Listens`: a bar that waits for a line, over a store in memory.
* `QuickBar.execute_of_creates`, `QuickBar.execute_of_deletes`: lines that make or delete a record.
* `QuickBar.submit_creates`: what a line is answered that makes one.
* `QuickBar.ask_run`, `QuickBar.deleteNow_of_yes`, `QuickBar.deleteNow_of_no`: questions.
* `QuickBar.submit_of_declined`: what a line is answered whose deletion is declined.
-/

namespace VaultConsole

open Failure (Ordinarily)

namespace QuickBar

/-- The calls of parts outside so far. -/
def calls (b : QuickBar) : List Call := b.session.depot.world.calls

/-- A bar in another world. -/
def withWorld (world : World) (b : QuickBar) : QuickBar :=
  { b with session := { b.session with depot := { b.session.depot with world } } }

/-- What the bar answers to an outcome. -/
def answerTo : Except Failure (Option Entry) → Option Entry
  | .ok entry => entry
  | .error failure => some (.error failure.told)

variable {b : QuickBar}

theorem emit_run (h : b.session.depot.world.ShowsTime) (severity : Severity) (name : Text)
    (fields : Table Text Json) :
    ∃ event, emit severity name fields b =
      (.ok (), b.withWorld (b.session.depot.world.record event)) := by
  obtain ⟨moment, hmoment⟩ := h
  refine ⟨{ severity, name, moment, fields }, ?_⟩
  rw [emit, inSession, Act.run_within, Session.emit, Session.inDepot, Act.run_within,
    Depot.emit_eq hmoment]
  rfl

theorem report_run (h : b.session.depot.world.ShowsTime) (l : Line) {failure : Failure}
    (hwords : failure.HasWords) :
    ∃ event, report l failure b =
      (.ok (.error failure.told),
        ({ b with session := b.session.dropDeferred } : QuickBar).withWorld
          (b.session.depot.world.record event)) := by
  have hlog : ∃ event, logFailure l failure { b with session := b.session.dropDeferred } =
      (.ok (), ({ b with session := b.session.dropDeferred } : QuickBar).withWorld
        (b.session.depot.world.record event)) := by
    unfold logFailure
    simp only
    split
    · exact emit_run (b := { b with session := b.session.dropDeferred }) h _ _ _
    · exact emit_run (b := { b with session := b.session.dropDeferred }) h _ _ _
  obtain ⟨event, hlog⟩ := hlog
  refine ⟨event, ?_⟩
  unfold report
  rw [Act.run_bind, inSession, Act.run_within, Act.run_change, Act.after_ok, Act.run_bind,
    Act.run_settle, hwords, Act.after_ok, Act.run_bind, hlog]
  rfl

/-- A line that left no effect waiting is logged, and then nothing is left to do. -/
theorem perform_run {b' : QuickBar} {l : Line} {result : Except Failure (Option Entry)}
    {answer : Text → Act Failure QuickBar Unit} (hexecute : (execute l).run answer b = (result, b'))
    (htime : b'.session.depot.world.ShowsTime) (hnone : b'.session.deferred = []) :
    ∃ b'', (perform l).run answer b = (result, b'') ∧
      b''.session.depot.store = b'.session.depot.store ∧ b''.calls = b'.calls ∧
      b''.session.depot.world.ShowsTime := by
  unfold perform
  rw [Course.run_bind, hexecute]
  cases result with
  | error failure => exact ⟨b', rfl, rfl, rfl, htime⟩
  | ok entry =>
    obtain ⟨event, hlog⟩ : ∃ event, logCommand l entry b' =
        (.ok (), b'.withWorld (b'.session.depot.world.record event)) := emit_run htime _ _ _
    rw [Act.after_ok]
    show ∃ b'', (Course.ofAct (logCommand l entry) >>= _ : Course QuickBar _).run answer b' = _ ∧ _
    rw [Course.run_bind, Course.run_ofAct, hlog, Act.after_ok]
    unfold handOver
    show ∃ b'', ((Course.ofAct (inSession Session.takeDeferred) >>= fun effects =>
      effects.forM carryOut) >>= _ : Course QuickBar _).run answer _ = _ ∧ _
    rw [Course.run_bind, Course.run_bind, Course.run_ofAct]
    show ∃ b'', Act.after _ (Act.after _ (.ok b'.session.deferred, _)) = _ ∧ _
    rw [hnone]
    exact ⟨_, rfl, rfl, World.calls_record _ _, htime.of_clock (World.clock_writeRunLog _ _)⟩

/-- What a line is answered is decided by what is done for it. -/
theorem exists_submit_eq (line : Text) (b : QuickBar) :
    ∃ answer, submit line b = (course line).run answer b := by
  show ∃ answer, submitNested b.session.pendingReactions line b = (course line).run answer b
  cases b.session.pendingReactions with
  | zero => exact ⟨_, rfl⟩
  | succ depth => exact ⟨_, rfl⟩

/-- **What a line of the bar is answered**, if its command leaves no effect waiting. -/
theorem submit_run {b' : QuickBar} {line : Text} {l : Line}
    {result : Except Failure (Option Entry)} (hl : Line.parse line = some l)
    (hexecute : ∀ answer, (execute l).run answer b = (result, b'))
    (hordinary : Ordinarily result) (htime : b'.session.depot.world.ShowsTime)
    (hnone : b'.session.deferred = []) :
    (submit line b).1 = .ok (answerTo result) ∧
      (submit line b).2.session.depot.store = b'.session.depot.store ∧
      (submit line b).2.calls = b'.calls := by
  obtain ⟨answer, hsubmit⟩ := exists_submit_eq line b
  obtain ⟨b₁, hperform, hstore, hcalls, htime₁⟩ := perform_run (hexecute answer) htime hnone
  have hanswer : ∃ b₂, (QuickBar.answer l).run answer b = (.ok (answerTo result), b₂) ∧
      b₂.session.depot.store = b₁.session.depot.store ∧ b₂.calls = b₁.calls := by
    unfold QuickBar.answer
    rw [Course.run_bind, Course.run_attemptUnlessInterrupted, hordinary.attempt hperform,
      Act.after_ok]
    cases result with
    | ok entry => exact ⟨b₁, rfl, rfl, rfl⟩
    | error failure =>
      obtain ⟨event, hreport⟩ := report_run htime₁ l (hordinary failure rfl).words
      show ∃ b₂, (Course.ofAct (report l failure) >>= _ : Course QuickBar _).run answer b₁ = _ ∧ _
      rw [Course.run_bind, Course.run_ofAct, hreport]
      exact ⟨_, rfl, rfl, World.calls_record _ _⟩
  obtain ⟨b₂, hanswer, hstore₂, hcalls₂⟩ := hanswer
  -- the entry is shown, which touches neither the store nor the world
  have hcourse : ∃ b₃, (course line).run answer b = (.ok (answerTo result), b₃) ∧
      b₃.session = b₂.session := by
    unfold course
    rw [hl]
    simp only
    rw [Course.run_bind, hanswer, Act.after_ok]
    cases answerTo result with
    | none => exact ⟨b₂, rfl, rfl⟩
    | some entry => exact ⟨{ b₂ with feedback := some (entry, b₂.elapsed) }, rfl, rfl⟩
  obtain ⟨b₃, hcourse, hsession⟩ := hcourse
  rw [hsubmit, hcourse]
  refine ⟨rfl, ?_, ?_⟩
  · rw [hsession, hstore₂, hstore]
  · rw [calls, hsession]
    exact hcalls₂.trans hcalls

/-- A bar over a store in memory that waits for a line. -/
structure Listens (b : QuickBar) : Prop where
  deferred : b.session.deferred = []
  time : b.session.depot.world.ShowsTime
  plain : b.session.depot.store.IsPlain

/-! ## Commands of the bar -/

variable {l : Line} {kind : Deletable}

theorem execute_of_creates (hl : l.Creates kind) (answer : Text → Act Failure QuickBar Unit) :
    (execute l).run answer b = (some <$> inSession (Session.creationOf l kind)) b := by
  obtain ⟨hverb, haction⟩ := hl
  unfold execute
  cases kind with
  | vault =>
    rw [Verb.ofToken?_eq_vault.2 hverb]
    simp only
    show executeVault l b = _
    unfold executeVault
    rw [VaultAction.select, selectAction, haction]
    rfl
  | account =>
    rw [Verb.ofToken?_eq_account.2 hverb]
    simp only
    unfold executeAccount
    rw [AccountAction.select, selectAction, haction]
    show (Course.ofAct (inSession (Session.executeAccountCreate l)) >>= fun entry =>
      pure (some entry)).run answer b = _
    rw [Course.run_bind, Course.run_ofAct, Act.run_map]
    rfl

/-- **A line that is to make a record** is answered by what making it comes to. -/
theorem submit_creates {line : Text} (hl : Line.parse line = some l) (hc : l.Creates kind)
    (hordinary : b.session.depot.store.IsOrdinary) (htime : b.session.depot.world.ShowsTime)
    (hnone : b.session.deferred = []) :
    (submit line b).1 = .ok (answerTo ((Session.creationOf l kind b.session).1.map some)) ∧
      (submit line b).2.session.depot.store =
        (Session.creationOf l kind b.session).2.depot.store ∧
      (submit line b).2.calls = (Session.creationOf l kind b.session).2.depot.world.calls := by
  have hsound := Session.sound_creationOf l kind b.session
  have hexecute : ∀ answer, (execute l).run answer b =
      ((Session.creationOf l kind b.session).1.map some,
        { b with session := (Session.creationOf l kind b.session).2 }) := by
    intro answer
    rw [execute_of_creates hc, Act.run_map, inSession, Act.run_within]
    cases (Session.creationOf l kind b.session).1 <;> rfl
  have hresult : Ordinarily ((Session.creationOf l kind b.session).1.map some) :=
    (Session.ordinarily_of_sound hsound hordinary).map
  have hdeferred : (Session.creationOf l kind b.session).2.deferred = [] := by
    rw [hsound.keeps.rest]
    exact hnone
  exact submit_run hl hexecute hresult (htime.of_clock hsound.keeps.depot.clock) hdeferred

theorem execute_of_deletes (hl : l.Deletes kind) (answer : Text → Act Failure QuickBar Unit) :
    (execute l).run answer b =
      (do deleteNow (← inSession (Session.deletionOf l kind)) : Act Failure QuickBar _) b := by
  obtain ⟨hverb, haction⟩ := hl
  have haction := unaliasAction_eq_delete.2 haction
  unfold execute
  cases kind with
  | vault =>
    rw [Verb.ofToken?_eq_vault.2 hverb]
    simp only
    show executeVault l b = _
    unfold executeVault
    rw [VaultAction.select, selectAction, haction]
    rfl
  | account =>
    rw [Verb.ofToken?_eq_account.2 hverb]
    simp only
    unfold executeAccount
    rw [AccountAction.select, selectAction, haction]
    show (Course.ofAct (inSession (Session.accountDeletionOf l)) >>= fun d =>
      Course.ofAct (deleteNow d)).run answer b = _
    rw [Course.run_bind, Course.run_ofAct, Act.run_bind]
    rfl

/-! ## Questions -/

/-- The bar when the user has answered a question. -/
def asked (question : Text) (b : QuickBar) : QuickBar :=
  { b.withWorld (((b.session.depot.world.note (.confirm question)).display (.question question)).pass
      b.consent.lasts) with
    consents := b.consents.drop 1 }

/-- The clock shows a time when the user answers a question. -/
def ShowsTimeThen (b : QuickBar) : Prop := (b.session.depot.world.pass b.consent.lasts).ShowsTime

variable {d : Deletion}

theorem showsTime_asked (h : b.ShowsTimeThen) (question : Text) :
    (b.asked question).session.depot.world.ShowsTime := h.of_clock rfl

theorem ask_run (question : Text) :
    ask question b =
      (match b.consent.verdict with
        | .yes => .ok true
        | .no => .ok false
        | .fails failure => .error failure, b.asked question) := by
  unfold ask
  rw [Act.run_bind]
  show Act.after _ (.ok (), b.withWorld _) = _
  simp only [Act.after_ok, Act.run_bind, Act.run_look, Act.run_change]
  show (match b.consent.verdict with
    | .yes => return true
    | .no => return false
    | .fails failure => Act.fail failure : Act Failure QuickBar Bool) (b.asked question) = _
  cases b.consent.verdict <;> rfl

theorem deleteNow_of_yes (h : b.consent.verdict = .yes) :
    deleteNow d b =
      (some <$> inSession (Session.executeDeletion d)) (b.asked (question d)) := by
  unfold deleteNow
  rw [Act.run_bind, ask_run, h]
  rfl

theorem deleteNow_of_no (h : b.consent.verdict = .no) :
    deleteNow d b = (.ok none, b.asked (question d)) := by
  unfold deleteNow
  rw [Act.run_bind, ask_run, h]
  rfl

/-- **A deletion that the user declines** has no answer and touches no record. -/
theorem submit_of_declined {line : Text} (hl : Line.parse line = some l) (hd : l.Deletes kind)
    (hfound : Session.deletionOf l kind b.session = (.ok d, b.session))
    (hno : b.consent.verdict = .no) (htime : b.ShowsTimeThen) (hnone : b.session.deferred = []) :
    (submit line b).1 = .ok none ∧
      (submit line b).2.session.depot.store = b.session.depot.store ∧
      (submit line b).2.calls = b.calls ++ [.confirm (question d)] := by
  have hexecute : ∀ answer, (execute l).run answer b = (.ok none, b.asked (question d)) := by
    intro answer
    rw [execute_of_deletes hd, Act.run_bind, inSession, Act.run_within, hfound, Act.after_ok]
    exact deleteNow_of_no hno
  exact submit_run hl hexecute (.ok none) (showsTime_asked htime _) hnone

end QuickBar

end VaultConsole
