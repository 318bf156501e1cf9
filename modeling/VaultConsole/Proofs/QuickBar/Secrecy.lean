import VaultConsole.Proofs.Interpreter.Secrecy
import VaultConsole.QuickBar

/-!
# Bars that are alike

Two bars are alike if their sessions are, and if they are the same otherwise. A bar names no secret in
an answer, also not where it has copied one, and answers with no records; so alike bars answer and show
the same.

* `QuickBar.OverSessions`, `QuickBar.Alike`: relations of bars over sessions that are alike, and one
  of them.
* `QuickBar.Bare`: answers that name no records.
* `QuickBar.twins_submitPaired`: lines that are alike, on both sides.
* `BarStep`, `BarStep.alike_sequence`: **whatever a host does, bars answer alike.**
-/

namespace VaultConsole

open List (Forall₂)

/-- A relation of bars that have sessions which are alike and the same answers of the user. These can be
changed alone, and both can show one entry without records from now on. -/
class QuickBar.OverSessions (S : outParam (Text → Text → Prop)) (R : QuickBar → QuickBar → Prop) :
    Prop where
  session : ∀ {b b'}, R b b' → b.session.Alike S b'.session
  consents : ∀ {b b'}, R b b' → b'.consents = b.consents
  withSession : ∀ {b b' session session'}, R b b' → session.Alike S session' →
    R { b with session } { b' with session := session' }
  withConsents : ∀ {b b' consents}, R b b' → R { b with consents } { b' with consents }
  withFeedback : ∀ {b b' entry since}, R b b' → entry.payload = none →
    R { b with feedback := some (entry, since) } { b' with feedback := some (entry, since) }

/-- Two bars that differ at most in secrets and in texts that were copied, and show no records. -/
inductive QuickBar.Alike (S : Text → Text → Prop) : QuickBar → QuickBar → Prop
  | intro (b : QuickBar) {session : Session} (h : b.session.Alike S session)
      (hbare : ∀ entry since, b.feedback = some (entry, since) → entry.payload = none) :
      Alike S b { b with session }

namespace QuickBar

variable {S : Text → Text → Prop} {R : QuickBar → QuickBar → Prop} {α α' : Type}

namespace Alike

variable {b b' : QuickBar}

theorem session (h : b.Alike S b') : b.session.Alike S b'.session := by
  obtain ⟨h, -⟩ := h
  exact h

theorem bare (h : b.Alike S b') {entry : Entry} {since : Binary64}
    (hfeedback : b.feedback = some (entry, since)) : entry.payload = none := by
  obtain ⟨-, hbare⟩ := h
  exact hbare entry since hfeedback

theorem rest (h : b.Alike S b') : b' = { b with session := b'.session } := by
  obtain ⟨-, -⟩ := h
  rfl

theorem elapsed (h : b.Alike S b') : b'.elapsed = b.elapsed := h.session.elapsed

end Alike

instance : OverSessions S (Alike S) where
  session := Alike.session
  consents h := by rw [h.rest]
  withSession := by
    intro b b' session session' h hsession
    obtain ⟨-, hbare⟩ := h
    exact .intro { b with session } hsession hbare
  withConsents := by
    intro b b' consents h
    obtain ⟨h, hbare⟩ := h
    exact .intro { b with consents } h hbare
  withFeedback := by
    intro b b' entry since h hentry
    obtain ⟨h, -⟩ := h
    refine .intro { b with feedback := some (entry, since) } h ?_
    rintro _ _ ⟨⟩
    exact hentry

/-- One entry on both sides, which names no records. -/
def Bare (entry entry' : Entry) : Prop := entry = entry' ∧ entry.payload = none

theorem eq_of_bare {answer answer' : Option Entry} (h : Option.Rel Bare answer answer') :
    answer = answer' := by
  cases h with
  | none => rfl
  | some h => rw [h.1]

/-- The feedback is shown for as long. -/
theorem poll_alike {b b' : QuickBar} (h : b.Alike S b') :
    Option.Rel Bare b.poll.1 b'.poll.1 ∧ b.poll.2.Alike S b'.poll.2 := by
  have hfeedback : b'.feedback = b.feedback := by rw [h.rest]
  have hlifetime : b'.lifetime = b.lifetime := by rw [h.rest]
  unfold poll
  rw [hfeedback, hlifetime, h.elapsed]
  cases hshown : b.feedback with
  | none => exact ⟨.none, h⟩
  | some shown =>
    obtain ⟨entry, since⟩ := shown
    simp only
    split
    · obtain ⟨h, -⟩ := h
      refine ⟨.none, .intro { b with feedback := none } h ?_⟩
      rintro _ _ ⟨⟩
    · exact ⟨.some ⟨rfl, h.bare hshown⟩, h⟩

/-- The answer after a secret was copied does not name it. -/
theorem secretEntry_alike {a a' : Account} (h : Account.Alike S a a') :
    Session.secretEntry false a = Session.secretEntry false a' := by
  obtain ⟨-⟩ := h
  rfl

theorem twins_returnToOverview :
    returnToOverview.Twins (Session.Alike S) Eq returnToOverview :=
  Session.twins_requireNavigator.bind_eq fun _ => (Session.twins_defer _).bind_eq fun _ => .pure rfl

variable {l l' : Line} [lifted : OverSessions S R]
include lifted

/-! ## Acts -/

theorem twins_inSession {V : α → α' → Prop} {act : Act Failure Session α}
    {act' : Act Failure Session α'} (h : act.Twins (Session.Alike S) V act') :
    (inSession act).Twins R V (inSession act') :=
  h.within (fun _ _ hb => lifted.session hb) fun _ _ _ _ hb hs => lifted.withSession hb hs

theorem twins_emit (severity : Severity) (name : Text) (fields : Table Text Json) :
    (emit severity name fields).Twins R Eq (emit severity name fields) :=
  twins_inSession (Session.twins_emit severity name fields)

theorem twins_ask (question : Text) : (ask question).Twins R Eq (ask question) := by
  have hconsent : (Act.look consent : Act Failure QuickBar Consent).Twins R Eq (Act.look consent) :=
    .look fun _ _ hb => by rw [consent, consent, lifted.consents hb]
  have hconsents : (Act.look (·.consents) : Act Failure QuickBar (List Consent)).Twins R Eq
      (Act.look (·.consents)) := .look fun _ _ hb => (lifted.consents hb).symm
  refine (twins_inSession (Session.twins_inWorld fun _ _ hw => ?_)).bind_eq fun _ =>
    hconsent.bind_eq fun consent => hconsents.bind_eq fun consents => Act.Twins.bind_eq ?_ fun _ =>
      (twins_inSession (Session.twins_inWorld fun _ _ hw => ?_)).bind_eq fun _ => ?_
  · exact (hw.note (.same _)).display _
  · exact .change fun _ _ hb => lifted.withConsents hb
  · exact hw.pass consent.lasts
  · split
    · exact .pure rfl
    · exact .pure rfl
    · exact .fail _

/-- An act that yields entries without records. -/
theorem twins_yielding {act act' : Act Failure Session Entry}
    (h : act.Twins (Session.Alike S) Eq act') (hbare : act.Yields (·.payload = none)) :
    (inSession act).Twins R Bare (inSession act') :=
  twins_inSession (h.yielding hbare)

theorem twins_deleteNow (d : Deletion) :
    (deleteNow d).Twins R (Option.Rel Bare) (deleteNow d) := by
  have hbare : (Session.executeDeletion d).Yields (·.payload = none) := by
    refine .bind fun _ => ?_
    split
    · exact .bind fun _ => .pure rfl
    · exact .pure rfl
  refine (twins_ask _).bind_eq fun _ => .ite ?_ (.pure .none)
  exact (twins_yielding (Session.twins_executeDeletion d) hbare).bind fun _ _ h => .pure (.some h)

theorem twins_logCommand (hl : l.Alike S l') (entry : Option Entry) :
    (logCommand l entry).Twins R Eq (logCommand l' entry) := by
  unfold logCommand
  rw [Interpreter.lineFields_eq hl]
  exact twins_emit _ _ _

theorem twins_logFailure (hl : l.Alike S l') (failure : Failure) :
    (logFailure l failure).Twins R Eq (logFailure l' failure) := by
  unfold logFailure
  rw [Interpreter.lineFields_eq hl, hl.verb]
  exact .ite (twins_emit _ _ _) (twins_emit _ _ _)

theorem twins_report (hl : l.Alike S l') (failure : Failure) :
    (report l failure).Twins R Bare (report l' failure) :=
  (twins_inSession Session.twins_dropDeferred).bind_eq fun _ =>
    (Act.Twins.settle (.refl _)).bind_eq fun _ =>
      (twins_logFailure hl failure).bind_eq fun _ => .pure ⟨rfl, rfl⟩

theorem twins_present {entry : Entry} (hentry : entry.payload = none) :
    (present entry).Twins R Eq (present entry) := by
  refine .change fun b b' hb => ?_
  have helapsed : b'.elapsed = b.elapsed := (lifted.session hb).elapsed
  rw [helapsed]
  exact lifted.withFeedback hb hentry

theorem twins_carryOut (effect : Effect) : (carryOut effect).Twins R Eq (carryOut effect) :=
  (Course.Twins.ofAct (twins_inSession (Session.twins_touch effect))).bind_eq Course.Twins.undergo

theorem twins_handOver : handOver.Twins R Eq handOver :=
  (Course.Twins.ofAct (twins_inSession Session.twins_takeDeferred)).bind_eq fun _ =>
    .forM fun effect _ => twins_carryOut effect

/-! ## Commands -/

/-- The secret of the account that a line asks for is copied. -/
theorem twins_secret (hl : l.Alike S l') :
    (do
      let account ← inSession (Session.secretAccountOf l)
      return some (Session.secretEntry false (← copySecret account)) :
      Course QuickBar (Option Entry)).Twins R (Option.Rel Bare)
    (do
      let account ← inSession (Session.secretAccountOf l')
      return some (Session.secretEntry false (← copySecret account))) := by
  intro b b' h
  obtain ⟨result, result', hrun, hrun', hresult⟩ := (lifted.session h).secretAccountOf hl
  have hact : ∀ {l : Line} {b : QuickBar} {result : Except Failure Account},
      Session.secretAccountOf l b.session = (result, b.session) →
      inSession (Session.secretAccountOf l) b = (result, b) := by
    intro l b result hrun
    rw [inSession, Act.run_within, hrun]
  cases hresult with
  | error failure => exact .bind_ofAct_error (hact hrun) (hact hrun') h
  | ok hfound =>
    obtain ⟨ha, hheld⟩ := hfound
    refine .bind_ofAct (hact hrun) (hact hrun') ?_
    have hcopied := Course.twinsAt_copySecret (twins_inSession (R := R)) ha b b'
      ⟨.ok rfl, lifted.withSession h hheld⟩
    refine hcopied.bind fun b b' hb => ?_
    rw [secretEntry_alike hb]
    exact .pure (.some ⟨rfl, rfl⟩)

variable [Std.Refl S]

theorem twins_creationOf (hl : l.Alike S l') (kind : Deletable) :
    (inSession (Session.creationOf l kind)).Twins R Bare (inSession (Session.creationOf l' kind)) := by
  refine twins_yielding (Session.twins_creationOf hl kind) fun s entry hentry => ?_
  obtain ⟨message, rfl⟩ := Session.yields_creationOf l kind s entry hentry
  rfl

theorem twins_executeVault (hl : l.Alike S l') :
    (executeVault l).Twins R (Option.Rel Bare) (executeVault l') := by
  unfold executeVault
  rw [hl.subVerb]
  refine (Act.Twins.settle (.refl _)).bind_eq fun action => ?_
  cases action with
  | delete => exact (twins_inSession (Session.twins_deletionOf hl .vault)).bind_eq twins_deleteNow
  | _ => exact (twins_creationOf hl .vault).bind fun _ _ h => .pure (.some h)

theorem twins_executeAccount (hl : l.Alike S l') :
    (executeAccount l).Twins R (Option.Rel Bare) (executeAccount l') := by
  unfold executeAccount
  rw [hl.subVerb]
  refine (Course.Twins.done (.refl _)).bind_eq fun action => ?_
  cases action with
  | password => exact twins_secret hl
  | delete =>
    exact (Course.Twins.ofAct (twins_inSession (Session.twins_deletionOf hl .account))).bind_eq
      fun d => .ofAct (twins_deleteNow d)
  | _ => exact (Course.Twins.ofAct (twins_creationOf hl .account)).bind fun _ _ h => .pure (.some h)

theorem twins_execute (hl : l.Alike S l') :
    (execute l).Twins R (Option.Rel Bare) (execute l') := by
  have hoverview := twins_yielding (R := R) twins_returnToOverview
    (.bind fun _ => .bind fun _ => .pure rfl)
  have hpage := twins_yielding (R := R) (Session.twins_openPage l.subVerb)
    (Session.yields_openPage l.subVerb)
  unfold execute
  rw [hl.verb, hl.subVerb]
  split
  · exact .pure (.some ⟨rfl, rfl⟩)
  · exact (Course.Twins.ofAct hoverview).bind fun _ _ h => .pure (.some h)
  · exact (Course.Twins.ofAct hpage).bind fun _ _ h => .pure (.some h)
  · exact .ofAct (twins_executeVault hl)
  · exact twins_executeAccount hl
  · exact .done (.error _)

/-! ## Lines -/

theorem twins_perform (hl : l.Alike S l') :
    (perform l).Twins R (Option.Rel Bare) (perform l') := by
  refine (twins_execute hl).bind fun entry entry' hentry => ?_
  obtain rfl := eq_of_bare hentry
  exact (Course.Twins.ofAct (twins_logCommand hl entry)).bind_eq fun _ =>
    twins_handOver.bind_eq fun _ => .pure hentry

theorem twins_answer (hl : l.Alike S l') : (answer l).Twins R (Option.Rel Bare) (answer l') := by
  refine (twins_perform hl).attemptUnlessInterrupted.bind fun result result' hresult => ?_
  cases hresult with
  | ok hentry => exact .pure hentry
  | error failure =>
    exact (Course.Twins.ofAct (twins_report hl failure)).bind fun _ _ h => .pure (.some h)

/-- Lines with parts that are alike. -/
theorem twins_course {line line' : Text}
    (h : Option.Rel (Line.Alike S) (Line.parse line) (Line.parse line')) :
    (course line).Twins R (Option.Rel Bare) (course line') := by
  unfold course
  generalize Line.parse line = parts at h ⊢
  generalize Line.parse line' = parts' at h ⊢
  cases h with
  | none => exact .pure .none
  | some hl =>
    refine (twins_answer hl).bind fun entry entry' hentry => ?_
    cases hentry with
    | none => exact .pure .none
    | some h =>
      obtain ⟨rfl, hbare⟩ := h
      exact (Course.Twins.ofAct (twins_present hbare)).bind_eq fun _ => .pure (.some ⟨rfl, hbare⟩)

theorem twins_submitNested (depth : Nat) {line line' : Text}
    (h : Option.Rel (Line.Alike S) (Line.parse line) (Line.parse line')) :
    (submitNested depth line).Twins R (Option.Rel Bare) (submitNested depth line') := by
  induction depth generalizing line line' with
  | zero => exact fun b b' hb => (twins_course h b b' hb).run fun _ _ _ _ ht => ⟨.ok rfl, ht⟩
  | succ depth ih =>
    exact fun b b' hb => (twins_course h b b' hb).run fun line t t' _ ht =>
      Act.outcomes_discard (ih (Line.parse_alike line) t t' ht)

/-- **Two lines** with parts that are alike are answered alike. -/
theorem twins_submitPaired {line line' : Text}
    (h : Option.Rel (Line.Alike S) (Line.parse line) (Line.parse line')) :
    (submit line).Twins R (Option.Rel Bare) (submit line') := by
  have hpending : (Act.look (·.session.pendingReactions) : Act Failure QuickBar Nat).Twins R Eq
      (Act.look (·.session.pendingReactions)) := .look fun _ _ hb => by
    rw [(lifted.session hb).rest]
    rfl
  exact hpending.bind_eq fun depth => twins_submitNested depth h

/-- **One line** is answered alike. -/
theorem twins_submit (line : Text) : (submit line).Twins R (Option.Rel Bare) (submit line) :=
  twins_submitPaired (Line.parse_alike line)

end QuickBar

/-- What a host does with a bar. -/
inductive BarStep
  | submit (line : Text)
  | poll
  /-- The world goes on. -/
  | elapse (change : World → World)

namespace BarStep

open QuickBar

/-- What is done for a step. Yields the entry that the host gets. -/
def act : BarStep → Act Failure QuickBar (Option Entry)
  | submit line => QuickBar.submit line
  | poll => fun b => (.ok b.poll.1, b.poll.2)
  | elapse change => do
    inSession (Session.inWorld change)
    return none

/-- The state after a run; a step that fails does not stop the host. -/
def sequence (steps : List BarStep) (b : QuickBar) : QuickBar :=
  steps.foldl (fun b s => (s.act b).2) b

/-- What the host gets in a run, step by step. -/
def answers : List BarStep → QuickBar → List (Except Failure (Option Entry))
  | [], _ => []
  | s :: rest, b => (s.act b).1 :: answers rest (s.act b).2

/-- What goes on in the world does not depend on the texts that were copied. -/
def Blind (S : Text → Text → Prop) : BarStep → Prop
  | elapse change => ∀ w w', w.Alike S w' → (change w).Alike S (change w')
  | _ => True

variable {S : Text → Text → Prop} [Std.Refl S]

theorem twins_act {s : BarStep} (h : s.Blind S) :
    s.act.Twins (QuickBar.Alike S) (Option.Rel Bare) s.act := by
  cases s with
  | submit line => exact twins_submit line
  | poll => exact fun b b' hb => ⟨.ok (poll_alike hb).1, (poll_alike hb).2⟩
  | elapse change =>
    exact (twins_inSession (Session.twins_inWorld h)).bind_eq fun _ => .pure .none

/-- **Whatever a host does**, bars answer alike and stay alike. -/
theorem alike_sequence {steps : List BarStep} (hsteps : ∀ s ∈ steps, s.Blind S) {b b' : QuickBar}
    (h : b.Alike S b') :
    Forall₂ (Act.Outcomes (Option.Rel Bare)) (answers steps b) (answers steps b') ∧
      (sequence steps b).Alike S (sequence steps b') := by
  induction steps generalizing b b' with
  | nil => exact ⟨.nil, h⟩
  | cons s rest ih =>
    obtain ⟨hanswer, hstate⟩ := twins_act (hsteps s List.mem_cons_self) b b' h
    obtain ⟨hanswers, hend⟩ := ih (fun s' hs' => hsteps s' (List.mem_cons_of_mem s hs')) hstate
    exact ⟨.cons hanswer hanswers, hend⟩

end BarStep

end VaultConsole
