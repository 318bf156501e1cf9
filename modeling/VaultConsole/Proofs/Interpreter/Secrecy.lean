import VaultConsole.Proofs.Interpreter.Deletion
import VaultConsole.Proofs.Session.Secrecy

/-!
# Interpreters that are alike

Two interpreters are alike if their sessions are, and if they are the same otherwise but for entries
of the log that are related. A line, submitted to both, does the same on both and leaves them alike.
Entries that are equal are related; if a line asks for a secret, the answers that name related secrets
have to be, too.

* `Interpreter.OverSessions`: relations of interpreters over sessions that are alike.
* `Interpreter.Alike`: the relation.
* `Turn.AsksForSecret`, `Entry.Telling`: turns that ask for a secret, and what they may answer.
* `Interpreter.Paired`: lines that can be submitted side by side; so can each line with itself.
* `Interpreter.twinsAt_course`, `Interpreter.twins_submitPaired`: such lines on both sides.
* `HostStep.Blind`, `HostStep.alike_sequence`: **whatever a host does, interpreters stay alike.**
-/

namespace VaultConsole

open List (Forall₂)

/-- Related entries may name secrets that are related. -/
def Entry.Telling (S : Text → Text → Prop) (E : Entry → Entry → Prop) : Prop :=
  ∀ a a', Account.Alike S a a' → E (Session.secretEntry true a) (Session.secretEntry true a')

/-- While no deletion waits, the line asks for a secret. -/
def Turn.AsksForSecret (t : Turn) : Prop :=
  t.start.session.isAwaiting = false ∧ ∃ l, Line.parse t.line = some l ∧ l.AsksForSecret

/-- A relation of interpreters that have sessions which are alike and logs whose entries are related.
These can be changed alone, and the rest can be changed on both sides in one way. -/
class Interpreter.OverSessions (S : outParam (Text → Text → Prop))
    (E : outParam (Entry → Entry → Prop)) (R : Interpreter → Interpreter → Prop) : Prop where
  session : ∀ {i i'}, R i i' → i.session.Alike S i'.session
  log : ∀ {i i'}, R i i' → Forall₂ E i.log.entries i'.log.entries
  withSession : ∀ {i i' session session'}, R i i' → session.Alike S session' →
    R { i with session } { i' with session := session' }
  withLog : ∀ {i i' log log'}, R i i' → Forall₂ E log.entries log'.entries →
    R { i with log } { i' with log := log' }
  change : ∀ {f : Interpreter → Interpreter} {i i'},
    (∀ i session log, f { i with session, log } = { f i with session, log }) →
    (∀ i, (f i).session = i.session) → (∀ i, (f i).log = i.log) → R i i' → R (f i) (f i')

/-- Two interpreters that differ at most in secrets, in texts that were copied and in entries that are
related. -/
inductive Interpreter.Alike (S : Text → Text → Prop) (E : Entry → Entry → Prop) :
    Interpreter → Interpreter → Prop
  | intro (i : Interpreter) {session : Session} {log : EntryLog}
      (hsession : i.session.Alike S session) (hlog : Forall₂ E i.log.entries log.entries) :
      Alike S E i { i with session, log }

namespace Interpreter

variable {S : Text → Text → Prop} {E : Entry → Entry → Prop} {R : Interpreter → Interpreter → Prop}
  {α α' : Type}

namespace Alike

variable {i i' : Interpreter}

theorem session (h : i.Alike S E i') : i.session.Alike S i'.session := by
  obtain ⟨hsession, -⟩ := h
  exact hsession

theorem log (h : i.Alike S E i') : Forall₂ E i.log.entries i'.log.entries := by
  obtain ⟨-, hlog⟩ := h
  exact hlog

/-- The entries of the logs may be related in another way. -/
theorem relog {E' : Entry → Entry → Prop} (h : i.Alike S E i')
    (hlog : Forall₂ E' i.log.entries i'.log.entries) : i.Alike S E' i' := by
  obtain ⟨hsession, -⟩ := h
  exact .intro i hsession hlog

theorem rest (h : i.Alike S E i') : i' = { i with session := i'.session, log := i'.log } := by
  obtain ⟨-, -⟩ := h
  rfl

end Alike

instance : OverSessions S E (Alike S E) where
  session := Alike.session
  log := Alike.log
  withSession := by
    intro i i' session session' h hsession
    obtain ⟨-, hlog⟩ := h
    exact .intro { i with session } hsession hlog
  withLog := by
    intro i i' log log' h hlog
    obtain ⟨hsession, -⟩ := h
    exact .intro { i with log } hsession hlog
  change := by
    intro f i i' hf hsession hlog h
    obtain ⟨hs, hl⟩ := h
    rw [← hsession] at hs
    rw [← hlog] at hl
    exact (congrArg _ (hf i _ _)).mpr (.intro (f i) hs hl)

/-! ## Lines side by side -/

/-- Two lines that can be submitted side by side: they have the same words, decide the same about a
deletion, and are announced and remembered alike. -/
structure Paired (S : Text → Text → Prop) (R : Interpreter → Interpreter → Prop) (line line' : Text) :
    Prop where
  parts : Option.Rel (Line.Alike S) (Line.parse line) (Line.parse line')
  decision : Decision.ofLine line' = Decision.ofLine line
  announced : (announce line.strip).Twins R Eq (announce line'.strip)
  remembered : (remember line.strip).Twins R Eq (remember line'.strip)

theorem Paired.isEmpty_eq {line line' : Text} (h : Paired S R line line') :
    line'.strip.isEmpty = line.strip.isEmpty := by
  have hparse (line : Text) : line.strip.isEmpty = (Line.parse line).isNone := by
    unfold Line.parse
    simp only
    split
    · next h => rw [h]; rfl
    · next h => simpa using h
  have hparts := h.parts
  rw [hparse, hparse]
  generalize Line.parse line = parts at hparts ⊢
  generalize Line.parse line' = parts' at hparts ⊢
  cases hparts <;> rfl

variable {l l' : Line}

/-- A log is told the same of lines that are alike. -/
theorem lineFields_eq (hl : l.Alike S l') : lineFields l' = lineFields l := by
  rw [lineFields, lineFields, hl.verb, hl.subVerb, hl.flags.flagsField_eq]

/-! ## Acts -/

section
variable [lifted : OverSessions S E R]
include lifted

theorem pending_eq {i i' : Interpreter} (h : R i i') : i'.pending = i.pending := by
  unfold Interpreter.pending
  rw [(lifted.session h).rest]
  rfl

theorem twins_inSession {V : α → α' → Prop} {act : Act Failure Session α}
    {act' : Act Failure Session α'} (h : act.Twins (Session.Alike S) V act') :
    (inSession act).Twins R V (inSession act') :=
  h.within (fun _ _ hi => lifted.session hi) fun _ _ _ _ hi hs => lifted.withSession hi hs

/-- What is no part of the session or the log can be changed on both sides. -/
theorem twins_change {f : Interpreter → Interpreter}
    (hf : ∀ i session log, f { i with session, log } = { f i with session, log })
    (hsession : ∀ i, (f i).session = i.session) (hlog : ∀ i, (f i).log = i.log) :
    (Act.change f : Act Failure Interpreter Unit).Twins R Eq (Act.change f) :=
  .change fun _ _ h => lifted.change hf hsession hlog h

theorem twins_emit (severity : Severity) (name : Text) (fields : Table Text Json) :
    (emit severity name fields).Twins R Eq (emit severity name fields) :=
  twins_inSession (Session.twins_emit severity name fields)

theorem twins_answer {entry entry' : Entry} (h : E entry entry') :
    (answer entry).Twins R Eq (answer entry') :=
  .change fun _ _ hi => lifted.withLog hi (List.rel_append (lifted.log hi) (.cons h .nil))

theorem twins_remember (line : Text) : (remember line).Twins R Eq (remember line) :=
  twins_change (fun _ _ _ => rfl) (fun _ => rfl) fun _ => rfl

theorem twins_entriesSince (start : Nat) :
    (entriesSince start).Twins R (Forall₂ E) (entriesSince start) := by
  refine .look fun i i' hi => ?_
  have hlength := (lifted.log hi).length_eq
  unfold EntryLog.since Sequence.since Sequence.index
  rw [hlength]
  exact List.forall₂_drop _ (lifted.log hi)

/-- Announcing lines whose announcements are related. -/
theorem twins_announce {line line' : Text} (h : E (.info ("> " ++ line)) (.info ("> " ++ line'))) :
    (announce line).Twins R Eq (announce line') := by
  have hsize : (Act.look (·.log.size) : Act Failure Interpreter Nat).Twins R Eq
      (Act.look (·.log.size)) := .look fun _ _ hi => (lifted.log hi).length_eq
  refine hsize.bind_eq fun start => (twins_answer h).bind_eq fun _ => ?_
  refine Act.Twins.bind_eq ?_ fun _ => .pure rfl
  exact twins_change (fun _ _ _ => rfl) (fun _ => rfl) fun _ => rfl

/-- Related entries of one kind, or none. -/
def Answered (E : Entry → Entry → Prop) : Option Entry → Option Entry → Prop :=
  Option.Rel fun entry entry' => E entry entry' ∧ entry.kind = entry'.kind

theorem twins_conclude {entry entry' : Option Entry} (h : Answered E entry entry') :
    (conclude entry).Twins R Eq (conclude entry') := by
  cases h with
  | none => exact .change fun _ _ hi => lifted.withLog hi .nil
  | some h => exact twins_answer h.1

theorem twins_logCommand (hl : l.Alike S l') {entry entry' : Option Entry} (h : Answered E entry entry')
    (started : Binary64) :
    (logCommand l entry started).Twins R Eq (logCommand l' entry' started) := by
  have helapsed : (Act.look (·.session.elapsed) : Act Failure Interpreter Binary64).Twins R Eq
      (Act.look (·.session.elapsed)) := .look fun _ _ hi => (lifted.session hi).elapsed.symm
  unfold logCommand
  rw [lineFields_eq hl]
  refine helapsed.bind_eq fun elapsed => ?_
  cases h with
  | none => exact twins_emit _ _ _
  | some h =>
    simp only [h.2]
    exact twins_emit _ _ _

/-! ## Parts outside -/

theorem twins_carryOut (effect : Effect) : (carryOut effect).Twins R Eq (carryOut effect) :=
  (Course.Twins.ofAct (twins_inSession (Session.twins_touch effect))).bind_eq Course.Twins.undergo

theorem twins_schedule (effect : Effect) : (schedule effect).Twins R Eq (schedule effect) := by
  have hmake : ∀ move, (make effect move).Twins R Eq (make effect move) := by
    intro move
    cases move with
    | submit line => exact .call line
    | carryOut => exact twins_carryOut effect
    | hold => exact .ofAct (twins_inSession (Session.twins_enqueue effect))
  refine (Course.Twins.ofAct (twins_inSession Session.twins_takeHandling)).bind_eq fun handling => ?_
  exact (Course.Twins.forM fun move _ => hmake move).bind_eq fun _ => .ending _

theorem twins_handOver : handOver.Twins R Eq handOver :=
  (Course.Twins.ofAct (twins_inSession Session.twins_takeDeferred)).bind_eq fun _ =>
    .forM fun effect _ => twins_schedule effect

variable [Std.Refl E]

theorem twins_report (hl : l.Alike S l') (failure : Failure) :
    (report l failure).Twins R Eq (report l' failure) := by
  unfold report
  rw [lineFields_eq hl]
  refine (Act.Twins.settle (.refl _)).bind_eq fun _ => ?_
  exact (twins_emit _ _ _).bind_eq fun _ => twins_answer (Std.Refl.refl _)

theorem twins_giveUp (hl : l.Alike S l') (failure : Failure) :
    (giveUp l failure).Twins R Eq (giveUp l' failure) :=
  (twins_inSession Session.twins_dropDeferred).bind_eq fun _ => twins_report hl failure

theorem Paired.refl (line : Text) : Paired S R line line where
  parts := Line.parse_alike line
  decision := rfl
  announced := twins_announce (Std.Refl.refl _)
  remembered := twins_remember _

/-! ## Answers of the gate -/

theorem twins_carryOutDeletion (d : Deletion) :
    (carryOutDeletion d).Twins R Eq (carryOutDeletion d) := by
  refine ((twins_inSession (Session.twins_executeDeletion d)).attemptUnless _).bind
    fun result result' hresult => ?_
  rw [← hresult.eq]
  cases result with
  | ok entry => exact twins_answer (Std.Refl.refl _)
  | error failure =>
    refine (Act.Twins.settle (.refl _)).bind_eq fun _ => ?_
    exact .ite ((twins_emit _ _ _).bind_eq fun _ => twins_answer (Std.Refl.refl _))
      (twins_answer (Std.Refl.refl _))

omit [Std.Refl E] in
theorem twins_logDecision (d : Deletion) (decision : Decision) :
    (logDecision d decision).Twins R Eq (logDecision d decision) := by
  have hmoment : (Act.look (·.session.depot.world.localNow) :
      Act Failure Interpreter (Except Failure Timestamp)).Twins R Eq
      (Act.look (·.session.depot.world.localNow)) :=
    .look fun _ _ hi => (lifted.session hi).depot.localNow.symm
  have hlabel : (Act.look (·.session.depot.store.labelOf d.targetId) :
      Act Failure Interpreter (Except Failure Json)).Twins R Eq
      (Act.look (·.session.depot.store.labelOf d.targetId)) :=
    .look fun _ _ hi => ((lifted.session hi).depot.labelOf d.targetId).symm
  refine hmoment.bind_eq fun moment => (Act.Twins.settle (.refl _)).bind_eq fun _ => ?_
  refine hlabel.bind_eq fun label => (Act.Twins.settle (.refl _)).bind_eq fun target => ?_
  exact twins_emit _ _ _

theorem twins_follow {line line' : Text} (hline : Paired S R line line') (d : Deletion)
    (decision : Decision) :
    (follow line.strip d decision).Twins R Eq (follow line'.strip d decision) := by
  cases decision with
  | reject => exact twins_answer (Std.Refl.refl _)
  | cancel => exact hline.remembered.bind_eq fun _ => twins_answer (Std.Refl.refl _)
  | confirm => exact hline.remembered.bind_eq fun _ => twins_carryOutDeletion d

theorem twins_answerGate {line line' : Text} (hline : Paired S R line line') :
    (answerGate line.strip).Twins R Eq (answerGate line'.strip) := by
  have hgate : (Act.look (·.session.gate) : Act Failure Interpreter (Option Gate)).Twins R Eq
      (Act.look (·.session.gate)) := .look fun _ _ hi => by rw [(lifted.session hi).rest]
  have hresolve : Gate.resolve line'.strip = Gate.resolve line.strip := by
    funext gate
    rw [Gate.resolve, Gate.resolve, Decision.ofLine_strip, Decision.ofLine_strip, hline.decision]
  unfold answerGate
  rw [hresolve]
  refine hgate.bind_eq fun gate => ?_
  split
  · next decision d gate _ =>
    refine Act.Twins.bind_eq ?_ fun _ =>
      (twins_logDecision d decision).bind_eq fun _ => twins_follow hline d _
    refine .change fun i i' hi => lifted.withSession hi ?_
    have hs := lifted.session hi
    generalize i.session = session at hs ⊢
    generalize i'.session = session' at hs ⊢
    obtain ⟨h⟩ := hs
    exact .intro { session with gate := some gate } h
  · exact .pure rfl

/-! ## Commands -/

variable [Std.Refl S] {i i' : Interpreter} {line line' : Text}

/-- A command gives related entries on both sides. -/
theorem twinsAt_execute (h : R i i') (hl : l.Alike S l')
    (htelling : l.AsksForSecret → Entry.Telling S E) :
    Course.TwinsAt R (Answered E) (execute l) i (execute l') i' := by
  by_cases hasks : l.AsksForSecret
  · obtain ⟨result, result', hrun, hrun', hresult⟩ := (lifted.session h).secretAccountOf hl
    have hact : ∀ {l : Line} {i : Interpreter} {result : Except Failure Account}, l.AsksForSecret →
        Session.secretAccountOf l i.session = (result, i.session) →
        inSession (Session.execute l) i = (result.map (Reply.secret · true), i) := by
      intro l i result hasks hrun
      rw [inSession, Act.run_within, Session.execute_of_asksForSecret hasks, Act.run_bind, hrun]
      cases result <;> rfl
    have hrun := hact hasks hrun
    have hrun' := hact (hl.asksForSecret hasks) hrun'
    cases hresult with
    | error failure => exact .bind_ofAct_error hrun hrun' h
    | ok hfound =>
      obtain ⟨ha, hheld⟩ := hfound
      refine .bind_ofAct hrun hrun' ?_
      have hcopied := Course.twinsAt_copySecret (twins_inSession (R := R)) ha i i'
        ⟨.ok rfl, lifted.withSession h hheld⟩
      exact hcopied.bind fun b b' hb => .pure (.some ⟨htelling hasks b b' hb, rfl⟩)
  · refine ((Course.Twins.ofAct (twins_inSession (Session.twins_execute hl hasks))).bind ?_) i i' h
    rintro _ _ (entry | -)
    · exact .pure (.some ⟨Std.Refl.refl entry, rfl⟩)
    · exact .pure .none

theorem twinsAt_dispatch (h : R i i') (hl : l.Alike S l')
    (htelling : l.AsksForSecret → Entry.Telling S E) :
    Course.TwinsAt R Eq (dispatch l) i (dispatch l') i' := by
  have hstarted : ∀ i : Interpreter, (inSession (Act.look Session.elapsed) :
      Act Failure Interpreter Binary64) i = (.ok i.session.elapsed, i) := fun _ => rfl
  refine .bind_ofAct (hstarted i) (hstarted i') ?_
  rw [(lifted.session h).elapsed]
  refine (twinsAt_execute h hl htelling).attemptUnlessInterrupted.bind fun result result' hresult => ?_
  cases hresult with
  | error failure => exact .ofAct (twins_giveUp hl failure)
  | ok hentry =>
    refine (Course.Twins.ofAct (twins_conclude hentry)).bind_eq fun _ => ?_
    refine (Course.Twins.ofAct (twins_logCommand hl hentry _)).bind_eq fun _ => ?_
    refine twins_handOver.attemptUnlessInterrupted.bind fun done done' hdone => ?_
    cases hdone with
    | ok _ => exact .pure rfl
    | error failure => exact .ofAct (twins_report hl failure)

/-! ## Lines -/

/-- What is done for a line that was announced. -/
theorem twinsAt_process (h : R i i') (hline : Paired S R line line')
    (htelling : i.session.isAwaiting = false →
      ∀ l, Line.parse line = some l → l.AsksForSecret → Entry.Telling S E) :
    Course.TwinsAt R Eq (process line.strip) i (process line'.strip) i' := by
  have hlook : ∀ i : Interpreter, (inSession (Act.look Session.isAwaiting) :
      Act Failure Interpreter Bool) i = (.ok i.session.isAwaiting, i) := fun _ => rfl
  have hawaits : i'.session.isAwaiting = i.session.isAwaiting := by
    rw [(lifted.session h).rest]
    rfl
  refine .bind_ofAct (hlook i) (hlook i') ?_
  rw [hawaits]
  cases hgate : i.session.isAwaiting with
  | true => exact (Course.Twins.ofAct (twins_answerGate hline)) i i' h
  | false =>
    simp only [Bool.false_eq_true, if_false, Line.parse_strip]
    have hparts := hline.parts
    have hquiet := htelling hgate
    generalize Line.parse line = parts at hparts hquiet ⊢
    generalize Line.parse line' = parts' at hparts ⊢
    cases hparts with
    | none => exact .done (.ok rfl) h
    | some hl =>
      have hremembered := (hline.remembered i i' h).2
      exact .bind_ofAct rfl rfl (twinsAt_dispatch hremembered hl (hquiet _ rfl))

/-- **One line** does the same on both sides. -/
theorem twinsAt_course (h : R i i') (hline : Paired S R line line')
    (htelling : i.session.isAwaiting = false →
      ∀ l, Line.parse line = some l → l.AsksForSecret → Entry.Telling S E) :
    Course.TwinsAt R (Forall₂ E) (course line) i (course line') i' := by
  unfold course
  simp only [hline.isEmpty_eq]
  split
  · exact .done (.ok .nil) h
  · have hannounced := (hline.announced i i' h).2
    have hsize : i'.log.size = i.log.size := (lifted.log h).length_eq.symm
    have hrun (line : Text) (j : Interpreter) :
        announce line.strip j = (.ok j.log.size, (announce line.strip j).2) := rfl
    refine .bind_ofAct (hrun line i) (hrun line' i') ?_
    rw [hsize]
    refine (twinsAt_process hannounced hline ?_).bind fun _ _ _ => .ofAct (twins_entriesSince _)
    exact htelling

/-- **A line that is submitted**, with all the lines in it. -/
theorem twins_submitNested (depth : Nat) (h : R i i') (hline : Paired S R line line')
    (htelling : ∀ t ∈ Turn.turnsAt depth line i, t.AsksForSecret → Entry.Telling S E) :
    Act.Outcomes (Forall₂ E) (submitNested depth line i).1 (submitNested depth line' i').1 ∧
      R (submitNested depth line i).2 (submitNested depth line' i').2 := by
  induction depth generalizing line line' i i' with
  | zero =>
    rw [submitNested_eq, submitNested_eq]
    refine (twinsAt_course h hline fun hgate l hl hasks => ?_).run fun line t t' _ ht => ⟨.ok rfl, ht⟩
    exact htelling _ (List.mem_singleton_self _) ⟨hgate, l, hl, hasks⟩
  | succ depth ih =>
    rw [submitNested_eq, submitNested_eq]
    refine (twinsAt_course h hline fun hgate l hl hasks => ?_).run fun line t t' hcall ht => ?_
    · exact htelling _ List.mem_cons_self ⟨hgate, l, hl, hasks⟩
    · -- the turns of a line inside are turns of the whole, and it is the same on both sides
      exact Act.outcomes_discard <| ih ht (.refl line) fun u hu =>
        htelling u (List.mem_cons_of_mem _ (List.mem_flatMap.2 ⟨_, hcall, hu⟩))

theorem twins_submitPaired (h : R i i') (hline : Paired S R line line')
    (htelling : ∀ t ∈ HostStep.turnsOf line i, t.AsksForSecret → Entry.Telling S E) :
    Act.Outcomes (Forall₂ E) (submit line i).1 (submit line' i').1 ∧
      R (submit line i).2 (submit line' i').2 := by
  have hsubmit : submit line' i' = submitNested i.pending line' i' := by
    rw [← pending_eq h]
    rfl
  rw [hsubmit]
  exact twins_submitNested i.pending h hline htelling

theorem twins_submit (h : R i i')
    (htelling : ∀ t ∈ HostStep.turnsOf line i, t.AsksForSecret → Entry.Telling S E) :
    Act.Outcomes (Forall₂ E) (submit line i).1 (submit line i').1 ∧
      R (submit line i).2 (submit line i').2 :=
  twins_submitPaired h (.refl line) htelling

end

end Interpreter

namespace HostStep

open Interpreter (twins_inSession twins_carryOut twins_change)

variable {S : Text → Text → Prop} {E : Entry → Entry → Prop} {i i' : Interpreter}

/-- What goes on in the world does not depend on the texts that were copied. -/
def Blind (S : Text → Text → Prop) : HostStep → Prop
  | runScheduled wait => ∀ delay, (wait delay).Twins (World.Alike S) Eq (wait delay)
  | elapse change => ∀ w w', w.Alike S w' → (change w).Alike S (change w')
  | _ => True

theorem twins_recallBy (step : History → Option Text × History) :
    (Act.change (·.recallBy step) : Act Failure Interpreter Unit).Twins (Interpreter.Alike S E) Eq
      (Act.change (·.recallBy step)) := by
  refine twins_change (fun i session log => ?_) (fun i => ?_) fun i => ?_ <;>
  · unfold Interpreter.recallBy
    simp only
    rcases step i.history with ⟨_ | text, history⟩ <;> rfl

theorem twins_course {s : HostStep} (h : s.Blind S) :
    s.course.Twins (Interpreter.Alike S E) Eq s.course := by
  have hchange : ∀ {f : Interpreter → Interpreter},
      (∀ i session log, f { i with session, log } = { f i with session, log }) →
      (∀ i, (f i).session = i.session) → (∀ i, (f i).log = i.log) →
      (Course.ofAct (Act.change f : Act Failure Interpreter Unit)).Twins (Interpreter.Alike S E) Eq
        (Course.ofAct (Act.change f)) :=
    fun hf hsession hlog => .ofAct (twins_change hf hsession hlog)
  cases s with
  | submit line => exact .call line
  | submitBuffer =>
    have hbuffer : (Act.look (·.buffer) : Act Failure Interpreter Text).Twins (Interpreter.Alike S E)
        Eq (Act.look (·.buffer)) := .look fun _ _ hi => by rw [hi.rest]
    exact (Course.Twins.ofAct hbuffer).bind_eq fun line => .call line
  | edit text => exact hchange (fun _ _ _ => rfl) (fun _ => rfl) fun _ => rfl
  | recallPrevious => exact .ofAct (twins_recallBy History.previous)
  | recallNext => exact .ofAct (twins_recallBy History.next)
  | complete => exact hchange (fun _ _ _ => rfl) (fun _ => rfl) fun _ => rfl
  | runScheduled wait =>
    refine (Course.Twins.ofAct (twins_inSession Session.twins_takeScheduled)).bind_eq fun effects => ?_
    refine .forM fun effect _ => (Course.Twins.ofAct ?_).bind_eq fun _ => twins_carryOut _
    refine twins_inSession (Session.twins_inDepot ((h effect.1).within ?_ ?_))
    · exact fun _ _ hd => hd.world
    · exact fun _ _ _ _ hd hw => ⟨hw, hd.store⟩
  | elapse change => exact .ofAct (twins_inSession (Session.twins_inWorld h))

variable [Std.Refl S] [Std.Refl E]

theorem alike_run {s : HostStep} (hs : s.Blind S) (h : i.Alike S E i')
    (htelling : ∀ t ∈ s.turns i, t.AsksForSecret → Entry.Telling S E) :
    (s.run i).Alike S E (s.run i') := by
  refine ((twins_course hs i i' h).run fun line t t' hcall ht => ?_).2
  exact Act.outcomes_discard <| Interpreter.twins_submit ht fun u hu =>
    htelling u (List.mem_flatMap.2 ⟨_, hcall, hu⟩)

/-- **Whatever a host does**, interpreters stay alike. -/
theorem alike_sequence {steps : List HostStep} (hsteps : ∀ s ∈ steps, s.Blind S)
    (h : i.Alike S E i')
    (htelling : ∀ t ∈ trace steps i, t.AsksForSecret → Entry.Telling S E) :
    (sequence steps i).Alike S E (sequence steps i') := by
  induction steps generalizing i i' with
  | nil => exact h
  | cons s rest ih =>
    have hrun := alike_run (hsteps s List.mem_cons_self) h fun t ht =>
      htelling t (List.mem_append_left _ ht)
    exact ih (fun s' hs' => hsteps s' (List.mem_cons_of_mem s hs')) hrun fun t ht =>
      htelling t (List.mem_append_right _ ht)

end HostStep

end VaultConsole
