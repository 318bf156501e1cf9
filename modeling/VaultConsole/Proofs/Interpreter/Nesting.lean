import VaultConsole.Proofs.Interpreter.Opening

/-!
# How deep lines are nested

A part outside that submits lines has less to do afterwards, so a line that is submitted along a
course begins with less to come than the course did. The reactions that are still to come therefore
bound how deep lines can be nested: where there is room for as many levels, no line goes missing.

* `Course.Paced`: a course that submits lines only when less than a number is to come.
* `Course.calls_lt`, `Course.run_congr`: the lines along such a course.
* `Interpreter.paced_course`: the course of a line is one.
* `Interpreter.submitNested_eq_submit`: **more room for nested lines makes no difference.**
-/

namespace VaultConsole

namespace Course

variable {σ α β : Type} {μ : σ → Nat} {n : Nat}

/-- From a state on, the own acts of a course do not raise a measure, and a line is submitted only
when the measure is below a number. -/
def PacedAt (μ : σ → Nat) (n : Nat) : Course σ α → σ → Prop
  | done _, _ => True
  | own act next, s => μ (act s).2 ≤ μ s ∧ PacedAt μ n (next (act s).1) (act s).2
  | submit _ next, s => μ s < n ∧ ∀ result s', μ s' ≤ μ s → PacedAt μ n (next result) s'

theorem PacedAt.proceed {c : Course σ α} {next : Except Failure α → Course σ β} {s : σ}
    (h : c.PacedAt μ n s) (hnext : ∀ result s', μ s' ≤ μ s → (next result).PacedAt μ n s') :
    (c.proceed next).PacedAt μ n s := by
  induction c generalizing s with
  | done result => exact hnext result s le_rfl
  | own act rest ih => exact ⟨h.1, ih _ h.2 fun result s' hs => hnext result s' (hs.trans h.1)⟩
  | submit line rest ih =>
    exact ⟨h.1, fun result s' hs =>
      ih result (h.2 result s' hs) fun result' s'' hs' => hnext result' s'' (hs'.trans hs)⟩

/-- A course that is paced from all states where the measure is at most the number. -/
def Paced (μ : σ → Nat) (n : Nat) (c : Course σ α) : Prop := ∀ s, μ s ≤ n → c.PacedAt μ n s

namespace Paced

theorem pure (a : α) : Paced μ n (Pure.pure a : Course σ α) := fun _ _ => trivial

theorem ofAct {act : Act Failure σ α} (h : act.Keeps fun s s' => μ s' ≤ μ s) :
    Paced μ n (Course.ofAct act) := fun s _ => ⟨h s, trivial⟩

theorem proceed {c : Course σ α} {next : Except Failure α → Course σ β} (h : Paced μ n c)
    (hnext : ∀ result, Paced μ n (next result)) : Paced μ n (c.proceed next) :=
  fun s hs => (h s hs).proceed fun result s' hs' => hnext result s' (hs'.trans hs)

theorem bind {c : Course σ α} {next : α → Course σ β} (h : Paced μ n c)
    (hnext : ∀ a, Paced μ n (next a)) : Paced μ n (c >>= next) := by
  refine h.proceed fun result => ?_
  cases result with
  | ok a => exact hnext a
  | error failure => exact fun _ _ => trivial

theorem attempt {c : Course σ α} (h : Paced μ n c) : Paced μ n c.attempt :=
  h.proceed fun _ _ _ => trivial

theorem attemptUnlessInterrupted {c : Course σ α} (h : Paced μ n c) :
    Paced μ n c.attemptUnlessInterrupted := by
  refine h.proceed fun result s _ => ?_
  cases result with
  | ok a => trivial
  | error failure =>
    simp only
    split <;> trivial

theorem forM {items : List α} {f : α → Course σ PUnit} (h : ∀ a ∈ items, Paced μ n (f a)) :
    Paced μ n (items.forM f) := by
  induction items with
  | nil => exact fun _ _ => trivial
  | cons a rest ih =>
    exact (h a List.mem_cons_self).bind fun _ => ih fun b hb => h b (List.mem_cons_of_mem a hb)

end Paced

/-- Lines may be submitted one after another while the measure is below the number. -/
theorem pacedAt_forM {items : List α} {f : α → Course σ PUnit} {s : σ}
    (h : ∀ a ∈ items, ∀ s', μ s' ≤ μ s → (f a).PacedAt μ n s') : PacedAt μ n (items.forM f) s := by
  induction items generalizing s with
  | nil => trivial
  | cons a rest ih =>
    refine (h a List.mem_cons_self s le_rfl).proceed fun result s' hs => ?_
    cases result with
    | ok _ => exact ih fun b hb s'' hs' => h b (List.mem_cons_of_mem a hb) s'' (hs'.trans hs)
    | error failure => trivial

theorem paced_ending (failure : Option Failure) : Paced μ n (ending failure : Course σ Unit) := by
  intro s _
  cases failure <;> trivial

/-- A reaction is gone along with where it submits nothing or the measure is below the number. -/
theorem pacedAt_undergo {reaction : Reaction} {s : σ} (h : reaction.resubmits = [] ∨ μ s < n)
    (hs : μ s ≤ n) : PacedAt μ n (undergo reaction : Course σ Unit) s := by
  refine PacedAt.proceed (c := reaction.resubmits.forM call) ?_ fun result s' hs' => ?_
  · rcases h with hnone | hlt
    · rw [hnone]
      trivial
    · exact pacedAt_forM fun line _ s' hs' => ⟨hs'.trans_lt hlt, fun _ _ _ => trivial⟩
  · cases result with
    | ok _ => exact paced_ending reaction.failure s' (hs'.trans hs)
    | error failure => trivial

section
variable {answer answer' : Text → Act Failure σ Unit} {c : Course σ α} {s : σ}

/-- Along a paced course the measure does not rise, if it does not with the lines. -/
theorem measure_run (hanswer : ∀ line s, μ (answer line s).2 ≤ μ s) (h : c.PacedAt μ n s) :
    μ (c.run answer s).2 ≤ μ s := by
  induction c generalizing s with
  | done result => exact le_rfl
  | own act next ih => exact (ih _ h.2).trans h.1
  | submit line next ih => exact (ih _ (h.2 _ _ (hanswer line s))).trans (hanswer line s)

/-- The lines along a paced course begin where the measure is below the number. -/
theorem calls_lt (hanswer : ∀ line s, μ (answer line s).2 ≤ μ s) (h : c.PacedAt μ n s)
    {call : Text × σ} (hcall : call ∈ c.calls answer s) : μ call.2 < n := by
  induction c generalizing s with
  | done result => cases hcall
  | own act next ih => exact ih _ h.2 hcall
  | submit line next ih =>
    rcases List.mem_cons.1 hcall with rfl | hcall
    · exact h.1
    · exact ih _ (h.2 _ _ (hanswer line s)) hcall

/-- Only the lines that are submitted along a course matter to it. -/
theorem run_congr (h : ∀ call ∈ c.calls answer s, answer call.1 call.2 = answer' call.1 call.2) :
    c.run answer s = c.run answer' s := by
  induction c generalizing s with
  | done result => rfl
  | own act next ih => exact ih _ h
  | submit line next ih =>
    have hline := h (line, s) List.mem_cons_self
    rw [run_submit, run_submit, ← hline]
    exact ih _ fun call hcall => h call (List.mem_cons_of_mem _ hcall)

end

end Course

namespace Session

/-- Parts outside have no more to do than before. -/
def Fewer (s s' : Session) : Prop := s'.pendingReactions ≤ s.pendingReactions

instance : Std.Refl Fewer := ⟨fun s => le_refl s.pendingReactions⟩

instance : IsTrans Session Fewer where
  trans _ _ _ h h' := Nat.le_trans h' h

instance : Coarse Fewer := ⟨Still.pending⟩

theorem fewer_of_calm {α : Type} {act : Act Failure Session α} (h : act.Keeps Calm) :
    act.Keeps Fewer := fun s => (h s).pending

theorem fewer_askToDelete (d : Deletion) : (askToDelete d).Keeps Fewer := by
  refine (Act.Keeps.look _).bind fun gate => ?_
  split
  · exact .fail _
  · refine (Act.Keeps.settle _).bind fun gate => Act.Keeps.bind ?_ fun _ => .pure _
    exact fun s => le_refl s.pendingReactions

theorem keeps_deletionOf {R : Session → Session → Prop} [Std.Refl R] [IsTrans Session R] (l : Line)
    (kind : Deletable) : (deletionOf l kind).Keeps R := by
  cases kind with
  | vault =>
    refine (Act.Keeps.settle _).bind fun name => (keeps_findVault name).bind fun vault => ?_
    exact (keeps_accountsIn vault.id).bind fun _ => .pure _
  | account =>
    exact (Act.Keeps.settle _).bind fun name => (keeps_findAccount name).bind fun _ => .pure _

theorem fewer_execute (l : Line) : (execute l).Keeps Fewer := by
  -- asking for a deletion changes the gate, so it is not calm, but calls no part outside
  by_cases h : ∃ kind, l.Deletes kind
  · obtain ⟨kind, hkind⟩ := h
    rw [execute_of_deletes hkind]
    refine Act.Keeps.bind ?_ fun _ => .pure _
    exact (keeps_deletionOf l kind).bind fewer_askToDelete
  · exact fewer_of_calm (keeps_execute fun kind hkind => h ⟨kind, hkind⟩)

end Session

namespace Interpreter

/-- How many calls of the parts outside can still submit lines. -/
def pending (i : Interpreter) : Nat := i.session.pendingReactions

theorem submit_eq (line : Text) (i : Interpreter) :
    submit line i = (course line).run (answerAt i.pending) i :=
  congrFun (submitNested_eq i.pending line) i

variable {n : Nat}

theorem paced_ofAct {α : Type} {act : Act Failure Interpreter α}
    (h : act.Keeps (Along Session.Fewer)) : Course.Paced pending n (Course.ofAct act) :=
  .ofAct h

/-- A part outside is called, and its reaction gone along with. -/
theorem paced_react {act : Act Failure Session Reaction} (h : Session.Reacts act) :
    Course.Paced pending n (do Course.undergo (← inSession act)) := by
  intro i hi
  obtain ⟨hcalm, hless⟩ := h i.session
  refine ⟨hcalm.pending, ?_⟩
  have hn : pending (inSession act i).2 ≤ n := hcalm.pending.trans hi
  cases hresult : (inSession act i).1 with
  | error failure => trivial
  | ok reaction =>
    exact Course.pacedAt_undergo ((hless reaction hresult).imp id fun hlt => hlt.trans_le hi) hn

theorem paced_carryOut (effect : Effect) : Course.Paced pending n (carryOut effect) :=
  paced_react (Session.reacts_touch effect)

theorem paced_schedule (effect : Effect) : Course.Paced pending n (schedule effect) := by
  have hmoves : ∀ move, (∀ line, move ≠ .submit line) → Course.Paced pending n (make effect move) := by
    intro move hmove
    cases move with
    | submit line => exact absurd rfl (hmove line)
    | carryOut => exact paced_carryOut effect
    | hold => exact paced_ofAct (keeps_inSession (Session.keeps_enqueue effect))
  intro i hi
  obtain ⟨hcalm, hless⟩ := Session.fixed_takeHandling i.session
  refine ⟨hcalm.pending, ?_⟩
  have hn : pending (inSession Session.takeHandling i).2 ≤ n := hcalm.pending.trans hi
  -- the moves of the scheduler, then its own failure
  refine Course.PacedAt.proceed (c := i.session.scheduler.next.1.moves.forM (make effect)) ?_
    fun result i' hi' => ?_
  · refine Course.pacedAt_forM fun move hmove i' hi' => ?_
    -- a scheduler that keeps to its timing submits no lines itself
    rcases hless with htiming | hlt
    · refine hmoves move (fun line hline => ?_) i' (hi'.trans hn)
      rw [htiming, hline] at hmove
      cases htiming : i.session.scheduler.afterwards <;> simp [htiming, Timing.handling] at hmove
    · have hlt' : pending i' < n := (hi'.trans_lt hlt).trans_le hi
      cases move with
      | submit line => exact ⟨hlt', fun _ _ _ => trivial⟩
      | carryOut => exact paced_carryOut effect i' hlt'.le
      | hold => exact paced_ofAct (keeps_inSession (Session.keeps_enqueue effect)) i' hlt'.le
  · cases result with
    | ok _ => exact Course.paced_ending _ i' (hi'.trans hn)
    | error failure => trivial

theorem paced_handOver : Course.Paced pending n handOver :=
  (paced_ofAct (keeps_inSession Session.keeps_takeDeferred)).bind fun _ =>
    .forM fun effect _ => paced_schedule effect

theorem paced_entryOf (reply : Reply) : Course.Paced pending n (entryOf reply) := by
  cases reply with
  | entry entry => exact .pure _
  | cleared => exact .pure _
  | secret account echo =>
    refine Course.Paced.bind ?_ fun account => .pure _
    refine (paced_ofAct (keeps_inSession (Session.keeps_hold account))).bind fun _ => ?_
    refine (paced_react (Session.reacts_copy account.password)).attempt.bind fun copied => ?_
    refine (paced_ofAct (keeps_inSession (Session.keeps_release account))).bind fun _ => ?_
    exact Course.Paced.bind (c := Course.done copied) (fun _ _ => trivial) fun _ => .pure _

theorem paced_dispatch (l : Line) : Course.Paced pending n (dispatch l) := by
  have hexecute : Course.Paced pending n (execute l) :=
    (paced_ofAct (keeps_inSession (Session.fewer_execute l))).bind paced_entryOf
  refine (paced_ofAct (keeps_inSession (.look _))).bind fun started => ?_
  refine hexecute.attemptUnlessInterrupted.bind fun result => ?_
  cases result with
  | error failure => exact paced_ofAct (keeps_giveUp l failure)
  | ok entry =>
    refine (paced_ofAct (keeps_conclude entry)).bind fun _ => ?_
    refine (paced_ofAct (keeps_logCommand l entry started)).bind fun _ => ?_
    refine paced_handOver.attemptUnlessInterrupted.bind fun result => ?_
    cases result with
    | error failure => exact paced_ofAct (keeps_report l failure)
    | ok _ => exact .pure _

theorem fewer_answerGate (line : Text) : (answerGate line).Keeps (Along Session.Fewer) := by
  refine (Act.Keeps.look _).bind fun gate => ?_
  split
  · next decision d gate _ =>
    refine Act.Keeps.bind (fun i => le_refl i.session.pendingReactions) fun _ => ?_
    refine Act.Keeps.bind (keeps_logDecision d decision) fun _ => ?_
    exact fun i => (takes_follow decision line d i).pending
  · exact .pure _

theorem paced_process (line : Text) : Course.Paced pending n (process line) := by
  refine (paced_ofAct (keeps_inSession (.look _))).bind fun awaits => ?_
  split
  · exact paced_ofAct (fewer_answerGate line)
  · split
    · next l _ => exact (paced_ofAct (keeps_remember line)).bind fun _ => paced_dispatch l
    · exact .pure _

/-- The course of a line submits further lines only where there is less to come. -/
theorem paced_course (line : Text) : Course.Paced pending n (course line) := by
  unfold course
  simp only
  split
  · exact .pure _
  · refine (paced_ofAct (keeps_announce _)).bind fun start => ?_
    exact (paced_process _).bind fun _ => paced_ofAct (keeps_entriesSince start)

/-! ## Room for nested lines -/

/-- A line leaves parts outside no more to do than before. -/
theorem pending_submitNested (depth : Nat) (line : Text) (i : Interpreter) :
    (submitNested depth line i).2.pending ≤ i.pending := by
  induction depth generalizing line i with
  | zero =>
    rw [submitNested_eq]
    exact Course.measure_run (fun _ _ => le_rfl) (paced_course line i le_rfl)
  | succ depth ih =>
    rw [submitNested_eq]
    refine Course.measure_run (fun line i => ?_) (paced_course line i le_rfl)
    rw [answerAt, Act.snd_discard]
    exact ih line i

theorem pending_answerAt (depth : Nat) (line : Text) (i : Interpreter) :
    (answerAt depth line i).2.pending ≤ i.pending := by
  cases depth with
  | zero => exact le_rfl
  | succ depth =>
    rw [answerAt, Act.snd_discard]
    exact pending_submitNested depth line i

/-- The lines that are submitted along the course of a line begin with less to come. -/
theorem pending_of_mem_calls {depth : Nat} {line : Text} {i : Interpreter}
    {call : Text × Interpreter} (h : call ∈ (course line).calls (answerAt depth) i) :
    call.2.pending < i.pending :=
  Course.calls_lt (pending_answerAt depth) (paced_course line i le_rfl) h

/-- One level more makes no difference where there is room for all that is to come. -/
theorem submitNested_succ {depth : Nat} {line : Text} {i : Interpreter} (h : i.pending ≤ depth) :
    submitNested (depth + 1) line i = submitNested depth line i := by
  induction depth generalizing line i with
  | zero =>
    rw [submitNested_eq, submitNested_eq]
    refine Course.run_congr fun call hcall => ?_
    -- nothing is to come, so no line is submitted
    have hlt := pending_of_mem_calls hcall
    omega
  | succ depth ih =>
    rw [submitNested_eq, submitNested_eq]
    refine Course.run_congr fun call hcall => ?_
    have hlt := pending_of_mem_calls hcall
    -- less is to come where the line begins, so the levels that are left are enough for it
    have hcall' : submitNested (depth + 1) call.1 call.2 = submitNested depth call.1 call.2 :=
      ih (by omega)
    rw [answerAt, answerAt, discard, discard]
    show (_ <$> submitNested (depth + 1) call.1 : Act Failure Interpreter Unit) call.2 =
      (_ <$> submitNested depth call.1 : Act Failure Interpreter Unit) call.2
    rw [Act.run_map, Act.run_map, hcall']

/-- **More room for nested lines makes no difference**: what is done for a line does not depend on how
deep lines may be nested, so long as there is room for all that is to come. -/
theorem submitNested_eq_submit {depth : Nat} {line : Text} {i : Interpreter}
    (h : i.pending ≤ depth) : submitNested depth line i = submit line i := by
  induction depth, h using Nat.le_induction with
  | base => rfl
  | succ depth h ih => rw [submitNested_succ h, ih]

end Interpreter

end VaultConsole
