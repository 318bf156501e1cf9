import VaultConsole.Proofs.Interpreter.Narration
import VaultConsole.Proofs.Interpreter.Wide

/-!
# How the result log grows

All that is done for a line adds to the result log or leaves it, with one exception: the command that
empties it.

* `Course.KeepsAt`: from a state the own acts of a course keep to a relation.
* `Interpreter.keepsAt_dispatch`, `Interpreter.keepsAt_course`: where those of a command and of a line do.
* `Interpreter.Grows`: the log was added to, or left.
* `Interpreter.keepsAt_grows_iff`: **the own acts of a line add to the log just if the line does not
  empty it.**
-/

namespace VaultConsole

namespace Course

variable {σ α β : Type} {R : σ → σ → Prop} {answer : Text → Act Failure σ Unit}

/-- From a state on, the own acts of a course keep to a relation, where `answer` is what is done with
further lines. -/
def KeepsAt (R : σ → σ → Prop) (answer : Text → Act Failure σ Unit) : Course σ α → σ → Prop
  | done _, _ => True
  | own act next, s => R s (act s).2 ∧ KeepsAt R answer (next (act s).1) (act s).2
  | submit line next, s => KeepsAt R answer (next (answer line s).1) (answer line s).2

theorem Keeps.keepsAt {c : Course σ α} (h : c.Keeps R) (s : σ) : c.KeepsAt R answer s := by
  induction c generalizing s with
  | done result => trivial
  | own act next ih => exact ⟨h.1 s, ih _ (h.2 _) _⟩
  | submit line next ih => exact ih _ (h _) _

theorem keepsAt_proceed {c : Course σ α} {next : Except Failure α → Course σ β} {s : σ} :
    (c.proceed next).KeepsAt R answer s ↔
      c.KeepsAt R answer s ∧
        (next (c.run answer s).1).KeepsAt R answer (c.run answer s).2 := by
  induction c generalizing s with
  | done result => exact (true_and _).to_iff.symm
  | own act rest ih => exact (and_congr_right fun _ => ih _).trans and_assoc.symm
  | submit line rest ih => exact ih _

/-- A course and what comes after it, from where it succeeds. -/
theorem keepsAt_bind {c : Course σ α} {next : α → Course σ β} {s : σ} :
    (c >>= next).KeepsAt R answer s ↔
      c.KeepsAt R answer s ∧
        ∀ a s', c.run answer s = (.ok a, s') → (next a).KeepsAt R answer s' := by
  refine keepsAt_proceed.trans (and_congr_right fun _ => ?_)
  rcases c.run answer s with ⟨failure | a, s'⟩
  · refine ⟨fun _ a s' h => ?_, fun _ => trivial⟩
    cases h
  · refine ⟨fun h a s' hrun => ?_, fun h => h a s' rfl⟩
    cases hrun
    exact h

theorem Leads.keepsAt {c c' : Course σ α} {s s' : σ} (h : Leads c s c' s')
    (hc : c.KeepsAt R answer s) : c'.KeepsAt R answer s' := by
  induction h with
  | refl => exact hc
  | own _ ih => exact ih hc.2

end Course

namespace Interpreter

/-! ## Wide relations -/

section
variable {S : Session → Session → Prop} {R : Interpreter → Interpreter → Prop} [wide : Wide S R]
  [loose : Session.Loose S] {i : Interpreter} {line : Text}
  {answer : Text → Act Failure Interpreter Unit}
include wide loose

/-- The own acts of a command keep to a wide relation if its answer does. -/
theorem keepsAt_dispatch {l : Line}
    (hconclude : ∀ entry i', (execute l).run answer i = (.ok entry, i') → (conclude entry).Keeps R) :
    (dispatch l).KeepsAt R answer i := by
  refine Course.keepsAt_bind.2 ⟨⟨allows_inSession (.look _) _, trivial⟩, fun started i' hstarted => ?_⟩
  have hsame : i = i' := congrArg Prod.snd hstarted
  rw [← hsame]
  refine Course.keepsAt_bind.2 ⟨(allows_execute l).attemptUnlessInterrupted.keepsAt _, ?_⟩
  rw [Course.run_attemptUnlessInterrupted, Failure.attempt, Act.attemptUnless]
  intro result j hrun
  rcases hexecute : (execute l).run answer i with ⟨failure | entry, k⟩ <;>
    rw [hexecute] at hrun <;> simp only at hrun
  · split at hrun <;> cases hrun
    exact (Course.Keeps.ofAct (allows_giveUp l failure)).keepsAt _
  · cases hrun
    exact (allows_wrapUp (fun _ _ h => h) (hconclude entry _ hexecute) l started).keepsAt _

/-- The own acts of a line keep to a wide relation if its announcement and its command do. -/
theorem keepsAt_course (hannounce : R i (announce line.strip i).2)
    (hdispatch : i.session.isAwaiting = false → ∀ l, Line.parse line = some l →
      (dispatch l).KeepsAt R answer (i.noted line)) : (course line).KeepsAt R answer i := by
  unfold course
  simp only
  split
  · trivial
  · refine Course.keepsAt_bind.2 ⟨⟨hannounce, trivial⟩, fun start i' hannounced => ?_⟩
    cases hannounced
    refine Course.keepsAt_bind.2 ⟨?_, fun _ i' _ => ⟨Std.Refl.refl (r := R) i', trivial⟩⟩
    refine Course.keepsAt_bind.2 ⟨⟨allows_inSession (.look _) _, trivial⟩, fun awaits i' hawaits => ?_⟩
    cases hawaits
    show Course.KeepsAt _ _ (if i.session.isAwaiting = true then _ else _) _
    split
    · exact (Course.Keeps.ofAct (allows_answerGate line.strip)).keepsAt _
    · next hidle =>
      rw [Line.parse_strip]
      split
      · next l hl =>
        refine Course.keepsAt_bind.2 ⟨⟨allows_remember _ _, trivial⟩, fun _ i' hremembered => ?_⟩
        cases hremembered
        exact hdispatch (by simpa using hidle) l hl
      · trivial

end

/-! ## The log -/

/-- The log was added to, or left as it was. -/
def Grows (i i' : Interpreter) : Prop := i.log.entries <+: i'.log.entries

instance : Wide Session.Anyhow Grows where
  refl i := List.prefix_refl i.log.entries
  trans _ _ _ h h' := h.trans h'
  session i _ _ := List.prefix_refl i.log.entries
  answer i entry _ := List.prefix_append i.log.entries [entry]
  remember i _ := List.prefix_refl i.log.entries

theorem grows_conclude_some (entry : Entry) : (conclude (some entry)).Keeps Grows :=
  fun i => List.prefix_append i.log.entries [entry]

theorem grows_announce (line : Text) : (announce line).Keeps Grows :=
  fun i => List.prefix_append i.log.entries [_]

/-- The log was added to or left as it was, or it was emptied. -/
def Moves (i i' : Interpreter) : Prop := Grows i i' ∨ i'.log = .empty

theorem moves_course (line : Text) : (course line).Keeps Moves := by
  have hgrows : ∀ i i', Grows i i' → Moves i i' := fun _ _ h => .inl h
  have hconclude : ∀ entry, (conclude entry).Keeps Moves := by
    intro entry
    cases entry with
    | some entry => exact (grows_conclude_some entry).mono hgrows
    | none => exact fun i => .inr rfl
  unfold course
  simp only
  split
  · exact .pure _
  · refine (Course.Keeps.ofAct ((grows_announce _).mono hgrows)).bind fun start => ?_
    refine (allows_process hgrows hconclude _).bind fun _ => ?_
    exact .ofAct fun i => hgrows i i (Std.Refl.refl i)

section
variable {i : Interpreter} {line : Text} {answer : Text → Act Failure Interpreter Unit}

/-- What a command yields: nothing if the log is to be emptied, else its entry, or one about a secret. -/
theorem cases_of_execute {l : Line} {entry : Option Entry} {i' : Interpreter}
    (h : (execute l).run answer i = (.ok entry, i')) :
    (entry = none ∧ (Session.execute l i.session).1 = .ok .cleared) ∨
      (∃ e, entry = some e ∧ Session.execute l i.session = (.ok (.entry e), i'.session)) ∨
      ∃ account echo, entry = some (Session.secretEntry echo account) := by
  have hrun : (execute l).run answer i =
      Act.after (fun reply => (entryOf reply).run answer) (inSession (Session.execute l) i) :=
    Course.run_bind answer i _ entryOf
  rw [hrun, inSession, Act.run_within] at h
  rcases hreply : Session.execute l i.session with ⟨failure | reply, s⟩ <;> rw [hreply] at h
  · cases h
  · cases reply with
    | cleared =>
      cases h
      exact .inl ⟨rfl, rfl⟩
    | entry e =>
      cases h
      exact .inr (.inl ⟨e, rfl, rfl⟩)
    | secret account echo =>
      have hsecret := Course.run_bind answer { i with session := s } (copySecret account) fun account =>
        (pure (some (Session.secretEntry echo account)) : Course Interpreter (Option Entry))
      rw [Act.after_ok] at h
      rcases hcopied : (copySecret account).run answer { i with session := s } with
        ⟨failure | account', j⟩ <;> rw [hcopied] at hsecret
      · cases hsecret.symm.trans h
      · cases hsecret.symm.trans h
        exact .inr (.inr ⟨account', echo, rfl⟩)

/-- A command yields no entry only where it is the one that empties the log. -/
theorem clear_of_execute {l : Line} {i' : Interpreter}
    (h : (execute l).run answer i = (.ok none, i')) : Verb.ofToken? l.verb = some .clear := by
  rcases cases_of_execute h with ⟨-, hcleared⟩ | ⟨e, hsome, -⟩ | ⟨account, echo, hsome⟩
  · exact (Session.reply_execute l i.session hcleared).1 rfl
  · cases hsome
  · cases hsome

/-- The command that empties the log comes to its answer at once. -/
theorem leads_dispatch_clear {l : Line} (h : Verb.ofToken? l.verb = some .clear) :
    Course.Leads (dispatch l) i (wrapUp l none i.session.elapsed) i := by
  have hstarted : (inSession (Act.look Session.elapsed) : Act Failure Interpreter Binary64) i =
      (.ok i.session.elapsed, i) := rfl
  have hexecute : inSession (Session.execute l) i = (.ok .cleared, i) := by
    rw [inSession, Act.run_within, Session.execute_of_verb h]
    rfl
  have hentry : Course.Leads (execute l) i (.done (.ok none)) i :=
    Course.Leads.bind_ofAct hexecute entryOf
  exact (Course.Leads.bind_ofAct hstarted _).trans (hentry.attempt_ok.bind _)

/-- A line whose command empties the log does so: something stands in the log, since the line was
announced. -/
theorem not_keepsAt_of_clears (h : i.Clears line) : ¬ (course line).KeepsAt Grows answer i := by
  obtain ⟨hidle, l, hl, hclear⟩ := h
  intro hkeeps
  have hlead := (leads_idle hidle (Line.strip_ne_nil_of_parse hl) hl).trans
    ((leads_dispatch_clear hclear).bind _)
  have hconclude : (i.noted line).log.entries <+: [] := (hlead.keepsAt hkeeps).1
  have hnil : i.log.entries ++ [.info ("> " ++ line.strip)] = [] := List.prefix_nil.1 hconclude
  exact absurd hnil (by simp)

/-- A line with another command, or with none, does not empty the log. -/
theorem keepsAt_of_not_clears (h : ¬ i.Clears line) : (course line).KeepsAt Grows answer i := by
  refine keepsAt_course (grows_announce _ i) fun hidle l hl => ?_
  refine keepsAt_dispatch fun entry i' hexecute => ?_
  cases entry with
  | none => exact absurd ⟨hidle, l, hl, clear_of_execute hexecute⟩ h
  | some entry => exact grows_conclude_some entry

/-- **The own acts of a line add to the log, or leave it, just if the line does not empty it.** -/
theorem keepsAt_grows_iff : (course line).KeepsAt Grows answer i ↔ ¬ i.Clears line :=
  ⟨fun hkeeps hclears => not_keepsAt_of_clears hclears hkeeps, keepsAt_of_not_clears⟩

end

end Interpreter

end VaultConsole
