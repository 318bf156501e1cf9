import VaultConsole.Course
import VaultConsole.Proofs.Act

/-!
# Following courses

A course is followed from a state: the lines that parts outside submit on the way, and the states
from which they do. `answer` is what is done with such a line.

* `Course.calls`: the lines that are submitted.
* `Course.run_proceed`: one course after another.
* `Course.Keeps`: courses whose own acts keep to a relation.
* `Course.Leads`: from a state a course comes to another course by its own acts alone.
* `Course.Opens`: from a state a course comes to a state from which on it keeps to a relation.
* `Course.Meets`: what a course comes to from a state, where the lines on the way keep to an invariant.
-/

namespace VaultConsole.Course

variable {σ α β γ : Type}

/-- The lines that are submitted along a course, and the states from which they are. -/
def calls (answer : Text → Act Failure σ Unit) : Course σ α → σ → List (Text × σ)
  | done _, _ => []
  | own act next, s => calls answer (next (act s).1) (act s).2
  | submit line next, s => (line, s) :: calls answer (next (answer line s).1) (answer line s).2

/-- Courses one after another, in whatever way they are put together. -/
theorem proceed_assoc (c : Course σ α) (next : Except Failure α → Course σ β)
    (last : Except Failure β → Course σ γ) :
    (c.proceed next).proceed last = c.proceed fun result => (next result).proceed last := by
  induction c with
  | done result => rfl
  | own act rest ih => exact congrArg (own act) (funext fun result => ih result)
  | submit line rest ih => exact congrArg (submit line) (funext fun result => ih result)

section
variable (answer : Text → Act Failure σ Unit) (s : σ)

@[simp] theorem run_done (result : Except Failure α) : run answer (done result) s = (result, s) :=
  rfl

@[simp] theorem run_submit (line : Text) (next : Except Failure Unit → Course σ α) :
    run answer (submit line next) s = run answer (next (answer line s).1) (answer line s).2 := rfl

theorem run_proceed (c : Course σ α) (next : Except Failure α → Course σ β) :
    run answer (c.proceed next) s =
      run answer (next (run answer c s).1) (run answer c s).2 := by
  induction c generalizing s with
  | done result => rfl
  | own act rest ih => exact ih (act s).1 (act s).2
  | submit line rest ih => exact ih (answer line s).1 (answer line s).2

theorem run_bind (c : Course σ α) (next : α → Course σ β) :
    run answer (c >>= next) s = Act.after (fun a => run answer (next a)) (run answer c s) := by
  show run answer (c.proceed (onward next)) s = _
  rw [run_proceed]
  rcases run answer c s with ⟨failure | a, s'⟩ <;> rfl

@[simp] theorem run_ofAct (act : Act Failure σ α) : run answer (ofAct act) s = act s := rfl

theorem run_attemptUnlessInterrupted (c : Course σ α) :
    run answer c.attemptUnlessInterrupted s = Failure.attempt (run answer c) s := by
  unfold attemptUnlessInterrupted Failure.attempt Act.attemptUnless
  rw [run_proceed]
  rcases run answer c s with ⟨failure | a, s'⟩
  · simp only
    split <;> rfl
  · rfl

end

/-! ## Own acts -/

/-- The own acts of a course keep to a relation. -/
def Keeps (R : σ → σ → Prop) : Course σ α → Prop
  | done _ => True
  | own act next => act.Keeps R ∧ ∀ result, Keeps R (next result)
  | submit _ next => ∀ result, Keeps R (next result)

namespace Keeps

variable {R : σ → σ → Prop}

theorem pure (a : α) : Keeps R (Pure.pure a : Course σ α) := trivial

theorem ofAct {act : Act Failure σ α} (h : act.Keeps R) : Keeps R (Course.ofAct act) :=
  ⟨h, fun _ => trivial⟩

theorem call (line : Text) : Keeps R (Course.call line : Course σ Unit) := fun _ => trivial

theorem ending (failure : Option Failure) : Keeps R (Course.ending failure : Course σ Unit) := by
  cases failure <;> trivial

theorem proceed {c : Course σ α} {next : Except Failure α → Course σ β} (h : Keeps R c)
    (hnext : ∀ result, Keeps R (next result)) : Keeps R (c.proceed next) := by
  induction c with
  | done result => exact hnext result
  | own act rest ih => exact ⟨h.1, fun result => ih result (h.2 result)⟩
  | submit line rest ih => exact fun result => ih result (h result)

theorem bind {c : Course σ α} {next : α → Course σ β} (h : Keeps R c)
    (hnext : ∀ a, Keeps R (next a)) : Keeps R (c >>= next) := by
  refine h.proceed fun result => ?_
  cases result with
  | ok a => exact hnext a
  | error failure => trivial

theorem attempt {c : Course σ α} (h : Keeps R c) : Keeps R c.attempt :=
  h.proceed fun _ => trivial

theorem attemptUnlessInterrupted {c : Course σ α} (h : Keeps R c) :
    Keeps R c.attemptUnlessInterrupted := by
  refine h.proceed fun result => ?_
  cases result with
  | ok a => trivial
  | error failure =>
    simp only
    split <;> trivial

theorem forM {items : List α} {f : α → Course σ PUnit} (h : ∀ a ∈ items, Keeps R (f a)) :
    Keeps R (items.forM f) := by
  induction items with
  | nil => trivial
  | cons a rest ih =>
    exact (h a List.mem_cons_self).bind fun _ => ih fun b hb => h b (List.mem_cons_of_mem a hb)

/-- A course keeps to what a relation implies that it keeps to. -/
theorem mono {Q : σ → σ → Prop} {c : Course σ α} (h : Keeps Q c) (hQ : ∀ s s', Q s s' → R s s') :
    Keeps R c := by
  induction c with
  | done result => trivial
  | own act next ih => exact ⟨h.1.mono hQ, fun result => ih result (h.2 result)⟩
  | submit line next ih => exact fun result => ih result (h result)

theorem undergo (reaction : Reaction) : Keeps R (Course.undergo reaction : Course σ Unit) :=
  (forM fun line _ => .call line).bind fun _ => .ending reaction.failure

theorem copySecret {inSession : {β : Type} → Act Failure Session β → Act Failure σ β}
    (hhold : ∀ account, (inSession (Session.hold account)).Keeps R)
    (hcopy : ∀ text, (inSession (Session.copy text)).Keeps R)
    (hrelease : ∀ account, (inSession (Session.release account)).Keeps R) (account : Account) :
    Keeps R (Course.copySecret inSession account) := by
  refine (ofAct (hhold account)).bind fun _ => ?_
  have hundergo : Keeps R (Course.ofAct (inSession (Session.copy account.password)) >>=
      Course.undergo) := (ofAct (hcopy _)).bind fun reaction => .undergo reaction
  refine hundergo.attempt.bind fun copied => ?_
  refine (ofAct (hrelease account)).bind fun released => ?_
  exact bind (c := Course.done copied) trivial fun _ => trivial

/-- A course keeps to a relation if the lines on its way do as well. -/
theorem run [Std.Refl R] [IsTrans σ R] {c : Course σ α} {answer : Text → Act Failure σ Unit}
    (h : c.Keeps R) (hanswer : ∀ line, (answer line).Keeps R) : (Course.run answer c).Keeps R := by
  intro s
  induction c generalizing s with
  | done result => exact Std.Refl.refl s
  | own act next ih => exact trans_of R (h.1 s) (ih _ (h.2 _) _)
  | submit line next ih => exact trans_of R (hanswer line s) (ih _ (h _) _)

end Keeps

/-! ## The way to a later course -/

/-- From a state a course comes to another course and state by its own acts alone. -/
inductive Leads : Course σ α → σ → Course σ α → σ → Prop
  | refl (c : Course σ α) (s : σ) : Leads c s c s
  | own {β : Type} {act : Act Failure σ β} {next : Except Failure β → Course σ α} {s s' : σ}
      {c : Course σ α} (h : Leads (next (act s).1) (act s).2 c s') : Leads (own act next) s c s'

namespace Leads

variable {c c' c'' : Course σ α} {s s' s'' : σ}

theorem trans (h : Leads c s c' s') (h' : Leads c' s' c'' s'') : Leads c s c'' s'' := by
  induction h with
  | refl => exact h'
  | own _ ih => exact .own (ih h')

theorem run_eq (h : Leads c s c' s') (answer : Text → Act Failure σ Unit) :
    run answer c s = run answer c' s' := by
  induction h with
  | refl => rfl
  | own _ ih => exact ih

theorem calls_eq (h : Leads c s c' s') (answer : Text → Act Failure σ Unit) :
    calls answer c s = calls answer c' s' := by
  induction h with
  | refl => rfl
  | own _ ih => exact ih

theorem ofAct (act : Act Failure σ α) (s : σ) :
    Leads (Course.ofAct act) s (done (act s).1) (act s).2 := .own (.refl _ _)

theorem proceed (h : Leads c s c' s') (next : Except Failure α → Course σ β) :
    Leads (c.proceed next) s (c'.proceed next) s' := by
  induction h with
  | refl => exact .refl _ _
  | own _ ih => exact .own ih

theorem bind (h : Leads c s c' s') (next : α → Course σ β) :
    Leads (c >>= next) s (c' >>= next) s' := h.proceed (onward next)

/-- A course that comes to a success, as a value. -/
theorem attempt_ok {a : α} (h : Leads c s (done (.ok a)) s') :
    Leads c.attemptUnlessInterrupted s (done (.ok (.ok a))) s' := h.proceed _

/-- A course that comes to a failure, as a value. -/
theorem attempt_error {failure : Failure} (h : Leads c s (done (.error failure)) s')
    (hgoes : failure.isInterruption = false) :
    Leads c.attemptUnlessInterrupted s (done (.ok (.error failure))) s' := by
  refine (h.proceed _).trans ?_
  show Leads (if failure.isInterruption = true then _ else _) s' _ s'
  rw [if_neg (by simp [hgoes])]
  exact .refl _ _

/-- A course that begins with an act which succeeds comes to what follows. -/
theorem bind_ofAct {act : Act Failure σ β} {value : β} (h : act s = (.ok value, s'))
    (next : β → Course σ α) : Leads (Course.ofAct act >>= next) s (next value) s' := by
  refine .own ?_
  rw [h]
  exact .refl _ _

end Leads

/-- From a state a course comes by its own acts to another state, and its own acts after that keep to
a relation. -/
def Opens (R : σ → σ → Prop) (c : Course σ α) (s s' : σ) : Prop :=
  ∃ rest, Leads c s rest s' ∧ rest.Keeps R

namespace Opens

variable {R : σ → σ → Prop} {s s' s'' : σ}

theorem ofAct (act : Act Failure σ α) (s : σ) : Opens R (Course.ofAct act) s (act s).2 :=
  ⟨_, .ofAct act s, trivial⟩

theorem bind {c : Course σ α} {next : α → Course σ β} (h : Opens R c s s')
    (hnext : ∀ a, Keeps R (next a)) : Opens R (c >>= next) s s' := by
  obtain ⟨rest, hlead, hkeeps⟩ := h
  exact ⟨_, hlead.bind next, hkeeps.bind hnext⟩

theorem attemptUnlessInterrupted {c : Course σ α} (h : Opens R c s s') :
    Opens R c.attemptUnlessInterrupted s s' := by
  obtain ⟨rest, hlead, hkeeps⟩ := h
  exact ⟨_, hlead.proceed _, hkeeps.attemptUnlessInterrupted⟩

/-- An act that succeeds comes before. -/
theorem after {act : Act Failure σ β} {value : β} (hact : act s = (.ok value, s'))
    {next : β → Course σ α} (h : Opens R (next value) s' s'') :
    Opens R (Course.ofAct act >>= next) s s'' := by
  obtain ⟨rest, hlead, hkeeps⟩ := h
  exact ⟨rest, (Leads.bind_ofAct hact next).trans hlead, hkeeps⟩

end Opens

/-! ## What a course comes to -/

/-- From a state a course submits lines only where an invariant holds, and where they come to what is
expected of them, the course ends as it should. -/
def Meets (I : σ → Prop) (J : Except Failure Unit → σ → Prop) (Q : Except Failure α → σ → Prop) :
    Course σ α → σ → Prop
  | done result, s => Q result s
  | own act next, s => Meets I J Q (next (act s).1) (act s).2
  | submit _ next, s => I s ∧ ∀ result s', J result s' → Meets I J Q (next result) s'

namespace Meets

variable {I : σ → Prop} {J : Except Failure Unit → σ → Prop} {Q : Except Failure α → σ → Prop}
  {c : Course σ α} {s : σ}

theorem run {answer : Text → Act Failure σ Unit} (h : c.Meets I J Q s)
    (hanswer : ∀ line s, I s → J (answer line s).1 (answer line s).2) : Q (run answer c s).1 (run answer c s).2 := by
  induction c generalizing s with
  | done result => exact h
  | own act next ih => exact ih _ h
  | submit line next ih => exact ih _ (h.2 _ _ (hanswer line s h.1))

theorem of_mem_calls {answer : Text → Act Failure σ Unit} (h : c.Meets I J Q s)
    (hanswer : ∀ line s, I s → J (answer line s).1 (answer line s).2) {call : Text × σ}
    (hcall : call ∈ calls answer c s) : I call.2 := by
  induction c generalizing s with
  | done result => cases hcall
  | own act next ih => exact ih _ h hcall
  | submit line next ih =>
    rcases List.mem_cons.1 hcall with rfl | hcall
    · exact h.1
    · exact ih _ (h.2 _ _ (hanswer line s h.1)) hcall

/-- A course that submits no lines does not depend on what is done with them. -/
theorem run_eq (h : c.Meets I J Q s) (hnever : ∀ s, ¬ I s)
    (answer answer' : Text → Act Failure σ Unit) :
    Course.run answer c s = Course.run answer' c s := by
  induction c generalizing s with
  | done result => rfl
  | own act next ih => exact ih _ h
  | submit line next ih => exact absurd h.1 (hnever s)

theorem imp {Q' : Except Failure α → σ → Prop} (h : c.Meets I J Q s)
    (himp : ∀ result s', Q result s' → Q' result s') : c.Meets I J Q' s := by
  induction c generalizing s with
  | done result => exact himp result s h
  | own act next ih => exact ih _ h
  | submit line next ih => exact ⟨h.1, fun result s' hs => ih _ (h.2 result s' hs)⟩

theorem proceed {next : Except Failure α → Course σ β} {Q : Except Failure β → σ → Prop}
    (h : c.Meets I J (fun result s' => (next result).Meets I J Q s') s) :
    (c.proceed next).Meets I J Q s := by
  induction c generalizing s with
  | done result => exact h
  | own act rest ih => exact ih _ h
  | submit line rest ih => exact ⟨h.1, fun result s' hs => ih _ (h.2 result s' hs)⟩

theorem bind {next : α → Course σ β} {Q : Except Failure β → σ → Prop}
    (h : c.Meets I J (fun result s' => (onward next result).Meets I J Q s') s) :
    (c >>= next).Meets I J Q s := h.proceed

theorem bind_ofAct (act : Act Failure σ β) {next : β → Course σ α}
    (h : (onward next (act s).1).Meets I J Q (act s).2) : (Course.ofAct act >>= next).Meets I J Q s := h

theorem attemptUnlessInterrupted {Q : Except Failure (Except Failure α) → σ → Prop}
    (h : c.Meets I J (fun result s' =>
      match result with
      | .ok a => Q (.ok (.ok a)) s'
      | .error failure =>
        if failure.isInterruption then Q (.error failure) s' else Q (.ok (.error failure)) s') s) :
    c.attemptUnlessInterrupted.Meets I J Q s := by
  refine proceed (h.imp fun result s' hs => ?_)
  cases result with
  | ok a => exact hs
  | error failure =>
    simp only at hs ⊢
    split at hs
    · next hinterrupted =>
      rw [if_pos hinterrupted]
      exact hs
    · next hgoes =>
      rw [if_neg hgoes]
      exact hs

/-- A course whose own acts keep to a relation that leaves the invariant as it is. -/
theorem of_keeps {R : σ → σ → Prop} (hc : c.Keeps R) (hR : ∀ s s', R s s' → I s → I s') (hs : I s) :
    c.Meets I (fun _ => I) (fun _ => I) s := by
  induction c generalizing s with
  | done result => exact hs
  | own act next ih => exact ih _ (hc.2 _) (hR _ _ (hc.1 s) hs)
  | submit line next ih => exact ⟨hs, fun result s' hs' => ih _ (hc result) hs'⟩

end Meets

theorem Leads.meets {I : σ → Prop} {J : Except Failure Unit → σ → Prop}
    {Q : Except Failure α → σ → Prop} {c c' : Course σ α} {s s' : σ} (h : Leads c s c' s')
    (h' : c'.Meets I J Q s') : c.Meets I J Q s := by
  induction h with
  | refl => exact h'
  | own _ ih => exact ih h'

end VaultConsole.Course
