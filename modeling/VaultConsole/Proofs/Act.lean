import Mathlib.Order.Defs.Unbundled
import VaultConsole.Act

/-!
# Running acts

What each way of making an act does to a state. An act is followed from a state step by step:
what comes before gives a value and a new state, or a failure and a new state.

* `bind_eq_ok_iff`: one step after another, without a state.
* `Act.run_bind`: one act after another.
* `Act.run_within`, `Act.run_attempt`, `Act.run_rename`: an act inside another.
* `Act.Keeps`: acts whose states are related, before and after; what is made of such acts is one.
* `Act.Sound`: such acts of which the failures are known, too.
* `Act.Yields`: acts of which the values are known.
-/

namespace VaultConsole

/-- What is done in two steps succeeds if both do. -/
theorem bind_eq_ok_iff {ε α β : Type} {first : Except ε α} {next : α → Except ε β} {b : β} :
    (first >>= next) = .ok b ↔ ∃ a, first = .ok a ∧ next a = .ok b := by
  cases first with
  | error e =>
    constructor
    · intro h
      cases h
    · rintro ⟨a, h, -⟩
      cases h
  | ok a =>
    constructor
    · intro h
      exact ⟨a, rfl, h⟩
    · rintro ⟨a', h, hnext⟩
      cases h
      exact hnext

namespace Act

variable {ε ε' σ τ α β : Type}

@[simp] theorem run_pure (a : α) (s : σ) : (pure a : Act ε σ α) s = (.ok a, s) := rfl

/-- What comes after an act: the next one, from where the act succeeded. -/
def after (next : α → Act ε σ β) : Except ε α × σ → Except ε β × σ
  | (.ok a, s) => next a s
  | (.error e, s) => (.error e, s)

@[simp] theorem after_ok (next : α → Act ε σ β) (a : α) (s : σ) :
    after next (.ok a, s) = next a s := rfl

@[simp] theorem after_error (next : α → Act ε σ β) (e : ε) (s : σ) :
    after next (.error e, s) = (.error e, s) := rfl

theorem run_bind (act : Act ε σ α) (next : α → Act ε σ β) (s : σ) :
    (act >>= next) s = after next (act s) := by
  rcases hact : act s with ⟨_ | _, s'⟩ <;>
  · simp only [bind, ExceptT.bind, ExceptT.mk, StateT.bind, hact]
    rfl

/-- An act that succeeds has succeeded in each of its steps. -/
theorem exists_of_run_bind {act : Act ε σ α} {next : α → Act ε σ β} {s s' : σ} {b : β}
    (h : (act >>= next) s = (.ok b, s')) :
    ∃ a t, act s = (.ok a, t) ∧ next a t = (.ok b, s') := by
  rw [run_bind] at h
  rcases hact : act s with ⟨e | a, t⟩ <;> rw [hact] at h
  · cases h
  · exact ⟨a, t, rfl, h⟩

theorem run_map (f : α → β) (act : Act ε σ α) (s : σ) :
    (f <$> act) s = after (fun a => pure (f a)) (act s) :=
  run_bind act (fun a => pure (f a)) s

/-- An act whose value becomes another one has the same outcome but for that. -/
theorem exists_of_run_map {f : α → β} {act : Act ε σ α} {s s' : σ} {b : β}
    (h : (f <$> act) s = (.ok b, s')) : ∃ a, act s = (.ok a, s') ∧ f a = b := by
  rw [run_map] at h
  rcases hact : act s with ⟨e | a, s''⟩ <;> rw [hact] at h <;> cases h
  exact ⟨a, rfl, rfl⟩

/-- The state after an act whose value is thrown away. -/
theorem snd_discard (act : Act ε σ α) (s : σ) :
    ((discard act : Act ε σ PUnit) s).2 = (act s).2 := by
  show ((_ <$> act : Act ε σ PUnit) s).2 = _
  rw [run_map]
  rcases act s with ⟨_ | _, s'⟩ <;> rfl

/-- Acts that follow each other can be grouped. -/
theorem after_after {γ : Type} (first : α → Act ε σ β) (second : β → Act ε σ γ)
    (r : Except ε α × σ) :
    after second (after first r) = after (fun a => first a >>= second) r := by
  rcases r with ⟨_ | a, s⟩
  · rfl
  · rw [after_ok, after_ok, run_bind]

@[simp] theorem run_look (f : σ → α) (s : σ) : (look f : Act ε σ α) s = (.ok (f s), s) := rfl

@[simp] theorem run_state (s : σ) : (state : Act ε σ σ) s = (.ok s, s) := rfl

@[simp] theorem run_change (f : σ → σ) (s : σ) : (change f : Act ε σ Unit) s = (.ok (), f s) := rfl

@[simp] theorem run_settle (result : Except ε α) (s : σ) :
    (settle result : Act ε σ α) s = (result, s) := rfl

@[simp] theorem run_attempt (act : Act ε σ α) (s : σ) :
    attempt act s = (.ok (act s).1, (act s).2) := rfl

theorem run_within (part : σ → τ) (write : τ → σ → σ) (act : Act ε τ α) (s : σ) :
    within part write act s = ((act (part s)).1, write (act (part s)).2 s) := rfl

theorem run_rename (f : ε → ε') (act : Act ε σ α) (s : σ) :
    rename f act s = ((act s).1.mapError f, (act s).2) := rfl

/-- An act succeeds whatever its failures are called. -/
theorem run_of_run_rename {f : ε → ε'} {act : Act ε σ α} {s s' : σ} {a : α}
    (h : rename f act s = (.ok a, s')) : act s = (.ok a, s') := by
  rw [run_rename] at h
  rcases hact : act s with ⟨e | b, t⟩ <;> rw [hact] at h <;> cases h
  rfl

/-- An act that keeps to a relation between the states before and after it. -/
def Keeps (R : σ → σ → Prop) (act : Act ε σ α) : Prop := ∀ s, R s (act s).2

namespace Keeps

variable {R : σ → σ → Prop}

/-- An act on a part of the state, where a change of the part is related in the whole. -/
theorem within {Q : τ → τ → Prop} {part : σ → τ} {write : τ → σ → σ} {act : Act ε τ α}
    (h : Keeps Q act) (hwrite : ∀ s t, Q (part s) t → R s (write t s)) :
    Keeps R (Act.within part write act) := fun s => hwrite s _ (h (part s))

@[simp] theorem attempt {act : Act ε σ α} (h : Keeps R act) : Keeps R (Act.attempt act) := h

@[simp] theorem attemptUnless {act : Act ε σ α} (h : Keeps R act) (passes : ε → Bool) :
    Keeps R (Act.attemptUnless passes act) := by
  intro s
  have hs := h s
  unfold Act.attemptUnless
  rcases hact : act s with ⟨e | a, s'⟩
  · rw [hact] at hs
    simp only
    split <;> exact hs
  · rw [hact] at hs
    exact hs

@[simp] theorem ite {c : Prop} [Decidable c] {act act' : Act ε σ α} (h : Keeps R act)
    (h' : Keeps R act') : Keeps R (if c then act else act') := by
  split
  · exact h
  · exact h'

/-- An act keeps to what a relation implies that it keeps to. -/
theorem mono {Q : σ → σ → Prop} {act : Act ε σ α} (h : Keeps Q act) (hQ : ∀ s s', Q s s' → R s s') :
    Keeps R act := fun s => hQ s _ (h s)

theorem of_map {f : α → β} {act : Act ε σ α} (h : Keeps R (f <$> act)) : Keeps R act := by
  intro s
  have hs := h s
  rw [run_map] at hs
  rcases hact : act s with ⟨e | a, s'⟩ <;> rw [hact] at hs <;> exact hs

section
variable [Std.Refl R]

@[simp] theorem pure (a : α) : Keeps R (Pure.pure a : Act ε σ α) := fun _ => Std.Refl.refl _

@[simp] theorem look (f : σ → α) : Keeps R (Act.look f : Act ε σ α) := fun _ => Std.Refl.refl _

@[simp] theorem fail (e : ε) : Keeps R (Act.fail e : Act ε σ α) := fun _ => Std.Refl.refl _

@[simp] theorem settle (result : Except ε α) : Keeps R (Act.settle result : Act ε σ α) :=
  fun _ => Std.Refl.refl _

end

@[simp] theorem bind [IsTrans σ R] {act : Act ε σ α} {next : α → Act ε σ β} (h : Keeps R act)
    (hnext : ∀ a, Keeps R (next a)) : Keeps R (act >>= next) := by
  intro s
  have hs := h s
  rw [run_bind]
  rcases hact : act s with ⟨e | a, s'⟩
  · rw [hact] at hs
    exact hs
  · rw [hact] at hs
    exact trans_of R hs (hnext a s')

@[simp] theorem map [Std.Refl R] [IsTrans σ R] (f : α → β) {act : Act ε σ α} (h : Keeps R act) :
    Keeps R (f <$> act) := h.bind fun a => .pure (f a)

/-- A loop over items. -/
theorem forIn [Std.Refl R] [IsTrans σ R] {items : List α} {value : β}
    {body : α → β → Act ε σ (ForInStep β)} (h : ∀ a b, Keeps R (body a b)) :
    Keeps R (ForIn.forIn items value body) := by
  induction items generalizing value with
  | nil =>
    rw [List.forIn_nil]
    exact .pure value
  | cons a rest ih =>
    rw [List.forIn_cons]
    refine (h a value).bind fun step => ?_
    cases step with
    | done value => exact .pure value
    | yield value => exact ih

end Keeps

/-! ## Failures -/

/-- From a state an act keeps to a relation, and how it can fail there is known. -/
structure SoundAt (R : σ → σ → Prop) (E : σ → ε → Prop) (act : Act ε σ α) (s : σ) : Prop where
  keeps : R s (act s).2
  fails : ∀ e, (act s).1 = .error e → E s e

/-- An act that keeps to a relation, and of which the failures are known. -/
def Sound (R : σ → σ → Prop) (E : σ → ε → Prop) (act : Act ε σ α) : Prop :=
  ∀ s, SoundAt R E act s

/-- What is known of failures in a later state, is known of them in an earlier one. -/
class Backward (R : σ → σ → Prop) (E : σ → ε → Prop) : Prop where
  back : ∀ {s s' e}, R s s' → E s' e → E s e

variable {R : σ → σ → Prop} {E : σ → ε → Prop} {act : Act ε σ α}

theorem SoundAt.of_ok {s s' : σ} {a : α} (h : act s = (.ok a, s')) (hs : R s s') :
    SoundAt R E act s := by
  refine ⟨by rw [h]; exact hs, fun e he => ?_⟩
  rw [h] at he
  cases he

theorem SoundAt.of_error {s s' : σ} {e : ε} (h : act s = (.error e, s')) (hs : R s s')
    (he : E s e) : SoundAt R E act s := by
  refine ⟨by rw [h]; exact hs, fun e' he' => ?_⟩
  rw [h] at he'
  cases he'
  exact he

theorem SoundAt.bind [IsTrans σ R] [Backward R E] {next : α → Act ε σ β} {s : σ}
    (h : SoundAt R E act s)
    (hnext : ∀ a s', act s = (.ok a, s') → R s s' → SoundAt R E (next a) s') :
    SoundAt R E (act >>= next) s := by
  rcases hact : act s with ⟨e | a, s'⟩
  · have hrun : (act >>= next) s = (.error e, s') := by rw [run_bind, hact, after_error]
    have hs := h.keeps
    rw [hact] at hs
    exact .of_error hrun hs (h.fails e (by rw [hact]))
  · have hrun : (act >>= next) s = next a s' := by rw [run_bind, hact, after_ok]
    have hs := h.keeps
    rw [hact] at hs
    have hrest := hnext a s' hact hs
    refine ⟨by rw [hrun]; exact trans_of R hs hrest.keeps, fun e he => ?_⟩
    rw [hrun] at he
    exact Backward.back hs (hrest.fails e he)

namespace Sound

theorem keeps (h : Sound R E act) : Keeps R act := fun s => (h s).keeps

theorem bind [IsTrans σ R] [Backward R E] {next : α → Act ε σ β} (h : Sound R E act)
    (hnext : ∀ a, Sound R E (next a)) : Sound R E (act >>= next) :=
  fun s => (h s).bind fun a s' _ _ => hnext a s'

theorem ite {c : Prop} [Decidable c] {act' : Act ε σ α} (h : Sound R E act)
    (h' : Sound R E act') : Sound R E (if c then act else act') := by
  split
  · exact h
  · exact h'

theorem change {f : σ → σ} (h : ∀ s, R s (f s)) : Sound R E (Act.change f) :=
  fun s => .of_ok rfl (h s)

/-- An act on a part of the state, where a change of the part is related in the whole. -/
theorem within {Q : τ → τ → Prop} {F : τ → ε → Prop} {part : σ → τ} {write : τ → σ → σ}
    {act : Act ε τ α} (h : Sound Q F act) (hwrite : ∀ s t, Q (part s) t → R s (write t s))
    (hfails : ∀ s e, F (part s) e → E s e) : Sound R E (Act.within part write act) :=
  fun s => ⟨hwrite s _ (h (part s)).keeps, fun e he => hfails s e ((h (part s)).fails e he)⟩

section
variable [Std.Refl R]

theorem pure (a : α) : Sound R E (Pure.pure a : Act ε σ α) := fun s => .of_ok rfl (Std.Refl.refl s)

theorem look (f : σ → α) : Sound R E (Act.look f : Act ε σ α) :=
  fun s => .of_ok rfl (Std.Refl.refl s)

theorem fail {e : ε} (h : ∀ s, E s e) : Sound R E (Act.fail e : Act ε σ α) :=
  fun s => .of_error rfl (Std.Refl.refl s) (h s)

theorem settle {result : Except ε α} (h : ∀ s e, result = .error e → E s e) :
    Sound R E (Act.settle result) := fun s => ⟨Std.Refl.refl s, h s⟩

theorem map [IsTrans σ R] [Backward R E] (f : α → β) (h : Sound R E act) : Sound R E (f <$> act) :=
  h.bind fun a => .pure (f a)

end

end Sound

/-! ## Values -/

/-- An act that yields nothing but values of a kind. -/
def Yields (P : α → Prop) (act : Act ε σ α) : Prop := ∀ s a, (act s).1 = .ok a → P a

namespace Yields

variable {P : α → Prop}

theorem pure {a : α} (h : P a) : Yields P (Pure.pure a : Act ε σ α) := by
  rintro s _ ⟨⟩
  exact h

theorem fail (e : ε) : Yields P (Act.fail e : Act ε σ α) := by
  rintro s a ⟨⟩

theorem bind_of {Q : β → Prop} {act : Act ε σ β} {next : β → Act ε σ α} (h : Yields Q act)
    (hnext : ∀ b, Q b → Yields P (next b)) : Yields P (act >>= next) := by
  intro s a ha
  rw [run_bind] at ha
  rcases hact : act s with ⟨e | b, s'⟩ <;> rw [hact] at ha
  · cases ha
  · exact hnext b (h s b (by rw [hact])) s' a ha

theorem bind {act : Act ε σ β} {next : β → Act ε σ α} (h : ∀ b, Yields P (next b)) :
    Yields P (act >>= next) :=
  bind_of (Q := fun _ => True) (fun _ _ _ => trivial) fun b _ => h b

theorem ite {c : Prop} [Decidable c] {act act' : Act ε σ α} (h : Yields P act) (h' : Yields P act') :
    Yields P (if c then act else act') := by
  split
  · exact h
  · exact h'

/-- The outcome of an act as a value: if that is a success, it is of the kind. -/
theorem attemptUnless {act : Act ε σ α} (h : Yields P act) (passes : ε → Bool) :
    Yields (fun result : Except ε α => ∀ a, result = .ok a → P a) (Act.attemptUnless passes act) := by
  intro s result hresult a ha
  unfold Act.attemptUnless at hresult
  rcases hact : act s with ⟨e | a', s'⟩ <;> rw [hact] at hresult
  · simp only at hresult
    split at hresult <;> cases hresult
    cases ha
  · cases hresult
    exact h s a (by rw [hact, ha])

end Yields

/-- An act that yields values of a kind keeps to a relation if what follows such values does. -/
theorem Keeps.bind_of [IsTrans σ R] {P : α → Prop} {next : α → Act ε σ β} (h : Keeps R act)
    (hyields : Yields P act) (hnext : ∀ a, P a → Keeps R (next a)) : Keeps R (act >>= next) := by
  intro s
  have hs := h s
  rw [run_bind]
  rcases hact : act s with ⟨e | a, s'⟩ <;> rw [hact] at hs
  · exact hs
  · exact trans_of R hs (hnext a (hyields s a (by rw [hact])) s')

end Act

end VaultConsole
