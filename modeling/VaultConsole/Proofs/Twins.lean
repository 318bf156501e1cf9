import VaultConsole.Proofs.Course

/-!
# Two runs side by side

Two acts are twins if from related states they end in related states, with related values or with the
same failure. What is made of twins in one way is made of twins again, so two runs of a program can be
compared step by step. Courses are twins if, besides, they submit the same lines from related states.

* `Act.Outcomes`: related values, or the same failure.
* `Act.Twins`, `Course.Twins`: acts and courses side by side.
* `Course.TwinsAt.run`: what twins come to, where lines on the way are answered by twins.
* `Course.Silent`: courses side by side that do not depend on what is done with lines.
-/

namespace VaultConsole

namespace Act

variable {ε σ σ' τ τ' α α' β β' : Type}

/-- Two values that are related, or one failure. -/
inductive Outcomes (V : α → α' → Prop) : Except ε α → Except ε α' → Prop
  | ok {a : α} {a' : α'} (h : V a a') : Outcomes V (.ok a) (.ok a')
  | error (e : ε) : Outcomes V (.error e) (.error e)

theorem Outcomes.refl {V : α → α → Prop} [Std.Refl V] (result : Except ε α) :
    Outcomes V result result := by
  cases result with
  | ok a => exact .ok (Std.Refl.refl a)
  | error e => exact .error e

theorem Outcomes.imp {V V' : α → α' → Prop} {result : Except ε α} {result' : Except ε α'}
    (h : Outcomes V result result') (hV : ∀ a a', V a a' → V' a a') : Outcomes V' result result' := by
  cases h with
  | ok h => exact .ok (hV _ _ h)
  | error e => exact .error e

theorem Outcomes.eq {result result' : Except ε α} (h : Outcomes Eq result result') :
    result = result' := by
  cases h with
  | ok h => rw [h]
  | error e => rfl

/-- From related states two acts end in related states, with related outcomes. -/
def Twins (R : σ → σ' → Prop) (V : α → α' → Prop) (act : Act ε σ α) (act' : Act ε σ' α') : Prop :=
  ∀ s s', R s s' → Outcomes V (act s).1 (act' s').1 ∧ R (act s).2 (act' s').2

/-- The same for acts whose values are thrown away. -/
theorem outcomes_discard {R : σ → σ' → Prop} {V : α → α' → Prop} {act : Act ε σ α}
    {act' : Act ε σ' α'} {s : σ} {s' : σ'}
    (h : Outcomes V (act s).1 (act' s').1 ∧ R (act s).2 (act' s').2) :
    Outcomes Eq ((discard act : Act ε σ PUnit) s).1 ((discard act' : Act ε σ' PUnit) s').1 ∧
      R ((discard act : Act ε σ PUnit) s).2 ((discard act' : Act ε σ' PUnit) s').2 := by
  rw [snd_discard, snd_discard]
  refine ⟨?_, h.2⟩
  show Outcomes Eq ((_ <$> act : Act ε σ PUnit) s).1 ((_ <$> act' : Act ε σ' PUnit) s').1
  rw [run_map, run_map]
  rcases hact : act s with ⟨result, t⟩
  rcases hact' : act' s' with ⟨result', t'⟩
  rw [hact, hact'] at h
  obtain ⟨houtcome, -⟩ := h
  cases houtcome with
  | ok _ => exact .ok rfl
  | error e => exact .error e

namespace Twins

variable {R : σ → σ' → Prop} {V : α → α' → Prop} {W : β → β' → Prop} {act : Act ε σ α}
  {act' : Act ε σ' α'}

theorem pure {a : α} {a' : α'} (h : V a a') :
    Twins R V (Pure.pure a : Act ε σ α) (Pure.pure a') := fun _ _ hs => ⟨.ok h, hs⟩

theorem fail (e : ε) : Twins R V (Act.fail e) (Act.fail e) := fun _ _ hs => ⟨.error e, hs⟩

theorem settle {result : Except ε α} {result' : Except ε α'} (h : Outcomes V result result') :
    Twins R V (Act.settle result) (Act.settle result') := fun _ _ hs => ⟨h, hs⟩

theorem look {f : σ → α} {f' : σ' → α'} (h : ∀ s s', R s s' → V (f s) (f' s')) :
    Twins R V (Act.look f : Act ε σ α) (Act.look f') := fun s s' hs => ⟨.ok (h s s' hs), hs⟩

theorem change {f : σ → σ} {f' : σ' → σ'} (h : ∀ s s', R s s' → R (f s) (f' s')) :
    Twins R Eq (Act.change f : Act ε σ Unit) (Act.change f') := fun s s' hs => ⟨.ok rfl, h s s' hs⟩

/-- Acts on parts of the states, where related parts can be put back. -/
theorem within {Q : τ → τ' → Prop} {part : σ → τ} {part' : σ' → τ'} {write : τ → σ → σ}
    {write' : τ' → σ' → σ'} {act : Act ε τ α} {act' : Act ε τ' α'} (h : Twins Q V act act')
    (hpart : ∀ s s', R s s' → Q (part s) (part' s'))
    (hwrite : ∀ s s' t t', R s s' → Q t t' → R (write t s) (write' t' s')) :
    Twins R V (Act.within part write act) (Act.within part' write' act') := fun s s' hs =>
  have hact := h _ _ (hpart s s' hs)
  ⟨hact.1, hwrite s s' _ _ hs hact.2⟩

theorem bind {next : α → Act ε σ β} {next' : α' → Act ε σ' β'} (h : Twins R V act act')
    (hnext : ∀ a a', V a a' → Twins R W (next a) (next' a')) :
    Twins R W (act >>= next) (act' >>= next') := by
  intro s s' hs
  obtain ⟨houtcome, hstate⟩ := h s s' hs
  rw [run_bind, run_bind]
  rcases hact : act s with ⟨result, t⟩
  rcases hact' : act' s' with ⟨result', t'⟩
  rw [hact, hact'] at houtcome hstate
  cases houtcome with
  | ok hV => exact hnext _ _ hV t t' hstate
  | error e => exact ⟨.error e, hstate⟩

/-- Where both acts yield one value, the same follows. -/
theorem bind_eq {act' : Act ε σ' α} {next : α → Act ε σ β} {next' : α → Act ε σ' β'}
    (h : Twins R Eq act act') (hnext : ∀ a, Twins R W (next a) (next' a)) :
    Twins R W (act >>= next) (act' >>= next') :=
  h.bind fun a _ ha => ha ▸ hnext a

theorem ite {c : Prop} [Decidable c] {other : Act ε σ α} {other' : Act ε σ' α'}
    (h : Twins R V act act') (h' : Twins R V other other') :
    Twins R V (if c then act else other) (if c then act' else other') := by
  split
  · exact h
  · exact h'

/-- Where the values of one act are known, so are those of its twin. -/
theorem yielding {P : α → Prop} {act' : Act ε σ' α} (h : Twins R Eq act act') (hP : act.Yields P) :
    Twins R (fun a a' => a = a' ∧ P a) act act' := by
  intro s s' hs
  obtain ⟨houtcome, hstate⟩ := h s s' hs
  have hvalue := hP s
  refine ⟨?_, hstate⟩
  generalize (act s).1 = result at houtcome hvalue ⊢
  generalize (act' s').1 = result' at houtcome ⊢
  cases houtcome with
  | ok ha => exact .ok ⟨ha, hvalue _ rfl⟩
  | error e => exact .error e

theorem attemptUnless (h : Twins R V act act') (passes : ε → Bool) :
    Twins R (Outcomes V) (Act.attemptUnless passes act) (Act.attemptUnless passes act') := by
  intro s s' hs
  obtain ⟨houtcome, hstate⟩ := h s s' hs
  unfold Act.attemptUnless
  rcases hact : act s with ⟨result, t⟩
  rcases hact' : act' s' with ⟨result', t'⟩
  rw [hact, hact'] at houtcome hstate
  cases houtcome with
  | ok hV => exact ⟨.ok (.ok hV), hstate⟩
  | error e =>
    simp only
    split
    · exact ⟨.error e, hstate⟩
    · exact ⟨.ok (.error e), hstate⟩

end Twins

end Act

namespace Course

open Act (Outcomes)

variable {σ σ' α α' β β' : Type}

/-- From two states courses come, by acts of their own and by lines that they submit both, to related
outcomes in related states. A line is submitted from related states, and after it all related states
are reckoned with. -/
inductive TwinsAt (R : σ → σ' → Prop) (V : α → α' → Prop) :
    Course σ α → σ → Course σ' α' → σ' → Prop
  | done {result : Except Failure α} {result' : Except Failure α'} {s : σ} {s' : σ'}
      (outcome : Outcomes V result result') (state : R s s') :
      TwinsAt R V (.done result) s (.done result') s'
  | own {γ γ' : Type} {act : Act Failure σ γ} {act' : Act Failure σ' γ'}
      {next : Except Failure γ → Course σ α} {next' : Except Failure γ' → Course σ' α'} {s : σ}
      {s' : σ'} (rest : TwinsAt R V (next (act s).1) (act s).2 (next' (act' s').1) (act' s').2) :
      TwinsAt R V (.own act next) s (.own act' next') s'
  | submit {line : Text} {next : Except Failure Unit → Course σ α}
      {next' : Except Failure Unit → Course σ' α'} {s : σ} {s' : σ'} (state : R s s')
      (rest : ∀ result t t', R t t' → TwinsAt R V (next result) t (next' result) t') :
      TwinsAt R V (.submit line next) s (.submit line next') s'

/-- Courses that are twins from all related states. -/
def Twins (R : σ → σ' → Prop) (V : α → α' → Prop) (c : Course σ α) (c' : Course σ' α') : Prop :=
  ∀ s s', R s s' → TwinsAt R V c s c' s'

variable {R : σ → σ' → Prop} {V : α → α' → Prop} {W : β → β' → Prop} {c : Course σ α}
  {c' : Course σ' α'}

namespace TwinsAt

variable {s : σ} {s' : σ'}

theorem proceed {next : Except Failure α → Course σ β} {next' : Except Failure α' → Course σ' β'}
    (h : TwinsAt R V c s c' s')
    (hnext : ∀ result result', Outcomes V result result' → Twins R W (next result) (next' result')) :
    TwinsAt R W (c.proceed next) s (c'.proceed next') s' := by
  induction h with
  | done outcome state => exact hnext _ _ outcome _ _ state
  | own _ ih => exact .own ih
  | submit state _ ih => exact .submit state fun result t t' ht => ih result t t' ht

theorem bind {next : α → Course σ β} {next' : α' → Course σ' β'} (h : TwinsAt R V c s c' s')
    (hnext : ∀ a a', V a a' → Twins R W (next a) (next' a')) :
    TwinsAt R W (c >>= next) s (c' >>= next') s' := by
  refine h.proceed fun result result' houtcome => ?_
  cases houtcome with
  | ok hV => exact hnext _ _ hV
  | error failure => exact fun _ _ hs => .done (.error failure) hs

theorem attemptUnlessInterrupted (h : TwinsAt R V c s c' s') :
    TwinsAt R (Outcomes V) c.attemptUnlessInterrupted s c'.attemptUnlessInterrupted s' := by
  refine h.proceed fun result result' houtcome t t' ht => ?_
  cases houtcome with
  | ok hV => exact .done (.ok (.ok hV)) ht
  | error failure =>
    simp only
    split
    · exact .done (.error failure) ht
    · exact .done (.ok (.error failure)) ht

section
variable {γ γ' : Type} {act : Act Failure σ γ} {act' : Act Failure σ' γ'} {t : σ} {t' : σ'}
  {next : γ → Course σ α} {next' : γ' → Course σ' α'}

/-- Acts that succeed come before. -/
theorem bind_ofAct {value : γ} {value' : γ'} (hact : act s = (.ok value, t))
    (hact' : act' s' = (.ok value', t')) (h : TwinsAt R V (next value) t (next' value') t') :
    TwinsAt R V (ofAct act >>= next) s (ofAct act' >>= next') s' := by
  refine .own ?_
  rw [hact, hact']
  exact h

/-- Acts that fail alike are all there is. -/
theorem bind_ofAct_error {failure : Failure} (hact : act s = (.error failure, t))
    (hact' : act' s' = (.error failure, t')) (h : R t t') :
    TwinsAt R V (ofAct act >>= next) s (ofAct act' >>= next') s' := by
  refine .own ?_
  rw [hact, hact']
  exact .done (.error failure) h

end

/-- What twins come to, where the lines on the way are answered by twins. -/
theorem run {answer : Text → Act Failure σ Unit} {answer' : Text → Act Failure σ' Unit}
    (h : TwinsAt R V c s c' s')
    (hanswer : ∀ line t t', (line, t) ∈ c.calls answer s → R t t' →
      Outcomes Eq (answer line t).1 (answer' line t').1 ∧ R (answer line t).2 (answer' line t').2) :
    Outcomes V (c.run answer s).1 (c'.run answer' s').1 ∧
      R (c.run answer s).2 (c'.run answer' s').2 := by
  induction h with
  | done outcome state => exact ⟨outcome, state⟩
  | own _ ih => exact ih hanswer
  | submit state _ ih =>
    obtain ⟨houtcome, hstate⟩ := hanswer _ _ _ List.mem_cons_self state
    rw [run_submit, run_submit, ← houtcome.eq]
    exact ih _ _ _ hstate fun line t t' hcall => hanswer line t t' (List.mem_cons_of_mem _ hcall)

end TwinsAt

namespace Twins

theorem done {result : Except Failure α} {result' : Except Failure α'}
    (h : Outcomes V result result') : Twins R V (.done result) (.done result') :=
  fun _ _ hs => .done h hs

theorem pure {a : α} {a' : α'} (h : V a a') :
    Twins R V (Pure.pure a : Course σ α) (Pure.pure a') := done (.ok h)

theorem ofAct {act : Act Failure σ α} {act' : Act Failure σ' α'} (h : act.Twins R V act') :
    Twins R V (Course.ofAct act) (Course.ofAct act') :=
  fun s s' hs => .own (.done (h s s' hs).1 (h s s' hs).2)

theorem call (line : Text) : Twins R Eq (Course.call line) (Course.call line) :=
  fun _ _ hs => .submit hs fun result _ _ ht => .done (.refl result) ht

theorem proceed {next : Except Failure α → Course σ β} {next' : Except Failure α' → Course σ' β'}
    (h : Twins R V c c')
    (hnext : ∀ result result', Outcomes V result result' → Twins R W (next result) (next' result')) :
    Twins R W (c.proceed next) (c'.proceed next') := fun s s' hs => (h s s' hs).proceed hnext

theorem bind {next : α → Course σ β} {next' : α' → Course σ' β'} (h : Twins R V c c')
    (hnext : ∀ a a', V a a' → Twins R W (next a) (next' a')) :
    Twins R W (c >>= next) (c' >>= next') := fun s s' hs => (h s s' hs).bind hnext

/-- Where both courses yield one value, the same follows. -/
theorem bind_eq {c' : Course σ' α} {next : α → Course σ β} {next' : α → Course σ' β'}
    (h : Twins R Eq c c') (hnext : ∀ a, Twins R W (next a) (next' a)) :
    Twins R W (c >>= next) (c' >>= next') :=
  h.bind fun a _ ha => ha ▸ hnext a

theorem attempt (h : Twins R V c c') : Twins R (Outcomes V) c.attempt c'.attempt :=
  h.proceed fun _ _ houtcome => done (.ok houtcome)

theorem attemptUnlessInterrupted (h : Twins R V c c') :
    Twins R (Outcomes V) c.attemptUnlessInterrupted c'.attemptUnlessInterrupted :=
  fun s s' hs => (h s s' hs).attemptUnlessInterrupted

theorem forM {γ : Type} {items : List γ} {f : γ → Course σ PUnit} {f' : γ → Course σ' PUnit}
    (h : ∀ a ∈ items, Twins R Eq (f a) (f' a)) : Twins R Eq (items.forM f) (items.forM f') := by
  induction items with
  | nil => exact pure rfl
  | cons a rest ih =>
    exact (h a List.mem_cons_self).bind_eq fun _ => ih fun b hb => h b (List.mem_cons_of_mem a hb)

theorem ending (failure : Option Failure) :
    Twins R Eq (Course.ending failure) (Course.ending failure) := by
  cases failure with
  | none => exact pure rfl
  | some failure => exact done (.error failure)

theorem undergo (reaction : Reaction) :
    Twins R Eq (Course.undergo reaction) (Course.undergo reaction) :=
  (forM fun line _ => call line).bind_eq fun _ => ending reaction.failure

end Twins

/-! ## Courses that submit no lines -/

/-- From related states two courses come to related outcomes in related states, whatever is done with
lines: neither submits any there. -/
def Silent (R : σ → σ' → Prop) (V : α → α' → Prop) (c : Course σ α) (c' : Course σ' α') : Prop :=
  ∀ answer answer', (c.run answer).Twins R V (c'.run answer')

namespace Silent

theorem done {result : Except Failure α} {result' : Except Failure α'}
    (h : Outcomes V result result') : Silent R V (.done result) (.done result') :=
  fun _ _ _ _ hs => ⟨h, hs⟩

theorem pure {a : α} {a' : α'} (h : V a a') :
    Silent R V (Pure.pure a : Course σ α) (Pure.pure a') := done (.ok h)

theorem ofAct {act : Act Failure σ α} {act' : Act Failure σ' α'} (h : act.Twins R V act') :
    Silent R V (Course.ofAct act) (Course.ofAct act') := fun _ _ => h

theorem proceed {next : Except Failure α → Course σ β} {next' : Except Failure α' → Course σ' β'}
    (h : Silent R V c c')
    (hnext : ∀ result result', Outcomes V result result' → Silent R W (next result) (next' result')) :
    Silent R W (c.proceed next) (c'.proceed next') := by
  intro answer answer' s s' hs
  obtain ⟨houtcome, hstate⟩ := h answer answer' s s' hs
  rw [run_proceed, run_proceed]
  exact hnext _ _ houtcome answer answer' _ _ hstate

theorem bind {next : α → Course σ β} {next' : α' → Course σ' β'} (h : Silent R V c c')
    (hnext : ∀ a a', V a a' → Silent R W (next a) (next' a')) :
    Silent R W (c >>= next) (c' >>= next') := by
  refine h.proceed fun result result' houtcome => ?_
  cases houtcome with
  | ok hV => exact hnext _ _ hV
  | error failure => exact done (.error failure)

/-- Where both courses yield one value, the same follows. -/
theorem bind_eq {c' : Course σ' α} {next : α → Course σ β} {next' : α → Course σ' β'}
    (h : Silent R Eq c c') (hnext : ∀ a, Silent R W (next a) (next' a)) :
    Silent R W (c >>= next) (c' >>= next') :=
  h.bind fun a _ ha => ha ▸ hnext a

theorem attempt (h : Silent R V c c') : Silent R (Outcomes V) c.attempt c'.attempt :=
  h.proceed fun _ _ houtcome => done (.ok houtcome)

theorem attemptUnlessInterrupted (h : Silent R V c c') :
    Silent R (Outcomes V) c.attemptUnlessInterrupted c'.attemptUnlessInterrupted := by
  refine h.proceed fun result result' houtcome => ?_
  cases houtcome with
  | ok hV => exact done (.ok (.ok hV))
  | error failure =>
    simp only
    split
    · exact done (.error failure)
    · exact done (.ok (.error failure))

theorem forM {γ : Type} {items : List γ} {f : γ → Course σ PUnit} {f' : γ → Course σ' PUnit}
    (h : ∀ a ∈ items, Silent R Eq (f a) (f' a)) : Silent R Eq (items.forM f) (items.forM f') := by
  induction items with
  | nil => exact pure rfl
  | cons a rest ih =>
    exact (h a List.mem_cons_self).bind_eq fun _ => ih fun b hb => h b (List.mem_cons_of_mem a hb)

/-- A call of a part that submits no lines. -/
theorem undergo {reaction : Reaction} (h : reaction.resubmits = []) :
    Silent R Eq (Course.undergo reaction) (Course.undergo reaction) := by
  unfold Course.undergo
  rw [h]
  cases reaction.failure with
  | none => exact pure rfl
  | some failure => exact done (.error failure)

end Silent

end Course

end VaultConsole
