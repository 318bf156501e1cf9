import VaultConsole.Proofs.Terminal.InStep

/-!
# Completing what is typed

Tab takes over the first entry of the vocabulary that begins with what is being typed. An entry that
stands before it does not begin with it, or it would begin with what is being typed as well. So the
entry is the first one that begins with itself, and another Tab leaves it.

The interpreter keeps the suggestions beside the text, and Tab drops them. It drops none that another
Tab would need, so whatever is done, Tab makes of a text what it makes of it when it is newly typed.

* `Suggestion.find?_of_find?`: **the first entry that begins with a text is the first that begins with
  itself**, in every vocabulary.
* `Suggestion.completion`: what Tab makes of a text. `Suggestion.completion_completion`: another Tab
  leaves it.
* `Interpreter.IsCurrent`: the suggestions are not dated. Every act preserves it.
* `HostStep.suggests_sequence`: **suggestions never go stale, and Tab is stable.**
-/

namespace VaultConsole

namespace Suggestion

/-- An entry begins with a text, whatever the case. -/
def begins (t entry : Text) : Bool := t.lower.isPrefixOf entry.lower

theorem begins_iff (t entry : Text) : begins t entry = true ↔ t.lower <+: entry.lower :=
  List.isPrefixOf_iff_prefix

variable {entries : List Text} {limit : Int} {t entry : Text}

/-- **The first entry that begins with a text is the first that begins with itself.** -/
theorem find?_of_find? (h : entries.find? (begins t) = some entry) :
    entries.find? (begins entry) = some entry := by
  obtain ⟨hentry, before, after, hentries, hbefore⟩ := List.find?_eq_some_iff_append.1 h
  have hself : begins entry entry = true := (begins_iff entry entry).2 (List.prefix_refl _)
  refine List.find?_eq_some_iff_append.2 ⟨hself, before, after, hentries, fun other hother => ?_⟩
  by_contra hbegins
  have hprefix : entry.lower <+: other.lower := by
    rw [← begins_iff]
    simpa using hbegins
  -- an earlier entry that begins with this one begins with the text
  have hother' : begins t other = true :=
    (begins_iff t other).2 (((begins_iff t entry).1 hentry).trans hprefix)
  simpa [hother'] using hbefore other hother

/-- The first suggestion for a text is the first entry that begins with it. -/
theorem head?_among (hlimit : 0 < limit) (ht : t.isBlank = false) :
    (among entries limit t).head? = entries.find? (begins t) := by
  have hnone : ¬ (t.isBlank = true) := by simp [ht]
  have hfirst : (entries.filter (begins t)).head? = entries.find? (begins t) := List.head?_filter
  have hindex : Sequence.index limit (entries.filter (begins t)) =
      min limit.toNat (entries.filter (begins t)).length := if_neg (by omega)
  have hamong : among entries limit t =
      (entries.filter (begins t)).take (min limit.toNat (entries.filter (begins t)).length) := by
    rw [← hindex]
    exact if_neg hnone
  rw [hamong, ← hfirst, List.head?_take]
  split
  · next hzero =>
    -- the limit leaves room for one, so there is none
    have hlength : (entries.filter (begins t)).length = 0 := by omega
    rw [List.length_eq_zero_iff.1 hlength]
    rfl
  · rfl

theorem isBlank_of_mem_vocabulary : ∀ entry ∈ vocabulary, entry.isBlank = false := by decide

/-- What Tab makes of a text that was newly typed: the first suggestion, or the text itself. -/
def completion (t : Text) : Text := (list t).headD t

/-- The first suggestion is what a text is completed to. -/
theorem completion_of_find? (ht : t.isBlank = false) (h : vocabulary.find? (begins t) = some entry) :
    completion t = entry := by
  have hhead : (list t).head? = some entry := (head?_among (by decide) ht).trans h
  rw [completion, List.headD_eq_head?_getD, hhead]
  rfl

/-- A text is completed to the first entry that begins with it, or it is left. -/
theorem completion_cases (t : Text) :
    completion t = t ∨ vocabulary.find? (begins t) = some (completion t) := by
  cases ht : t.isBlank with
  | true =>
    have hnone : list t = [] := if_pos ht
    exact .inl (by rw [completion, hnone]; rfl)
  | false =>
    cases hfirst : vocabulary.find? (begins t) with
    | none =>
      have hhead : (list t).head? = none := (head?_among (by decide) ht).trans hfirst
      exact .inl (by rw [completion, List.head?_eq_none_iff.1 hhead]; rfl)
    | some entry => exact .inr (congrArg some (completion_of_find? ht hfirst).symm)

/-- **A completed text is left by another Tab.** -/
theorem completion_completion (t : Text) : completion (completion t) = completion t := by
  rcases completion_cases t with hsame | hfirst
  · rw [hsame, hsame]
  · have hmem : completion t ∈ vocabulary := List.mem_of_find?_eq_some hfirst
    exact completion_of_find? (isBlank_of_mem_vocabulary _ hmem) (find?_of_find? hfirst)

/-- What Tab makes of a text is the text itself, or an entry that begins with it. -/
theorem completes_completion (t : Text) : Terminal.Completes t (completion t) := by
  unfold completion
  cases hfirst : list t with
  | nil => exact .inl rfl
  | cons first rest =>
    have hmem : first ∈ list t := by
      rw [hfirst]
      exact List.mem_cons_self
    exact Terminal.completes_of_mem_list hmem

end Suggestion

/-- What was so stays so. -/
def Preserves {σ : Type} (I : σ → Prop) (s s' : σ) : Prop := I s → I s'

instance {σ : Type} (I : σ → Prop) : Std.Refl (Preserves I) := ⟨fun _ h => h⟩

instance {σ : Type} (I : σ → Prop) : IsTrans σ (Preserves I) := ⟨fun _ _ _ h h' hs => h' (h hs)⟩

/-! ## Suggestions and what is being typed -/

namespace Interpreter

variable {i : Interpreter}

/-- The suggestions are those for what is being typed, or they were dropped and Tab would leave it. -/
def IsCurrent (i : Interpreter) : Prop :=
  i.suggestions = Suggestion.list i.buffer ∨
    i.suggestions = [] ∧ Suggestion.completion i.buffer = i.buffer

/-- **Tab completes what is being typed** as if it were newly typed, also where the suggestions were
dropped. -/
theorem IsCurrent.buffer_complete (h : i.IsCurrent) :
    i.complete.buffer = Suggestion.completion i.buffer := by
  have hbuffer : i.complete.buffer = i.suggestions.headD i.buffer := rfl
  rcases h with hlist | ⟨hnone, hsame⟩
  · rw [hbuffer, hlist, Suggestion.completion]
  · rw [hbuffer, hnone, hsame]
    rfl

theorem isCurrent_complete (h : i.IsCurrent) : i.complete.IsCurrent := by
  refine .inr ⟨rfl, ?_⟩
  rw [h.buffer_complete, Suggestion.completion_completion]

theorem isCurrent_recallBy (h : i.IsCurrent) (step : History → Option Text × History) :
    (i.recallBy step).IsCurrent := by
  unfold recallBy
  rcases step i.history with ⟨_ | text, history⟩
  · exact h
  · exact .inl rfl

instance : Wide Session.Anyhow (Preserves IsCurrent) where
  session _ _ _ h := h
  answer _ _ _ h := h
  remember _ _ h := h

/-- What is done for a line leaves the suggestions current: once announced it is no longer typed. -/
theorem isCurrent_course (line : Text) : (course line).Keeps (Preserves IsCurrent) := by
  have hannounce : ∀ line, (announce line).Keeps (Preserves IsCurrent) := by
    intro line i _
    exact .inl rfl
  have hconclude : ∀ entry, (conclude entry).Keeps (Preserves IsCurrent) := by
    intro entry i h
    cases entry <;> exact h
  exact allows_course hannounce hconclude line

end Interpreter

open Interpreter

/-- Suggestions fit, and Tab is stable. -/
structure Interpreter.Suggests (i : Interpreter) : Prop where
  /-- There are none, or they are those for what is being typed. -/
  fit : i.SuggestsFit
  /-- Tab makes of what is being typed what it makes of it when it is newly typed. -/
  fresh : i.complete.buffer = Suggestion.completion i.buffer
  /-- That is the text itself, or an entry that begins with it, whatever the case. -/
  completes : Terminal.Completes i.buffer i.complete.buffer
  /-- Newly typed, also later, what Tab gave is left by Tab. -/
  stable : ∀ later : Interpreter, (later.setBuffer i.complete.buffer).complete.buffer = i.complete.buffer

theorem Interpreter.IsCurrent.suggests {i : Interpreter} (h : i.IsCurrent) : i.Suggests where
  fit := h.symm.imp_left And.left
  fresh := h.buffer_complete
  completes := by
    rw [h.buffer_complete]
    exact Suggestion.completes_completion i.buffer
  stable later := by
    have hagain : (later.setBuffer i.complete.buffer).complete.buffer =
        Suggestion.completion i.complete.buffer := rfl
    rw [hagain, h.buffer_complete, Suggestion.completion_completion]

namespace HostStep

/-- What a host does leaves the suggestions current. -/
theorem isCurrent_course (s : HostStep) : s.course.Keeps (Preserves IsCurrent) :=
  s.allows_step (fun _ _ _ => .inl rfl) (fun _ step h => isCurrent_recallBy h step)
    fun _ => isCurrent_complete

/-- **Suggestions never go stale, and Tab is stable**: whatever a host does with an interpreter, and
whatever parts outside do on the way, between its steps and wherever a line begins or ends. -/
theorem suggests_sequence (session : Session) (steps : List HostStep) :
    (sequence steps (start session)).Suggests ∧
      ∀ t ∈ trace steps (start session), t.start.Suggests ∧ t.finish.Suggests := by
  have hstart : (start session).IsCurrent := .inl rfl
  have hline : ∀ line i, i.IsCurrent → (Interpreter.course line).Meets IsCurrent (fun _ => IsCurrent) (fun _ => IsCurrent) i :=
    fun line _ => .of_keeps (Interpreter.isCurrent_course line) fun _ _ hkeeps => hkeeps
  have hstep : ∀ (s : HostStep) i, i.IsCurrent → s.course.Meets IsCurrent (fun _ => IsCurrent) (fun _ => IsCurrent) i :=
    fun s _ => .of_keeps s.isCurrent_course fun _ _ hkeeps => hkeeps
  obtain ⟨hend, hturns⟩ := holds_sequence hline hstep hstart steps
  exact ⟨hend.suggests, fun t ht => ⟨(hturns t ht).1.suggests, (hturns t ht).2.suggests⟩⟩

/-- A command is typed and completed. While it stands there another one is submitted, which leads to two
more lines. Then a word is typed, and lines are recalled instead. -/
def sampleTyping : List HostStep :=
  [.edit "VAULT s", .complete, .submit "open vaults", .edit "Open", .recallPrevious, .recallPrevious]

theorem suggests_sampleTyping :
    (sequence sampleTyping (start sampleSession)).Suggests ∧
      ∃ t ∈ trace sampleTyping (start sampleSession),
        t.start.buffer = "vault show" ∧ t.start.suggestions = [] ∧ t.start.Suggests ∧
          t.finish.buffer = [] ∧ t.finish.Suggests := by
  obtain ⟨hend, hturns⟩ := suggests_sequence sampleSession sampleTyping
  obtain ⟨t, ht, hbuffer, hsuggestions, hfinish⟩ : ∃ t ∈ trace sampleTyping (start sampleSession),
      t.start.buffer = "vault show" ∧ t.start.suggestions = [] ∧ t.finish.buffer = [] :=
    ⟨_, List.mem_of_getElem? (i := 0) rfl, by decide +kernel, by decide +kernel, by decide +kernel⟩
  exact ⟨hend, t, ht, hbuffer, hsuggestions, (hturns t ht).1, hfinish, (hturns t ht).2⟩

end HostStep

end VaultConsole
