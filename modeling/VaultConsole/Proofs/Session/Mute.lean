import VaultConsole.Proofs.Session.Steady

/-!
# Parts outside that do not call back

A part outside that submits no lines may still fail on every call, in any way, also by an interruption.
So may the store. Such parts stay as they are, whatever is done with the session.

* `Session.IsMute`: no part outside submits lines.
* `Session.Mutes`: acts that leave a session mute.
* `Session.mutes_touch`, `Session.mutes_copy`, `Session.mutes_takeHandling`: calls of parts outside.
-/

namespace VaultConsole

/-- A call that submits no lines. -/
def Reaction.IsMute (r : Reaction) : Prop := r.resubmits = []

/-- No call of a part submits lines. -/
def Behaviour.IsMute (b : Behaviour) : Prop := ∀ r ∈ b.upcoming, r.IsMute

/-- A handling of an effect that submits no lines. -/
def Handling.IsMute (h : Handling) : Prop := ∀ line, .submit line ∉ h.moves

/-- No call of a scheduler submits lines. -/
def Scheduler.IsMute (s : Scheduler) : Prop := ∀ h ∈ s.upcoming, h.IsMute

theorem Reaction.isMute_quiet : Reaction.quiet.IsMute := rfl

theorem Behaviour.IsMute.next {b : Behaviour} (h : b.IsMute) : b.next.1.IsMute ∧ b.next.2.IsMute := by
  unfold Behaviour.next
  split
  · exact ⟨rfl, h⟩
  · next reaction rest hupcoming =>
    have hall := h
    rw [IsMute, hupcoming] at hall
    exact ⟨hall reaction List.mem_cons_self, fun r hr => hall r (List.mem_cons_of_mem reaction hr)⟩

/-- A scheduler that keeps to a timing submits no lines itself. -/
theorem Timing.isMute_handling (t : Timing) : t.handling.IsMute := by
  cases t <;> simp [Handling.IsMute, handling]

theorem Scheduler.IsMute.next {s : Scheduler} (h : s.IsMute) : s.next.1.IsMute ∧ s.next.2.IsMute := by
  unfold Scheduler.next
  split
  · exact ⟨s.afterwards.isMute_handling, h⟩
  · next handling rest hupcoming =>
    have hall := h
    rw [IsMute, hupcoming] at hall
    exact ⟨hall handling List.mem_cons_self, fun h' hh => hall h' (List.mem_cons_of_mem handling hh)⟩

namespace Session

/-- Parts outside, and the store, do what they want, but submit no lines. -/
structure IsMute (s : Session) : Prop where
  navigator : ∀ b, s.navigator = some (.outside b) → b.IsMute
  exit : ∀ b, s.exit = some (.outside b) → b.IsMute
  clipboard : ∀ b, s.clipboard = some b → b.IsMute
  scheduler : s.scheduler.IsMute

variable {α β : Type} {s s' : Session}

/-- A session that was mute stays so. -/
def Muted (s s' : Session) : Prop := s.IsMute → s'.IsMute

instance : Std.Refl Muted := ⟨fun _ h => h⟩

instance : IsTrans Session Muted := ⟨fun _ _ _ h h' hs => h' (h hs)⟩

theorem Steady.muted (h : s.Steady s') : s.Muted s' := by
  intro hs
  rw [h.rest]
  exact ⟨hs.navigator, hs.exit, hs.clipboard, hs.scheduler⟩

/-- An act that leaves a mute session mute, and yields there what it should. -/
def Mutes (P : α → Prop) (act : Act Failure Session α) : Prop :=
  ∀ s, s.IsMute → (act s).2.IsMute ∧ ∀ a, (act s).1 = .ok a → P a

theorem mutes_of_keeps {act : Act Failure Session α} (h : act.Keeps Muted) :
    Mutes (fun _ => True) act := fun s hs => ⟨h s hs, fun _ _ => trivial⟩

theorem mutes_change {f : Session → Session} (h : ∀ s, s.IsMute → (f s).IsMute) :
    Mutes (fun _ => True) (Act.change f) := fun s hs => ⟨h s hs, fun _ _ => trivial⟩

theorem mutes_pure {P : α → Prop} {a : α} (h : P a) : Mutes P (pure a) :=
  fun _ hs => ⟨hs, fun _ ha => by cases ha; exact h⟩

theorem Mutes.bind {P : α → Prop} {Q : β → Prop} {act : Act Failure Session α}
    {next : α → Act Failure Session β} (h : Mutes P act) (hnext : ∀ a, P a → Mutes Q (next a)) :
    Mutes Q (act >>= next) := by
  intro s hs
  obtain ⟨hmute, hP⟩ := h s hs
  rw [Act.run_bind]
  rcases hact : act s with ⟨failure | a, s'⟩ <;> rw [hact] at hmute hP
  · exact ⟨hmute, fun _ h => by cases h⟩
  · exact hnext a (hP a rfl) s' hmute

theorem muted_inWorld (f : World → World) : (inWorld f).Keeps Muted :=
  fun _ hs => ⟨hs.navigator, hs.exit, hs.clipboard, hs.scheduler⟩

/-! ## Parts outside -/

/-- A call of a part outside. -/
theorem mutes_call {b : Behaviour} (hb : b.IsMute) (call : Call) (put : Behaviour → Session → Session)
    (hput : ∀ s, s.IsMute → (put b.next.2 s).IsMute) :
    Mutes Reaction.IsMute (do
      inWorld (·.note call)
      let (reaction, rest) := b.next
      Act.change (put rest)
      return reaction) :=
  (mutes_of_keeps (muted_inWorld _)).bind fun _ _ =>
    (mutes_change hput).bind fun _ _ => mutes_pure hb.next.1

theorem mutes_showPage (page : Page) : Mutes Reaction.IsMute (showPage page) := by
  intro s hs
  unfold showPage
  rw [Act.run_bind, Act.run_look, Act.after_ok]
  cases hnavigator : s.navigator with
  | none => exact mutes_pure Reaction.isMute_quiet s hs
  | some navigator =>
    cases navigator with
    | outside b =>
      have hb := hs.navigator b hnavigator
      refine mutes_call hb (.navigate page)
        (fun rest s => { s with navigator := some (.outside rest) }) (fun s hs => ?_) s hs
      refine ⟨fun b' h => ?_, hs.exit, hs.clipboard, hs.scheduler⟩
      cases h
      exact hb.next.2
    | screen leavesAtOverview =>
      have hshow : Mutes (fun _ => True) (showOnScreen leavesAtOverview page) := by
        refine (mutes_of_keeps ((sound_pageSummary page).keeps.mono fun _ _ h => h.muted)).bind fun summary _ => ?_
        refine (mutes_of_keeps (muted_inWorld _)).bind fun _ _ => ?_
        split
        · exact mutes_change fun s hs => ⟨hs.navigator, hs.exit, hs.clipboard, hs.scheduler⟩
        · exact mutes_pure trivial
      exact hshow.bind (fun _ _ => mutes_pure Reaction.isMute_quiet) s hs

theorem mutes_leave : Mutes Reaction.IsMute leave := by
  intro s hs
  unfold leave
  rw [Act.run_bind, Act.run_look, Act.after_ok]
  cases hexit : s.exit with
  | none => exact mutes_pure Reaction.isMute_quiet s hs
  | some exit =>
    cases exit with
    | outside b =>
      have hb := hs.exit b hexit
      refine mutes_call hb .exit (fun rest s => { s with exit := some (.outside rest) })
        (fun s hs => ?_) s hs
      refine ⟨hs.navigator, fun b' h => ?_, hs.clipboard, hs.scheduler⟩
      cases h
      exact hb.next.2
    | loop =>
      refine (mutes_change fun s hs => ?_).bind (fun _ _ => mutes_pure Reaction.isMute_quiet) s hs
      exact ⟨hs.navigator, hs.exit, hs.clipboard, hs.scheduler⟩

/-- A part outside that an effect is for submits no lines. -/
theorem mutes_touch (effect : Effect) : Mutes Reaction.IsMute (touch effect) := by
  cases effect with
  | navigate page => exact mutes_showPage page
  | exit => exact mutes_leave

theorem mutes_copy (text : Text) : Mutes Reaction.IsMute (copy text) := by
  intro s hs
  unfold copy
  rw [Act.run_bind, Act.run_look, Act.after_ok]
  cases hclipboard : s.clipboard with
  | none => exact mutes_pure Reaction.isMute_quiet s hs
  | some b =>
    have hb := hs.clipboard b hclipboard
    refine mutes_call hb (.copy text) (fun rest s => { s with clipboard := some rest })
      (fun s hs => ?_) s hs
    refine ⟨hs.navigator, hs.exit, fun b' h => ?_, hs.scheduler⟩
    cases h
    exact hb.next.2

theorem mutes_takeHandling : Mutes Handling.IsMute takeHandling := by
  intro s hs
  have hnext := hs.scheduler.next
  refine ⟨⟨hs.navigator, hs.exit, hs.clipboard, hnext.2⟩, fun handling h => ?_⟩
  cases h
  exact hnext.1

theorem muted_enqueue (effect : Effect) : (enqueue effect).Keeps Muted :=
  fun _ hs => ⟨hs.navigator, hs.exit, hs.clipboard, hs.scheduler⟩

theorem muted_takeDeferred : takeDeferred.Keeps Muted :=
  fun _ hs => ⟨hs.navigator, hs.exit, hs.clipboard, hs.scheduler⟩

theorem muted_hold (account : Account) : (hold account).Keeps Muted :=
  fun _ hs => ⟨hs.navigator, hs.exit, hs.clipboard, hs.scheduler⟩

theorem muted_release (account : Account) : (release account).Keeps Muted :=
  fun _ hs => ⟨hs.navigator, hs.exit, hs.clipboard, hs.scheduler⟩

/-- A command calls no part outside. -/
theorem muted_execute (l : Line) : (execute l).Keeps Muted := by
  intro s hs
  rcases execute_cases l s with ⟨effect, entry, hrun⟩ | hsound
  · rw [hrun]
    exact ⟨hs.navigator, hs.exit, hs.clipboard, hs.scheduler⟩
  · exact hsound.keeps.muted hs

end Session

end VaultConsole
