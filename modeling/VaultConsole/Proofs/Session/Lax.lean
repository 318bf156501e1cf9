import VaultConsole.Proofs.Session.Steady

/-!
# All that is done with a session

Commands change the store, the gate and the effects that wait. Calls of parts outside use up what
these are going to do, and the screen and the loop of this program stay what they are. A relation that
allows this much is kept to by everything that is done with a session for a line.

* `Session.Lax`: relations that allow it, calls of the scheduler apart.
* `Session.lax_execute`, `Session.lax_touch`, `Session.lax_copy`: what keeps to them.
* `Session.Loose`: relations that allow calls of the scheduler, too.
-/

namespace VaultConsole.Session

/-- A relation that allows all that is done with a session for a line, but for calls of the scheduler. A
part outside may become another one; the screen and the loop of this program stay. -/
class Lax (S : Session → Session → Prop) : Prop extends Std.Refl S, IsTrans Session S where
  of_steady : ∀ {s s'}, Steady s s' → S s s'
  effects : ∀ s deferred scheduled, S s { s with deferred, scheduled }
  clipboard : ∀ s clipboard, S s { s with clipboard }
  navigator : ∀ s b b', s.navigator = some (.outside b) → S s { s with navigator := some (.outside b') }
  exit : ∀ s b b', s.exit = some (.outside b) → S s { s with exit := some (.outside b') }
  stop : ∀ s, S s { s with running := false }

/-- A relation that allows calls of the scheduler, too. -/
class Loose (S : Session → Session → Prop) : Prop extends Lax S where
  scheduler : ∀ s scheduler, S s { s with scheduler }

variable {S : Session → Session → Prop}

theorem loose_takeHandling [Loose S] : takeHandling.Keeps S :=
  fun s => Loose.scheduler s s.scheduler.next.2

variable [Lax S]

theorem lax_of_sound {α : Type} {act : Act Failure Session α} (h : act.Sound Steady Blames) :
    act.Keeps S := h.keeps.mono fun _ _ hs => Lax.of_steady hs

theorem lax_emit (severity : Severity) (name : Text) (fields : Table Text Json) :
    (emit severity name fields).Keeps S := lax_of_sound (sound_emit severity name fields)

theorem lax_note (call : Call) : (inWorld (·.note call)).Keeps S :=
  fun _ => Lax.of_steady ⟨⟨rfl, rfl⟩, rfl⟩

theorem lax_print (line : Text) : (inWorld (·.print line)).Keeps S :=
  fun _ => Lax.of_steady ⟨⟨rfl, rfl⟩, rfl⟩

theorem lax_hold (account : Account) : (hold account).Keeps S :=
  fun _ => Lax.of_steady ⟨⟨rfl, rfl⟩, rfl⟩

theorem lax_release (account : Account) : (release account).Keeps S :=
  fun _ => Lax.of_steady ⟨⟨rfl, rfl⟩, rfl⟩

theorem lax_takeDeferred : takeDeferred.Keeps S := fun s => Lax.effects s [] s.scheduled

theorem lax_dropDeferred : (Act.change dropDeferred : Act Failure Session Unit).Keeps S :=
  fun s => Lax.effects s [] s.scheduled

theorem lax_takeScheduled : takeScheduled.Keeps S := fun s => Lax.effects s s.deferred []

theorem lax_enqueue (effect : Effect) : (enqueue effect).Keeps S :=
  (Act.Keeps.look _).bind fun delay => (lax_note _).bind fun _ s =>
    Lax.effects s s.deferred (s.scheduled ++ [(delay, effect)])

/-- A command makes an effect wait, or changes the store and the gate. -/
theorem lax_execute (l : Line) : (execute l).Keeps S := by
  intro s
  rcases execute_cases l s with ⟨effect, entry, hrun⟩ | hsound
  · rw [hrun]
    exact Lax.effects s _ s.scheduled
  · exact Lax.of_steady hsound.keeps

theorem lax_showPage (page : Page) : (showPage page).Keeps S := by
  intro s
  unfold showPage
  rw [Act.run_bind, Act.run_look, Act.after_ok]
  cases hnavigator : s.navigator with
  | none => exact Std.Refl.refl s
  | some navigator =>
    cases navigator with
    | outside b =>
      have hnote : S s (inWorld (·.note (.navigate page)) s).2 := lax_note _ s
      exact trans_of S hnote (Lax.navigator _ b b.next.2 hnavigator)
    | screen leavesAtOverview =>
      refine Act.Keeps.bind ?_ (fun _ => .pure _) s
      refine (lax_of_sound (sound_pageSummary page)).bind fun summary => (lax_print summary).bind fun _ => ?_
      exact .ite (fun s => Lax.stop s) (.pure _)

theorem lax_leave : leave.Keeps S := by
  intro s
  unfold leave
  rw [Act.run_bind, Act.run_look, Act.after_ok]
  cases hexit : s.exit with
  | none => exact Std.Refl.refl s
  | some exit =>
    cases exit with
    | outside b =>
      have hnote : S s (inWorld (·.note .exit) s).2 := lax_note _ s
      exact trans_of S hnote (Lax.exit _ b b.next.2 hexit)
    | loop => exact Lax.stop s

theorem lax_touch (effect : Effect) : (touch effect).Keeps S := by
  cases effect with
  | navigate page => exact lax_showPage page
  | exit => exact lax_leave

theorem lax_copy (text : Text) : (copy text).Keeps S := by
  refine (Act.Keeps.look _).bind fun clipboard => ?_
  split
  · exact .pure _
  · next behaviour _ =>
    refine (lax_note _).bind fun _ => ?_
    exact Act.Keeps.bind (fun s => Lax.clipboard s _) fun _ => .pure _

end VaultConsole.Session
