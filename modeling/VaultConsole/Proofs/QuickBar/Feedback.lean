import VaultConsole.Proofs.Number.Rounding
import VaultConsole.Proofs.QuickBar.Answers
import VaultConsole.Proofs.QuickBar.Secrecy
import VaultConsole.Proofs.Session.Mute

/-!
# Feedback

A read of the feedback drops what is over. What is over stays so, as long as the clock does not go back:
rounding keeps the order of times. So a read only does early what any later read would do, and no line
looks at the feedback at all.

* `Delay.isOver_mono`: what is over stays so.
* `QuickBar.Apart`: two bars that differ at most in their feedback, along a line.
* `QuickBar.twin_submit`: a line answers alike on both, and shows its entry if it has one.
* `BarStep.lastShown`: the entry of the last line that had one, and when it came.
* `BarStep.Fed`: what reads give, and that they do not matter.
* `BarStep.fed_sequence`: **so it is after every run under a clock that does not go back.**
-/

namespace VaultConsole

namespace Delay

/-- What is over stays so. -/
theorem isOver_mono {x y : Binary64} {d : Delay} (h : x.isAtMost y = true)
    (hover : d.isOver x = true) : d.isOver y = true := by
  cases d with
  | whole seconds => exact Binary64.isAtLeastWhole_mono h hover
  | real seconds => exact Binary64.isAtMost_trans hover h

/-- A delay is greater than some seconds. Nothing is greater or less than what is no number. -/
def Exceeds (elapsed : Binary64) : Delay → Prop
  | whole seconds => elapsed ≠ .nan ∧ elapsed.isAtLeastWhole seconds = false
  | real seconds => elapsed.isAtMost seconds = true ∧ seconds.isAtMost elapsed = false

/-- A delay that is a number is either over or greater. -/
theorem exceeds_iff {x : Binary64} {d : Delay} (hx : x ≠ .nan) (hd : d ≠ .real .nan) :
    d.Exceeds x ↔ d.isOver x = false := by
  cases d with
  | whole seconds => exact and_iff_right hx
  | real seconds =>
    have hseconds : seconds ≠ .nan := fun h => hd (h ▸ rfl)
    exact and_iff_right_of_imp fun h =>
      (Binary64.isAtMost_total hx hseconds).resolve_right (by simp [h])

end Delay

namespace Session

theorem muted_defer (effect : Effect) : (defer effect).Keeps Muted :=
  fun _ hs => ⟨hs.navigator, hs.exit, hs.clipboard, hs.scheduler⟩

theorem muted_requireNavigator : requireNavigator.Keeps Muted :=
  (Act.Keeps.look _).bind fun _ => .ite (.fail _) (.pure _)

theorem muted_openPage (name : Text) : (openPage name).Keeps Muted := by
  refine muted_requireNavigator.bind fun _ => ?_
  split
  · exact .fail _
  · exact (muted_defer _).bind fun _ => .pure _

end Session

namespace QuickBar

/-! ## A line on two bars -/

/-- Two bars with parts outside that submit no lines, the same but for the feedback. Each has the feedback
that it had once, and the lifetime is as it was. -/
structure Apart (b₀ b₀' b b' : QuickBar) : Prop where
  mute : b.session.IsMute
  rest : b' = { b with feedback := b₀'.feedback }
  feedback : b.feedback = b₀.feedback
  lifetime : b.lifetime = b₀.lifetime

variable {b₀ b₀' : QuickBar} {α : Type} {P : α → Prop} {l : Line}

/-- Acts on the session, of which the value is known where the parts outside are mute. -/
theorem twins_within {act : Act Failure Session α} (h : Session.Mutes P act) :
    (inSession act).Twins (Apart b₀ b₀') (fun a a' => a = a' ∧ P a) (inSession act) := by
  rintro b _ ⟨hmute, rfl, hfeedback, hlifetime⟩
  obtain ⟨hmute, hvalue⟩ := h b.session hmute
  refine ⟨?_, hmute, rfl, hfeedback, hlifetime⟩
  show Act.Outcomes _ (act b.session).1 (act b.session).1
  rcases hact : (act b.session).1 with failure | a
  · exact .error failure
  · exact .ok ⟨rfl, hvalue a hact⟩

theorem twins_muted {act : Act Failure Session α} (h : act.Keeps Session.Muted) :
    (inSession act).Twins (Apart b₀ b₀') Eq (inSession act) := fun b b' hb =>
  have htwins := twins_within (Session.mutes_of_keeps h) b b' hb
  ⟨htwins.1.imp fun _ _ => And.left, htwins.2⟩

theorem twins_emitted (severity : Severity) (name : Text) (fields : Table Text Json) :
    (emit severity name fields).Twins (Apart b₀ b₀') Eq (emit severity name fields) :=
  twins_muted ((Session.sound_emit severity name fields).keeps.mono fun _ _ h => h.muted)

theorem twins_asked (question : Text) :
    (ask question).Twins (Apart b₀ b₀') Eq (ask question) := by
  have hconsent : (Act.look consent : Act Failure QuickBar Consent).Twins (Apart b₀ b₀') Eq
      (Act.look consent) := .look fun b b' hb => by rw [hb.rest]; rfl
  have hconsents : (Act.look (·.consents) : Act Failure QuickBar (List Consent)).Twins (Apart b₀ b₀')
      Eq (Act.look (·.consents)) := .look fun b b' hb => by rw [hb.rest]
  have hchange : ∀ consents, (Act.change fun b => { b with consents } :
      Act Failure QuickBar Unit).Twins (Apart b₀ b₀') Eq (Act.change fun b => { b with consents }) := by
    refine fun consents => .change ?_
    rintro b _ ⟨hmute, rfl, hfeedback, hlifetime⟩
    exact ⟨hmute, rfl, hfeedback, hlifetime⟩
  refine (twins_muted (Session.muted_inWorld _)).bind_eq fun _ => hconsent.bind_eq fun consent =>
    hconsents.bind_eq fun consents => Act.Twins.bind_eq (hchange _) fun _ =>
      (twins_muted (Session.muted_inWorld _)).bind_eq fun _ => ?_
  split
  · exact .pure rfl
  · exact .pure rfl
  · exact .fail _

theorem twins_deletedNow (d : Deletion) :
    (deleteNow d).Twins (Apart b₀ b₀') Eq (deleteNow d) :=
  (twins_asked _).bind_eq fun _ => .ite
    ((twins_muted ((Session.sound_executeDeletion d).keeps.mono fun _ _ h => h.muted)).bind_eq
      fun _ => .pure rfl)
    (.pure rfl)

open Course (Silent)

theorem silent_muted {act : Act Failure Session α} (h : act.Keeps Session.Muted) :
    Silent (Apart b₀ b₀') Eq (Course.ofAct (inSession act)) (Course.ofAct (inSession act)) :=
  .ofAct (twins_muted h)

/-- Calls of parts outside. -/
theorem silent_undergo {act : Act Failure Session Reaction}
    (h : Session.Mutes Reaction.IsMute act) :
    Silent (Apart b₀ b₀') Eq (do Course.undergo (← inSession act))
      (do Course.undergo (← inSession act)) :=
  (Silent.ofAct (twins_within h)).bind fun _ _ hreaction => by
    obtain ⟨rfl, hmute⟩ := hreaction
    exact .undergo hmute

theorem silent_copySecret (account : Account) :
    Silent (Apart b₀ b₀') Eq (copySecret account) (copySecret account) := by
  refine (silent_muted (Session.muted_hold account)).bind_eq fun _ => ?_
  refine (silent_undergo (Session.mutes_copy _)).attempt.bind fun copied copied' hcopied => ?_
  refine (silent_muted (Session.muted_release account)).bind_eq fun released => ?_
  exact (Silent.done hcopied).bind_eq fun _ => .pure rfl

theorem silent_handOver : Silent (Apart b₀ b₀') Eq handOver handOver :=
  (silent_muted Session.muted_takeDeferred).bind_eq fun _ => .forM fun effect _ =>
    silent_undergo (Session.mutes_touch effect)

/-! ## Commands of the bar -/

/-- A command on the session that ends with an entry. -/
theorem twins_some {act : Act Failure Session Entry} (h : act.Keeps Session.Muted) :
    (do return some (← inSession act) : Act Failure QuickBar (Option Entry)).Twins (Apart b₀ b₀') Eq
      (do return some (← inSession act)) := (twins_muted h).bind_eq fun _ => .pure rfl

theorem muted_creationOf (l : Line) (kind : Deletable) :
    (Session.creationOf l kind).Keeps Session.Muted :=
  (Session.sound_creationOf l kind).keeps.mono fun _ _ h => h.muted

theorem muted_deletionOf (l : Line) (kind : Deletable) :
    (Session.deletionOf l kind).Keeps Session.Muted :=
  (Session.sound_deletionOf l kind).keeps.mono fun _ _ h => h.muted

theorem twins_executedVault (l : Line) :
    (executeVault l).Twins (Apart b₀ b₀') Eq (executeVault l) := by
  refine (Act.Twins.settle (.refl _)).bind_eq fun action => ?_
  cases action with
  | delete => exact (twins_muted (muted_deletionOf l .vault)).bind_eq twins_deletedNow
  | _ => exact twins_some (muted_creationOf l .vault)

theorem silent_executeAccount (l : Line) :
    Silent (Apart b₀ b₀') Eq (executeAccount l) (executeAccount l) := by
  refine (Silent.done (.refl _)).bind_eq fun action => ?_
  cases action with
  | password =>
    have hsecret : (Session.secretAccountOf l).Keeps Session.Muted :=
      ((Session.sound_required _ _ l).bind fun _ => Session.sound_secretOf _).keeps.mono
        fun _ _ h => h.muted
    exact (silent_muted hsecret).bind_eq fun account =>
      (silent_copySecret account).bind_eq fun _ => .pure rfl
  | delete =>
    exact (silent_muted (muted_deletionOf l .account)).bind_eq fun d => .ofAct (twins_deletedNow d)
  | _ => exact (silent_muted (muted_creationOf l .account)).bind_eq fun _ => .pure rfl

theorem silent_execute (l : Line) :
    Silent (Apart b₀ b₀') Eq (execute l) (execute l) := by
  have hoverview : returnToOverview.Keeps Session.Muted :=
    Session.muted_requireNavigator.bind fun _ => (Session.muted_defer _).bind fun _ => .pure _
  unfold execute
  split
  · exact .pure rfl
  · exact (silent_muted hoverview).bind_eq fun _ => .pure rfl
  · exact (silent_muted (Session.muted_openPage _)).bind_eq fun _ => .pure rfl
  · exact .ofAct (twins_executedVault l)
  · exact silent_executeAccount l
  · exact .done (.refl _)

/-- A line is answered alike on both bars, which keep their feedback until then. -/
theorem silent_answer (l : Line) : Silent (Apart b₀ b₀') Eq (answer l) (answer l) := by
  have hdrop : (Act.change Session.dropDeferred : Act Failure Session Unit).Keeps Session.Muted :=
    fun _ hs => ⟨hs.navigator, hs.exit, hs.clipboard, hs.scheduler⟩
  have hperform : Silent (Apart b₀ b₀') Eq (perform l) (perform l) :=
    (silent_execute l).bind_eq fun entry => (Silent.ofAct (twins_emitted _ _ _)).bind_eq fun _ =>
      silent_handOver.bind_eq fun _ => .pure rfl
  have hlog : ∀ failure, (logFailure l failure).Twins (Apart b₀ b₀') Eq (logFailure l failure) :=
    fun failure => .ite (twins_emitted _ _ _) (twins_emitted _ _ _)
  refine hperform.attemptUnlessInterrupted.bind fun result result' hresult => ?_
  cases hresult with
  | ok hentry =>
    obtain rfl := hentry
    exact .pure rfl
  | error failure =>
    exact (Silent.ofAct ((twins_muted hdrop).bind_eq fun _ =>
      (Act.Twins.settle (.refl _)).bind_eq fun _ => (hlog failure).bind_eq fun _ =>
        .pure rfl)).bind_eq fun _ => .pure rfl

/-! ## Lines -/

variable {b b' : QuickBar}

/-- Two bars that are the same but for the feedback. -/
def Twin (b b' : QuickBar) : Prop := b' = { b with feedback := b'.feedback }

theorem Twin.refl (b : QuickBar) : b.Twin b := rfl

theorem Twin.symm (h : b.Twin b') : b'.Twin b := by
  unfold Twin
  rw [h]

theorem Twin.trans {b'' : QuickBar} (h : b.Twin b') (h' : b'.Twin b'') : b.Twin b'' := by
  unfold Twin
  rw [h', h]

theorem Twin.session (h : b.Twin b') : b'.session = b.session := by rw [h]

theorem Twin.elapsed (h : b.Twin b') : b'.elapsed = b.elapsed := congrArg Session.elapsed h.session

theorem Twin.lifetime (h : b.Twin b') : b'.lifetime = b.lifetime := by rw [h]

/-- The entry of an answer, shown from a time on. -/
def shown (since : Binary64) : Except Failure (Option Entry) → Option (Entry × Binary64)
  | .ok (some entry) => some (entry, since)
  | _ => none

/-- What a line leaves of a bar. -/
structure Answered (line : Text) (b : QuickBar) : Prop where
  mute : (submit line b).2.session.IsMute
  lifetime : (submit line b).2.lifetime = b.lifetime
  /-- An entry is shown from the end of the line on; without one the feedback stays as it was. -/
  feedback : (submit line b).2.feedback =
    (shown (submit line b).2.elapsed (submit line b).1).or b.feedback

/-- A blank line changes nothing. -/
theorem submit_of_blank {line : Text} (h : Line.parse line = none) (b : QuickBar) :
    submit line b = (.ok none, b) := by
  obtain ⟨answer, hsubmit⟩ := exists_submit_eq line b
  rw [hsubmit]
  unfold course
  rw [h]
  rfl

/-- After its answer a line only shows the entry. -/
theorem run_course {line : Text} {l : Line} (hl : Line.parse line = some l)
    (answered : Text → Act Failure QuickBar Unit) (b : QuickBar) :
    (course line).run answered b =
      (let (result, b) := (answer l).run answered b
      (result, { b with feedback := (shown b.elapsed result).or b.feedback })) := by
  unfold course
  rw [hl]
  simp only
  rw [Course.run_bind]
  rcases (answer l).run answered b with ⟨failure | entry, b⟩
  · rfl
  · cases entry <;> rfl

/-- **A line answers alike on two bars that are the same but for the feedback, and leaves them so.** -/
theorem twin_submit (hmute : b.session.IsMute) (h : b.Twin b') (line : Text) :
    (submit line b').1 = (submit line b).1 ∧ (submit line b).2.Twin (submit line b').2 ∧
      Answered line b := by
  cases hl : Line.parse line with
  | none =>
    have hblank := submit_of_blank hl
    refine ⟨by rw [hblank, hblank], by rw [hblank, hblank]; exact h, ?_⟩
    constructor <;> rw [hblank]
    · exact hmute
    · rfl
  | some l =>
    obtain ⟨answered, hsubmit⟩ := exists_submit_eq line b
    obtain ⟨answered', hsubmit'⟩ := exists_submit_eq line b'
    obtain ⟨houtcome, hafter⟩ :=
      silent_answer l answered answered' b b' ⟨hmute, h, rfl, rfl⟩
    rw [run_course hl] at hsubmit hsubmit'
    rw [hsubmit, hsubmit']
    rcases hanswer : (answer l).run answered b with ⟨result, t⟩
    rcases hanswer' : (answer l).run answered' b' with ⟨result', t'⟩
    rw [hanswer, hanswer'] at houtcome hafter
    rw [hanswer] at hsubmit
    obtain ⟨htmute, rfl, hfeedback, hlifetime⟩ := hafter
    obtain rfl := houtcome.eq
    refine ⟨rfl, rfl, ?_⟩
    constructor <;> rw [hsubmit]
    · exact htmute
    · exact hlifetime
    · rw [← hfeedback]
      rfl

end QuickBar

namespace BarStep

open QuickBar (shown Twin)

/-! ## Runs -/

/-- The entry that a step shows, and when. -/
def shownBy (b : QuickBar) : BarStep → Option (Entry × Binary64)
  | submit line => shown (b.submit line).2.elapsed (b.submit line).1
  | _ => none

/-- The entry of the last line of a run that had one, and when it came. -/
def lastShown : List BarStep → QuickBar → Option (Entry × Binary64)
  | [], _ => none
  | s :: rest, b => (lastShown rest (s.act b).2).or (s.shownBy b)

/-- What the lines of a run are answered. -/
def lineAnswers : List BarStep → QuickBar → List (Except Failure (Option Entry))
  | [], _ => []
  | submit line :: rest, b => (b.submit line).1 :: lineAnswers rest (b.submit line).2
  | s :: rest, b => lineAnswers rest (s.act b).2

def isPoll : BarStep → Bool
  | poll => true
  | _ => false

/-- A run without its reads. -/
def withoutPolls (steps : List BarStep) : List BarStep := steps.filter (!·.isPoll)

/-- Along a run the clock does not go back. -/
def Advances : List BarStep → QuickBar → Prop
  | [], b => b.elapsed.NotAbove b.elapsed
  | s :: rest, b => b.elapsed.NotAbove (s.act b).2.elapsed ∧ Advances rest (s.act b).2

instance : (steps : List BarStep) → (b : QuickBar) → Decidable (Advances steps b)
  | [], b => inferInstanceAs (Decidable (b.elapsed.NotAbove b.elapsed))
  | s :: rest, b =>
    have := instDecidableAdvances rest (s.act b).2
    inferInstanceAs (Decidable (b.elapsed.NotAbove (s.act b).2.elapsed ∧ Advances rest (s.act b).2))

/-- The entry that was shown last, unless its time is over. -/
def visible (b : QuickBar) : Option (Entry × Binary64) → Option Entry
  | none => none
  | some (entry, since) => if b.lifetime.isOver (b.elapsed.sub since) then none else some entry

/-- The feedback of a bar is what was shown last, or what was shown last is over. -/
structure Tracks (last : Option (Entry × Binary64)) (b : QuickBar) : Prop where
  mute : b.session.IsMute
  since : ∀ entry since, last = some (entry, since) → since.NotAbove b.elapsed
  feedback : b.feedback = last ∨ b.feedback = none ∧
    ∀ entry since, last = some (entry, since) → b.lifetime.isOver (b.elapsed.sub since) = true

variable {b b' : QuickBar} {last : Option (Entry × Binary64)} {steps : List BarStep}

/-- A read gives what was shown last, unless it is over, and drops at most what is over. -/
theorem Tracks.poll (h : Tracks last b) : b.poll.1 = visible b last ∧ Tracks last b.poll.2 := by
  obtain ⟨hmute, hsince, hfeedback⟩ := h
  unfold QuickBar.poll
  cases last with
  | none =>
    have hnone : b.feedback = none := hfeedback.elim id And.left
    rw [hnone]
    exact ⟨rfl, hmute, hsince, .inl hnone⟩
  | some shown =>
    obtain ⟨entry, since⟩ := shown
    rcases hfeedback with hshown | ⟨hnone, hover⟩
    · rw [hshown, visible]
      simp only
      split
      · next hover =>
        refine ⟨rfl, hmute, hsince, .inr ⟨rfl, ?_⟩⟩
        rintro _ _ ⟨⟩
        exact hover
      · exact ⟨rfl, hmute, hsince, .inl hshown⟩
    · rw [hnone, visible, if_pos (hover _ _ rfl)]
      exact ⟨rfl, hmute, hsince, .inr ⟨hnone, hover⟩⟩

/-- What is over when a bar has its feedback no longer is over at every later time. -/
theorem Tracks.later (h : Tracks last b) (hmute : b'.session.IsMute)
    (hclock : b.elapsed.NotAbove b'.elapsed) (hfeedback : b'.feedback = b.feedback)
    (hlifetime : b'.lifetime = b.lifetime) : Tracks last b' where
  mute := hmute
  since entry since hlast := (h.since entry since hlast).trans hclock
  feedback := by
    rw [hfeedback]
    refine h.feedback.imp id fun hover => ⟨hover.1, fun entry since hlast => ?_⟩
    rw [hlifetime]
    exact Delay.isOver_mono (Binary64.isAtMost_sub (h.since entry since hlast) hclock)
      (hover.2 entry since hlast)

/-- What one step does to what was shown last. -/
theorem Tracks.act (h : Tracks last b) (s : BarStep) (hclock : b.elapsed.NotAbove (s.act b).2.elapsed) :
    Tracks ((s.shownBy b).or last) (s.act b).2 := by
  cases s with
  | poll => exact h.poll.2
  | elapse change =>
    exact h.later (Session.muted_inWorld change b.session h.mute) hclock rfl rfl
  | submit line =>
    obtain ⟨hmute, hlifetime, hfeedback⟩ := (QuickBar.twin_submit h.mute (.refl b) line).2.2
    rw [shownBy]
    cases hshown : shown (b.submit line).2.elapsed (b.submit line).1 with
    | none =>
      rw [hshown] at hfeedback
      exact h.later hmute hclock hfeedback hlifetime
    | some entry =>
      rw [hshown] at hfeedback
      obtain ⟨entry, since⟩ := entry
      have hsince : since = (b.submit line).2.elapsed := by
        unfold shown at hshown
        split at hshown <;> cases hshown
        rfl
      refine ⟨hmute, ?_, .inl hfeedback⟩
      rintro _ _ ⟨⟩
      rw [hsince]
      exact hclock.refl_right

/-- What a run does to what was shown last. -/
theorem Tracks.sequence (h : Tracks last b) (hsteps : Advances steps b) :
    Tracks ((lastShown steps b).or last) (sequence steps b) := by
  induction steps generalizing b last with
  | nil => exact h
  | cons s rest ih =>
    rw [lastShown, Option.or_assoc]
    exact ih (h.act s hsteps.1) hsteps.2

/-! ## Runs with other reads -/

theorem Advances.refl (h : Advances steps b) : b.elapsed.NotAbove b.elapsed := by
  cases steps with
  | nil => exact h
  | cons s rest => exact h.1.refl_left

theorem twin_poll (b : QuickBar) : b.Twin b.poll.2 := by
  unfold QuickBar.poll
  split
  · rfl
  · split <;> rfl

/-- What two runs have in common that differ at most in their reads. -/
structure Unread (steps : List BarStep) (b : QuickBar) (steps' : List BarStep) (b' : QuickBar) :
    Prop where
  answers : lineAnswers steps' b' = lineAnswers steps b
  sequence : (BarStep.sequence steps b).Twin (BarStep.sequence steps' b')
  lastShown : BarStep.lastShown steps' b' = BarStep.lastShown steps b
  advances : Advances steps b ↔ Advances steps' b'

/-- The first steps of both runs answer alike. -/
theorem Unread.cons {s : BarStep} (hs : s.isPoll = false) {rest rest' : List BarStep}
    (hbefore : b.Twin b') (hanswer : (s.act b').1 = (s.act b).1)
    (hafter : (s.act b).2.Twin (s.act b').2) (h : Unread rest (s.act b).2 rest' (s.act b').2) :
    Unread (s :: rest) b (s :: rest') b' where
  answers := by
    cases s with
    | poll => cases hs
    | elapse => exact h.answers
    | submit line => exact List.cons_eq_cons.2 ⟨hanswer, h.answers⟩
  sequence := h.sequence
  lastShown := by
    have hshown : s.shownBy b' = s.shownBy b := by
      cases s with
      | poll => rfl
      | elapse => rfl
      | submit line =>
        show shown _ (b'.submit line).1 = shown _ (b.submit line).1
        rw [show (b'.submit line).1 = (b.submit line).1 from hanswer]
        exact congrArg (shown · _) hafter.elapsed
    rw [BarStep.lastShown, BarStep.lastShown, h.lastShown, hshown]
  advances := by
    show _ ∧ _ ↔ _ ∧ _
    rw [hbefore.elapsed, hafter.elapsed, h.advances]

/-- **Reads do not matter**: without them lines are answered the same, and the session ends the same. -/
theorem unread_withoutPolls (hmute : b.session.IsMute) (h : b.Twin b') :
    Unread steps b (withoutPolls steps) b' := by
  induction steps generalizing b b' with
  | nil =>
    have hadvances : Advances [] b ↔ Advances [] b' := by
      show b.elapsed.NotAbove b.elapsed ↔ b'.elapsed.NotAbove b'.elapsed
      rw [h.elapsed]
    exact ⟨rfl, h, rfl, hadvances⟩
  | cons s rest ih =>
    cases s with
    | poll =>
      have hread := twin_poll b
      have hrest := ih (b := b.poll.2) (hread.session ▸ hmute) (hread.symm.trans h)
      have hshown : lastShown (poll :: rest) b = lastShown rest b.poll.2 := Option.or_none
      have hadvances : Advances (poll :: rest) b ↔ Advances rest b.poll.2 := by
        refine and_iff_right_of_imp fun hclock => ?_
        show b.elapsed.NotAbove b.poll.2.elapsed
        rw [← hread.elapsed]
        exact hclock.refl
      exact ⟨hrest.answers, hrest.sequence, hrest.lastShown.trans hshown.symm,
        hadvances.trans hrest.advances⟩
    | submit line =>
      obtain ⟨hanswer, hafter, hanswered⟩ := QuickBar.twin_submit hmute h line
      exact .cons rfl h hanswer hafter (ih hanswered.mute hafter)
    | elapse change =>
      have hafter : ((elapse change).act b).2.Twin ((elapse change).act b').2 := by
        rw [h]
        rfl
      exact .cons rfl h rfl hafter (ih (Session.muted_inWorld change b.session hmute) hafter)

/-! ## What reads give -/

/-- What reads give after a run, and that they do not matter. -/
structure Fed (steps : List BarStep) (b : QuickBar) : Prop where
  /-- Where no line had an entry, a read gives none. -/
  unshown : lastShown steps b = none → (sequence steps b).poll.1 = none
  /-- A read gives the entry of the last line that had one, unless the lifetime is over. -/
  read : ∀ entry since, lastShown steps b = some (entry, since) →
    (sequence steps b).poll.1 =
      if b.lifetime.isOver ((sequence steps b).elapsed.sub since) then none else some entry
  /-- If the lifetime is a number, a read gives that entry exactly while the lifetime is greater than the
  seconds that have passed. -/
  lasting : ∀ entry since, lastShown steps b = some (entry, since) → b.lifetime ≠ .real .nan →
    ((sequence steps b).poll.1 = some entry ↔
        b.lifetime.Exceeds ((sequence steps b).elapsed.sub since)) ∧
      ((sequence steps b).poll.1 = none ↔
        ¬ b.lifetime.Exceeds ((sequence steps b).elapsed.sub since))
  /-- If it is no number, the entry stays. -/
  endless : ∀ entry since, lastShown steps b = some (entry, since) → b.lifetime = .real .nan →
    (sequence steps b).poll.1 = some entry
  /-- A run of the same lines with other reads has the same answers, ends with the same session, and a
  read after it gives the same. -/
  unread : ∀ steps', withoutPolls steps' = withoutPolls steps →
    lineAnswers steps' b = lineAnswers steps b ∧
      (sequence steps' b).session = (sequence steps b).session ∧
      (sequence steps' b).poll.1 = (sequence steps b).poll.1
  /-- A blank line changes nothing. -/
  blank : ∀ line, Line.parse line = none →
    (sequence steps b).submit line = (.ok none, sequence steps b)
  /-- A line without an entry leaves the feedback as it is. -/
  spared : ∀ line, (∀ entry, ((sequence steps b).submit line).1 ≠ .ok (some entry)) →
    ((sequence steps b).submit line).2.feedback = (sequence steps b).feedback
  /-- A deletion that the user declines has no entry. -/
  declined : ∀ line l kind d, Line.parse line = some l → l.Deletes kind →
    Session.deletionOf l kind (sequence steps b).session = (.ok d, (sequence steps b).session) →
    (sequence steps b).consent.verdict = .no → (sequence steps b).ShowsTimeThen →
    (sequence steps b).session.deferred = [] →
    ((sequence steps b).submit line).1 = .ok none

/-- A line leaves the lifetime as it is, and so does every other step. -/
theorem lifetime_sequence (hmute : b.session.IsMute) (steps : List BarStep) :
    (sequence steps b).lifetime = b.lifetime ∧ (sequence steps b).session.IsMute := by
  induction steps generalizing b with
  | nil => exact ⟨rfl, hmute⟩
  | cons s rest ih =>
    have hstep : (s.act b).2.lifetime = b.lifetime ∧ (s.act b).2.session.IsMute := by
      cases s with
      | poll => exact ⟨(twin_poll b).lifetime, (twin_poll b).session ▸ hmute⟩
      | elapse change => exact ⟨rfl, Session.muted_inWorld change b.session hmute⟩
      | submit line =>
        have hanswered := (QuickBar.twin_submit hmute (.refl b) line).2.2
        exact ⟨hanswered.lifetime, hanswered.mute⟩
    obtain ⟨hlifetime, hend⟩ := ih hstep.2
    exact ⟨hlifetime.trans hstep.1, hend⟩

/-- What a read gives after a run. -/
theorem poll_sequence (hmute : b.session.IsMute) (hnone : b.feedback = none)
    (hclock : Advances steps b) :
    (sequence steps b).poll.1 = visible (sequence steps b) (lastShown steps b) := by
  have hstart : Tracks none b := ⟨hmute, nofun, .inl hnone⟩
  have hend := (hstart.sequence hclock).poll.1
  rwa [Option.or_none] at hend

/-- **Feedback expires on time, and reading it is harmless**, where the clock does not go back and parts
outside submit no lines. -/
theorem fed_sequence (hmute : b.session.IsMute) (hnone : b.feedback = none)
    (hclock : Advances steps b) : Fed steps b := by
  obtain ⟨hlifetime, hend⟩ := lifetime_sequence hmute steps
  have hpoll := poll_sequence hmute hnone hclock
  have hread : ∀ entry since, lastShown steps b = some (entry, since) →
      (sequence steps b).poll.1 =
        if b.lifetime.isOver ((sequence steps b).elapsed.sub since) then none else some entry := by
    intro entry since hlast
    rw [hpoll, hlast, visible, hlifetime]
  refine ⟨fun hlast => by rw [hpoll, hlast]; rfl, hread, ?_, ?_, ?_, ?_, ?_, ?_⟩
  · intro entry since hlast hnumber
    have hstart : Tracks none b := ⟨hmute, nofun, .inl hnone⟩
    have hsince := (hstart.sequence hclock).since entry since (by rw [hlast]; rfl)
    have hpassed : (sequence steps b).elapsed.sub since ≠ .nan :=
      (Binary64.isAtMost_iff.1 (Binary64.isAtMost_sub hsince hsince.refl_right)).1
    rw [hread entry since hlast, Delay.exceeds_iff hpassed hnumber]
    cases b.lifetime.isOver ((sequence steps b).elapsed.sub since) <;> simp
  · intro entry since hlast hnan
    rw [hread entry since hlast, hnan]
    rfl
  · intro steps' hsame
    have hfirst : Unread steps b (withoutPolls steps) b := unread_withoutPolls hmute (.refl b)
    have hsecond : Unread steps' b (withoutPolls steps') b := unread_withoutPolls hmute (.refl b)
    rw [hsame] at hsecond
    have htwin : (sequence steps b).Twin (sequence steps' b) :=
      hfirst.sequence.trans hsecond.sequence.symm
    refine ⟨hsecond.answers.symm.trans hfirst.answers, htwin.session, ?_⟩
    rw [hpoll, poll_sequence hmute hnone (hsecond.advances.2 (hfirst.advances.1 hclock)),
      ← hsecond.lastShown, hfirst.lastShown]
    cases lastShown steps b with
    | none => rfl
    | some shown => rw [visible, visible, htwin.lifetime, htwin.elapsed]
  · exact fun line hblank => QuickBar.submit_of_blank hblank _
  · intro line hnot
    rw [(QuickBar.twin_submit hend (.refl _) line).2.2.feedback]
    cases hanswer : ((sequence steps b).submit line).1 with
    | error failure => rfl
    | ok answer =>
      cases answer with
      | none => rfl
      | some entry => exact absurd hanswer (hnot entry)
  · exact fun line l kind d hl hd hfound hno htime hdeferred =>
      (QuickBar.submit_of_declined hl hd hfound hno htime hdeferred).1

/-- A bar over a store with one vault, and a user who takes two seconds to say yes. -/
def sampleBar : QuickBar :=
  QuickBar.start
    (.bare ⟨World.fresh 0 [],
      .inMemory ⟨[⟨"v", "Home", "", Store.sampleMoment, Store.sampleMoment⟩], []⟩⟩)
    QuickBar.usualLifetime [{ verdict := .yes, lasts := Delay.ofMilliseconds 2000 }]

/-- A line, of which the feedback is read after two seconds and after another two, with a blank line
between. -/
def sampleSteps (line : Text) : List BarStep :=
  [.submit line, .elapse (World.pass (Delay.ofMilliseconds 2000)), .poll, .submit " ",
    .elapse (World.pass (Delay.ofMilliseconds 2000)), .poll]

/-- The three seconds count from the end of the line, not from where the user was asked. -/
theorem fed_sampleBar :
    Fed (sampleSteps "vault delete --name Home") sampleBar ∧
      (sequence ((sampleSteps "vault delete --name Home").take 2) sampleBar).poll.1 =
        some (.success "Vault \"Home\" deleted successfully.") ∧
      (sequence (sampleSteps "vault delete --name Home") sampleBar).poll.1 = none := by
  have hmute : sampleBar.session.IsMute := ⟨nofun, nofun, nofun, nofun⟩
  have hclock : Advances (sampleSteps "vault delete --name Home") sampleBar := by decide +kernel
  exact ⟨fed_sequence hmute rfl hclock, by decide +kernel, by decide +kernel⟩

/-- A bar with a lifetime that is no number. -/
def sampleEndless : QuickBar :=
  QuickBar.start (.bare ⟨World.fresh 0 [], .inMemory ⟨[], []⟩⟩) (.real .nan) []

/-- On it the feedback stays, although the lifetime is not greater than the seconds that have passed. -/
theorem poll_sampleEndless :
    sampleEndless.session.IsMute ∧ sampleEndless.feedback = none ∧
      Advances (sampleSteps "help") sampleEndless ∧
      lastShown (sampleSteps "help") sampleEndless = some (.info QuickBar.help, Binary64.zero false) ∧
      ¬ sampleEndless.lifetime.Exceeds
        ((sequence (sampleSteps "help") sampleEndless).elapsed.sub (Binary64.zero false)) ∧
      (sequence (sampleSteps "help") sampleEndless).poll.1 = some (.info QuickBar.help) := by
  refine ⟨⟨nofun, nofun, nofun, nofun⟩, rfl, by decide +kernel, by decide +kernel, ?_,
    by decide +kernel⟩
  rintro ⟨hless, -⟩
  revert hless
  decide +kernel

end BarStep

end VaultConsole
