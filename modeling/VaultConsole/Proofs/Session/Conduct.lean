import VaultConsole.Proofs.Session.Steady

/-!
# The conduct of parts outside

Parts outside, and the store, may be known to keep to a conduct: whether they submit lines, and how they
fail. This stays so whatever is done with the session, and what is done there fails in no other way.

* `Conduct`: whether lines are submitted, how parts fail, and what is known of identifiers and the clock.
* `Conduct.docile`: no lines are submitted, and nothing is interrupted.
* `Conduct.worded`: everything that events are to say can be said.
* `Conduct.beside`: a conduct beside a given clock.
* `Session.Obeys`: all parts of a session keep to a conduct.
* `Session.Tames`: acts that leave it so.
* `Session.tames_touch`, `Session.tames_copy`, `Session.tames_takeHandling`: calls of parts outside.
-/

namespace VaultConsole

/-- What parts outside, and the store, may do. -/
structure Conduct where
  /-- Whether lines may be submitted. -/
  submits : Prop
  /-- How a part may fail. -/
  fails : Failure → Prop
  /-- Whether there may be identifiers of which events cannot say anything. -/
  obscures : Prop
  /-- What the clock may be. -/
  clocks : Clock → Prop
  /-- The program's own failures are always among these. -/
  ordinary : ∀ f, f.IsOrdinary → fails f

namespace Conduct

/-- No lines are submitted, and nothing is interrupted. -/
def docile : Conduct where
  submits := False
  fails f := f.isInterruption = false
  obscures := True
  clocks _ := True
  ordinary _ h := h.goes

/-- Every failure has words, events can say something of every identifier, and the clock shows a time. -/
def worded : Conduct where
  submits := True
  fails := Failure.HasWords
  obscures := False
  clocks clock := ∃ moment, clock.localNow = .ok moment
  ordinary _ h := h.words

/-- A conduct beside a clock that is known. -/
def beside (clock : Clock) (c : Conduct) : Conduct := { c with clocks := (· = clock) }

/-- An outcome is no failure but one that may happen. -/
def Allows (c : Conduct) {α : Type} (result : Except Failure α) : Prop :=
  ∀ f, result = .error f → c.fails f

/-- What parts and the store do can be put into words: every failure has some, events can say something of
every identifier, and the clock shows a time. -/
structure IsWorded (c : Conduct) : Prop where
  fails : ∀ f, c.fails f → f.HasWords
  obscures : ¬ c.obscures
  clocks : ∀ clock, c.clocks clock → ∃ moment, clock.localNow = .ok moment

theorem isWorded_worded : worded.IsWorded := ⟨fun _ h => h, id, fun _ h => h⟩

/-- No lines are submitted, and whatever fails is no interruption. -/
structure IsDocile (c : Conduct) : Prop where
  submits : ¬ c.submits
  fails : ∀ f, c.fails f → f.isInterruption = false

variable {c : Conduct} {α : Type}

theorem allows_ok (a : α) : c.Allows (.ok a) := fun _ h => by cases h

theorem allows_error {f : Failure} (h : c.fails f) : c.Allows (.error f : Except Failure α) := by
  rintro _ ⟨⟩
  exact h

end Conduct

variable {c : Conduct}

/-- A call that keeps to a conduct. -/
structure Reaction.Obeys (c : Conduct) (r : Reaction) : Prop where
  resubmits : r.resubmits ≠ [] → c.submits
  failure : ∀ f, r.failure = some f → c.fails f

/-- A part all of whose calls keep to a conduct. -/
structure Behaviour.Obeys (c : Conduct) (b : Behaviour) : Prop where
  upcoming : ∀ r ∈ b.upcoming, r.Obeys c
  afterwards : ∀ f, b.afterwards = some f → c.fails f

/-- A handling of an effect that keeps to a conduct. -/
structure Handling.Obeys (c : Conduct) (h : Handling) : Prop where
  moves : ∀ line, .submit line ∈ h.moves → c.submits
  failure : ∀ f, h.failure = some f → c.fails f

/-- A scheduler all of whose calls keep to a conduct. -/
structure Scheduler.Obeys (c : Conduct) (s : Scheduler) : Prop where
  upcoming : ∀ h ∈ s.upcoming, h.Obeys c
  afterwards : s.afterwards.handling.Obeys c

section
variable {c' : Conduct} (hsubmits : c.submits → c'.submits) (hfails : ∀ f, c.fails f → c'.fails f)
include hsubmits hfails

theorem Reaction.Obeys.mono {r : Reaction} (h : r.Obeys c) : r.Obeys c' :=
  ⟨fun hne => hsubmits (h.resubmits hne), fun f hf => hfails f (h.failure f hf)⟩

theorem Behaviour.Obeys.mono {b : Behaviour} (h : b.Obeys c) : b.Obeys c' :=
  ⟨fun r hr => (h.upcoming r hr).mono hsubmits hfails, fun f hf => hfails f (h.afterwards f hf)⟩

theorem Handling.Obeys.mono {h : Handling} (hh : h.Obeys c) : h.Obeys c' :=
  ⟨fun line hline => hsubmits (hh.moves line hline), fun f hf => hfails f (hh.failure f hf)⟩

theorem Scheduler.Obeys.mono {s : Scheduler} (h : s.Obeys c) : s.Obeys c' :=
  ⟨fun handling hh => (h.upcoming handling hh).mono hsubmits hfails,
    h.afterwards.mono hsubmits hfails⟩

end

theorem Reaction.obeys_quiet : Reaction.quiet.Obeys c := ⟨fun h => absurd rfl h, fun _ h => by cases h⟩

theorem Behaviour.Obeys.next {b : Behaviour} (h : b.Obeys c) : b.next.1.Obeys c ∧ b.next.2.Obeys c := by
  unfold Behaviour.next
  split
  · exact ⟨⟨fun hne => absurd rfl hne, h.afterwards⟩, h⟩
  · next reaction rest hupcoming =>
    have hall := h.upcoming
    rw [hupcoming] at hall
    exact ⟨hall reaction List.mem_cons_self,
      ⟨fun r hr => hall r (List.mem_cons_of_mem reaction hr), h.afterwards⟩⟩

theorem Scheduler.Obeys.next {s : Scheduler} (h : s.Obeys c) : s.next.1.Obeys c ∧ s.next.2.Obeys c := by
  unfold Scheduler.next
  split
  · exact ⟨h.afterwards, h⟩
  · next handling rest hupcoming =>
    have hall := h.upcoming
    rw [hupcoming] at hall
    exact ⟨hall handling List.mem_cons_self,
      ⟨fun r hr => hall r (List.mem_cons_of_mem handling hr), h.afterwards⟩⟩

namespace Session

/-- All parts outside, the store and the clock keep to a conduct. -/
structure Obeys (c : Conduct) (s : Session) : Prop where
  navigator : ∀ b, s.navigator = some (.outside b) → b.Obeys c
  exit : ∀ b, s.exit = some (.outside b) → b.Obeys c
  clipboard : ∀ b, s.clipboard = some b → b.Obeys c
  scheduler : s.scheduler.Obeys c
  store : ∀ f, s.depot.store.Raises f → c.fails f
  labels : ∀ id f, s.depot.store.labelOf id = .error f → c.obscures
  clock : c.clocks s.depot.world.clock

variable {α β : Type} {s : Session}

/-- The clock of a session is what it is. -/
theorem Obeys.beside (h : s.Obeys c) : s.Obeys (c.beside s.depot.world.clock) := by
  have hsubmits : c.submits → (c.beside s.depot.world.clock).submits := id
  have hfails : ∀ f, c.fails f → (c.beside s.depot.world.clock).fails f := fun _ => id
  exact ⟨fun b hb => (h.navigator b hb).mono hsubmits hfails,
    fun b hb => (h.exit b hb).mono hsubmits hfails,
    fun b hb => (h.clipboard b hb).mono hsubmits hfails,
    h.scheduler.mono hsubmits hfails, h.store, h.labels, rfl⟩

/-- Parts that keep to a docile conduct, whatever else that says. -/
theorem Obeys.docile (h : s.Obeys c) (hc : c.IsDocile) : s.Obeys .docile := by
  have hsubmits : c.submits → Conduct.docile.submits := hc.submits
  exact ⟨fun b hb => (h.navigator b hb).mono hsubmits hc.fails,
    fun b hb => (h.exit b hb).mono hsubmits hc.fails,
    fun b hb => (h.clipboard b hb).mono hsubmits hc.fails,
    h.scheduler.mono hsubmits hc.fails, fun f hf => hc.fails f (h.store f hf), fun _ _ _ => trivial,
    trivial⟩

/-- A session in another depot of which the clock and what is out of order are the same. -/
theorem Obeys.withDepot (h : s.Obeys c) {depot : Depot} (hdepot : s.depot.Steady depot) :
    { s with depot }.Obeys c :=
  ⟨h.navigator, h.exit, h.clipboard, h.scheduler, fun f hf => h.store f (hdepot.raises.1 hf),
    fun id f hf => h.labels id f (hdepot.labelOf id ▸ hf), hdepot.clock ▸ h.clock⟩

/-- Where everything can be put into words the clock shows a time. -/
theorem Obeys.showsTime (h : s.Obeys c) (hc : c.IsWorded) : s.depot.world.ShowsTime := by
  obtain ⟨moment, hmoment⟩ := hc.clocks _ h.clock
  exact ⟨moment, congrArg (Except.mapError Failure.noTime) hmoment⟩

theorem Obeys.of_steady {s' : Session} (h : s.Obeys c) (hsteady : s.Steady s') : s'.Obeys c := by
  have hdepot := h.withDepot hsteady.depot
  rw [hsteady.rest]
  exact ⟨hdepot.navigator, hdepot.exit, hdepot.clipboard, hdepot.scheduler, hdepot.store, hdepot.labels,
    hdepot.clock⟩

/-- An act that leaves a session to its conduct, fails as is allowed there, and yields what it should. -/
def Tames (c : Conduct) (P : α → Prop) (act : Act Failure Session α) : Prop :=
  ∀ s, s.Obeys c → (act s).2.Obeys c ∧ c.Allows (act s).1 ∧ ∀ a, (act s).1 = .ok a → P a

/-- How an act can fail that blames the store alone. -/
theorem Obeys.allows (h : s.Obeys c) {act : Act Failure Session α}
    (hact : act.SoundAt Steady Blames s) : c.Allows (act s).1 :=
  fun f hf => (hact.fails f hf).elim (c.ordinary f) (h.store f)

theorem tames_of_sound {act : Act Failure Session α} (h : act.Sound Steady Blames) :
    Tames c (fun _ => True) act := fun s hs =>
  ⟨hs.of_steady (h s).keeps, hs.allows (h s), fun _ _ => trivial⟩

theorem tames_change {f : Session → Session} (h : ∀ s, s.Obeys c → (f s).Obeys c) :
    Tames c (fun _ => True) (Act.change f) := fun s hs => ⟨h s hs, c.allows_ok _, fun _ _ => trivial⟩

theorem Tames.bind {P : α → Prop} {Q : β → Prop} {act : Act Failure Session α}
    {next : α → Act Failure Session β} (h : Tames c P act) (hnext : ∀ a, P a → Tames c Q (next a)) :
    Tames c Q (act >>= next) := by
  intro s hs
  obtain ⟨hobeys, hallows, hP⟩ := h s hs
  rw [Act.run_bind]
  rcases hact : act s with ⟨failure | a, s'⟩ <;> rw [hact] at hobeys hallows hP
  · exact ⟨hobeys, c.allows_error (hallows failure rfl), fun _ h => by cases h⟩
  · exact hnext a (hP a rfl) s' hobeys

theorem tames_pure {P : α → Prop} {a : α} (h : P a) : Tames c P (pure a) :=
  fun _ hs => ⟨hs, c.allows_ok a, fun _ ha => by cases ha; exact h⟩

theorem tames_note (call : Call) : Tames c (fun _ => True) (inWorld (·.note call)) :=
  tames_change fun _ hs => hs.withDepot ⟨rfl, rfl⟩

theorem tames_print (line : Text) : Tames c (fun _ => True) (inWorld (·.print line)) :=
  tames_change fun _ hs => hs.withDepot ⟨rfl, rfl⟩

theorem tames_showOnScreen (leavesAtOverview : Bool) (page : Page) :
    Tames c (fun _ => True) (showOnScreen leavesAtOverview page) := by
  refine (tames_of_sound (sound_pageSummary page)).bind fun summary _ => ?_
  refine (tames_print summary).bind fun _ _ => ?_
  split
  · exact tames_change fun s hs =>
      ⟨hs.navigator, hs.exit, hs.clipboard, hs.scheduler, hs.store, hs.labels, hs.clock⟩
  · exact tames_pure trivial

/-- A call of a part outside. -/
theorem tames_call {b : Behaviour} (hb : b.Obeys c) (call : Call)
    (put : Behaviour → Session → Session) (hput : ∀ s, s.Obeys c → (put b.next.2 s).Obeys c) :
    Tames c (Reaction.Obeys c) (do
      inWorld (·.note call)
      let (reaction, rest) := b.next
      Act.change (put rest)
      return reaction) :=
  (tames_note call).bind fun _ _ => (tames_change hput).bind fun _ _ => tames_pure hb.next.1

theorem tames_showPage (page : Page) : Tames c (Reaction.Obeys c) (showPage page) := by
  intro s hs
  unfold showPage
  rw [Act.run_bind, Act.run_look, Act.after_ok]
  cases hnavigator : s.navigator with
  | none => exact tames_pure Reaction.obeys_quiet s hs
  | some navigator =>
    cases navigator with
    | outside b =>
      have hb := hs.navigator b hnavigator
      refine tames_call hb (.navigate page)
        (fun rest s => { s with navigator := some (.outside rest) }) (fun s hs => ?_) s hs
      refine ⟨fun b' h => ?_, hs.exit, hs.clipboard, hs.scheduler, hs.store, hs.labels, hs.clock⟩
      cases h
      exact hb.next.2
    | screen leavesAtOverview =>
      exact (tames_showOnScreen leavesAtOverview page).bind
        (fun _ _ => tames_pure Reaction.obeys_quiet) s hs

theorem tames_leave : Tames c (Reaction.Obeys c) leave := by
  intro s hs
  unfold leave
  rw [Act.run_bind, Act.run_look, Act.after_ok]
  cases hexit : s.exit with
  | none => exact tames_pure Reaction.obeys_quiet s hs
  | some exit =>
    cases exit with
    | outside b =>
      have hb := hs.exit b hexit
      refine tames_call hb .exit
        (fun rest s => { s with exit := some (.outside rest) }) (fun s hs => ?_) s hs
      refine ⟨hs.navigator, fun b' h => ?_, hs.clipboard, hs.scheduler, hs.store, hs.labels, hs.clock⟩
      cases h
      exact hb.next.2
    | loop =>
      refine (tames_change fun s hs => ?_).bind
        (fun _ _ => tames_pure Reaction.obeys_quiet) s hs
      exact ⟨hs.navigator, hs.exit, hs.clipboard, hs.scheduler, hs.store, hs.labels, hs.clock⟩

theorem tames_copy (text : Text) : Tames c (Reaction.Obeys c) (copy text) := by
  intro s hs
  unfold copy
  rw [Act.run_bind, Act.run_look, Act.after_ok]
  cases hclipboard : s.clipboard with
  | none => exact tames_pure Reaction.obeys_quiet s hs
  | some b =>
    have hb := hs.clipboard b hclipboard
    refine tames_call hb (.copy text)
      (fun rest s => { s with clipboard := some rest }) (fun s hs => ?_) s hs
    refine ⟨hs.navigator, hs.exit, fun b' h => ?_, hs.scheduler, hs.store, hs.labels, hs.clock⟩
    cases h
    exact hb.next.2

theorem tames_touch (effect : Effect) : Tames c (Reaction.Obeys c) (touch effect) := by
  cases effect with
  | navigate page => exact tames_showPage page
  | exit => exact tames_leave

theorem tames_takeHandling : Tames c (Handling.Obeys c) takeHandling := by
  intro s hs
  have hnext := hs.scheduler.next
  refine ⟨?_, c.allows_ok _, fun handling h => ?_⟩
  · exact ⟨hs.navigator, hs.exit, hs.clipboard, hnext.2, hs.store, hs.labels, hs.clock⟩
  · cases h
    exact hnext.1

theorem tames_enqueue (effect : Effect) : Tames c (fun _ => True) (enqueue effect) := by
  intro s hs
  have hnoted := (tames_note (.schedule s.actionDelay) s hs).1
  refine ⟨?_, c.allows_ok _, fun _ _ => trivial⟩
  exact ⟨hs.navigator, hs.exit, hs.clipboard, hs.scheduler, hnoted.store, hnoted.labels,
    hnoted.clock⟩

theorem tames_takeDeferred : Tames c (fun _ => True) takeDeferred := fun _ hs =>
  ⟨⟨hs.navigator, hs.exit, hs.clipboard, hs.scheduler, hs.store, hs.labels, hs.clock⟩, c.allows_ok _,
    fun _ _ => trivial⟩

theorem tames_hold (account : Account) : Tames c (fun _ => True) (hold account) :=
  tames_change fun _ hs => hs.withDepot ⟨rfl, rfl⟩

theorem tames_release (account : Account) : Tames c (fun _ => True) (release account) := fun _ hs =>
  ⟨hs.withDepot ⟨rfl, rfl⟩, c.allows_ok _, fun _ _ => trivial⟩

/-- Only one command empties the result log. -/
theorem reply_execute (l : Line) (s : Session) {reply : Reply} (h : (execute l s).1 = .ok reply) :
    reply = .cleared ↔ Verb.ofToken? l.verb = some .clear := by
  have hanswering : ∀ (act : Act Failure Session Entry) s, (answering act s).1 ≠ .ok .cleared := by
    intro act s
    rw [answering, Act.run_bind]
    rcases act s with ⟨_ | _, s'⟩ <;> simp
  cases hv : Verb.ofToken? l.verb with
  | none =>
    unfold execute verbOf at h
    rw [hv] at h
    cases h
  | some verb =>
    rw [execute_of_verb hv] at h
    have hother : verb ≠ .clear → reply ≠ .cleared := by
      rintro hverb rfl
      cases verb with
      | clear => exact hverb rfl
      | help => exact hanswering _ _ h
      | exit => exact hanswering _ _ h
      | openPage => exact hanswering _ _ h
      | search => exact hanswering _ _ h
      | stats => exact hanswering _ _ h
      | vault =>
        rw [executeVerb, Act.run_bind, Act.run_settle] at h
        cases ha : VaultAction.select VaultAction.all l.subVerb with
        | error failure =>
          rw [ha] at h
          cases h
        | ok action =>
          rw [ha] at h
          exact hanswering _ _ h
      | account =>
        rw [executeVerb, Act.run_bind, Act.run_settle] at h
        cases ha : AccountAction.select AccountAction.all l.subVerb with
        | error failure =>
          rw [ha] at h
          cases h
        | ok action =>
          rw [ha, Act.after_ok] at h
          cases action with
          | password =>
            rw [executeAccount, Act.run_bind] at h
            rcases hsecret : secretAccountOf l s with ⟨_ | _, s'⟩ <;> rw [hsecret] at h <;> cases h
          | _ => exact hanswering _ _ h
    constructor
    · rintro rfl
      by_contra hverb
      exact hother (fun he => hverb (by rw [he])) rfl
    · intro he
      cases he
      cases h
      rfl

/-- A command leaves a session to its conduct. -/
theorem tames_execute (l : Line) :
    Tames c (fun reply => reply = .cleared ↔ Verb.ofToken? l.verb = some .clear) (execute l) := by
  intro s hs
  refine ⟨?_, ?_, fun reply => reply_execute l s⟩
  · rcases execute_cases l s with ⟨effect, entry, hrun⟩ | hsound
    · rw [hrun]
      exact ⟨hs.navigator, hs.exit, hs.clipboard, hs.scheduler, hs.store, hs.labels, hs.clock⟩
    · exact hs.of_steady hsound.keeps
  · rcases execute_cases l s with ⟨effect, entry, hrun⟩ | hsound
    · rw [hrun]
      exact c.allows_ok _
    · exact hs.allows hsound

end Session

end VaultConsole
