import VaultConsole.Proofs.Interpreter.Answers
import VaultConsole.Proofs.QuickBar.Answers

/-!
# The bar and the interpreter agree

The bar and the interpreter are written apart: the one asks before it deletes and waits for a yes or a
no, the other puts the deletion behind a gate and takes the next line for an answer. Still, on equal
stores and under one clock a line that makes or deletes a record comes to the same on both.

* `QuickBar.Beside`: a bar and an interpreter with equal stores, under one clock.
* `QuickBar.Agreement`: both answer with the same entry, leave the same store, and ask in the same
  cases.
* `QuickBar.agrees_of_mutates`: **they agree on every line that makes or deletes a record.**
-/

namespace VaultConsole

open Failure (Ordinarily)

/-- Worlds of one clock that gave out as many identifiers; in the first one certain calls were made. -/
structure World.Beside (calls : List Call) (w w' : World) : Prop where
  clock : w'.clock = w.clock
  issued : w'.issued = w.issued
  calls : w.calls = calls

instance {calls : List Call} : World.Parallel (World.Beside calls) where
  clock h := h.clock
  issued h := h.issued
  issue h := ⟨h.clock, congrArg (· + 1) h.issued, h.calls⟩

namespace QuickBar

/-- A bar and an interpreter with equal stores in memory, under one clock that shows a time, also when the
user has answered a question. No deletion waits, and no effect of an earlier line does. -/
structure Beside (b : QuickBar) (i : Interpreter) : Prop where
  store : i.session.depot.store = b.session.depot.store
  plain : b.session.depot.store.IsPlain
  clock : i.session.depot.world.clock = b.session.depot.world.clock
  issued : i.session.depot.world.issued = b.session.depot.world.issued
  deferred : b.session.deferred = []
  rest : i.AtRest
  later : b.ShowsTimeThen
  idle : i.session.gate = some .idle

/-- What a bar and an interpreter come to on one line. -/
structure Agreement (line : Text) (b : QuickBar) (i : Interpreter) : Prop where
  /-- Where the user says yes, the entry of the bar is the last one of the interpreter, and the stores
  are equal. -/
  yes : b.consent.verdict = .yes →
    (∃ entry, (b.submit line).1 = .ok (some entry) ∧
      (i.answered line "yes").log.last? = some entry) ∧
    (b.submit line).2.session.depot.store = (i.answered line "yes").session.depot.store
  /-- Where the user says no, the stores are equal. -/
  no : b.consent.verdict = .no →
    (b.submit line).2.session.depot.store = (i.answered line "cancel").session.depot.store
  /-- The bar calls for a consent, once, exactly if the interpreter answers with a question. -/
  asks : (∀ failure, b.consent.verdict ≠ .fails failure) →
    if (Interpreter.submit line i).2.prompts then
      ∃ question, (b.submit line).2.calls = b.calls ++ [.confirm question]
    else (b.submit line).2.calls = b.calls

variable {b : QuickBar} {i : Interpreter} {line : Text} {l : Line} {kind : Deletable} {d : Deletion}

theorem Beside.time (h : b.Beside i) : b.session.depot.world.ShowsTime :=
  h.rest.time.of_clock h.clock.symm

theorem Beside.alike (h : b.Beside i) :
    Session.DepotsAlike Eq (World.Beside b.calls) b.session i.session := by
  refine ⟨⟨h.clock, h.issued, rfl⟩, ?_⟩
  rw [h.store]
  exact Store.alike_refl h.plain

/-- A line that the interpreter answers without a question: it does not matter what the answer to one
would be. -/
theorem agrees_of_answered {entry : Entry} (hanswer : (b.submit line).1 = .ok (some entry))
    (hlast : (Interpreter.submit line i).2.log.last? = some entry)
    (hprompts : (Interpreter.submit line i).2.prompts = false)
    (hstore : (b.submit line).2.session.depot.store =
      (Interpreter.submit line i).2.session.depot.store)
    (hcalls : (b.submit line).2.calls = b.calls) : Agreement line b i := by
  have hanswered : ∀ word, i.answered line word = (Interpreter.submit line i).2 := by
    intro word
    rw [Interpreter.answered, hprompts]
    rfl
  refine ⟨fun _ => ⟨⟨entry, hanswer, ?_⟩, ?_⟩, fun _ => ?_, fun _ => ?_⟩
  · rw [hanswered]
    exact hlast
  · rw [hanswered]
    exact hstore
  · rw [hanswered]
    exact hstore
  · rw [hprompts]
    exact hcalls

/-- A line that is to make a record. -/
theorem agrees_of_creates (h : b.Beside i) (hl : Line.parse line = some l) (hc : l.Creates kind) :
    Agreement line b i := by
  obtain ⟨houtcome, hafter⟩ :=
    Session.twins_creationOf (R := Session.DepotsAlike Eq (World.Beside b.calls))
      (Line.alike_refl l) kind _ _ h.alike
  obtain ⟨hlast, hprompts, hstore⟩ :=
    Interpreter.submit_creates hl hc h.rest h.idle (h.store ▸ h.plain)
  obtain ⟨hanswer, hstore', hcalls⟩ :=
    submit_creates hl hc h.plain.isOrdinary h.time h.deferred
  refine agrees_of_answered (hanswer.trans ?_) hlast hprompts ?_ (hcalls.trans hafter.world.calls)
  · rw [← houtcome.eq]
    cases (Session.creationOf l kind b.session).1 <;> rfl
  · rw [hstore', hstore]
    exact hafter.store.eq.symm

/-- A line that is to delete a record, where there is such a record and the user says yes. -/
theorem submit_of_yes (h : b.Beside i) (hl : Line.parse line = some l) (hd : l.Deletes kind)
    (hfound : Session.deletionOf l kind b.session = (.ok d, b.session))
    (hyes : b.consent.verdict = .yes) :
    let executed := Session.executeDeletion d (b.asked (question d)).session
    (b.submit line).1 = .ok (some (.told executed.1)) ∧
      (b.submit line).2.session.depot.store = executed.2.depot.store ∧
      (b.submit line).2.calls = executed.2.depot.world.calls := by
  have hsound := Session.sound_executeDeletion d (b.asked (question d)).session
  have hexecute : ∀ answer, (execute l).run answer b =
      ((Session.executeDeletion d (b.asked (question d)).session).1.map some,
        { b.asked (question d) with
          session := (Session.executeDeletion d (b.asked (question d)).session).2 }) := by
    intro answer
    rw [execute_of_deletes hd, Act.run_bind, inSession, Act.run_within, hfound, Act.after_ok]
    show deleteNow d b = _
    rw [deleteNow_of_yes hyes, Act.run_map, inSession, Act.run_within]
    cases (Session.executeDeletion d (b.asked (question d)).session).1 <;> rfl
  have hordinary : Ordinarily
      ((Session.executeDeletion d (b.asked (question d)).session).1.map some) :=
    (Session.ordinarily_of_sound hsound h.plain.isOrdinary).map
  obtain ⟨hanswer, hstore, hcalls⟩ := submit_run hl hexecute hordinary
    ((showsTime_asked h.later _).of_clock hsound.keeps.depot.clock)
    (show _ = [] by rw [hsound.keeps.rest]; exact h.deferred)
  refine ⟨hanswer.trans ?_, hstore, hcalls⟩
  cases (Session.executeDeletion d (b.asked (question d)).session).1 <;> rfl

/-- A line that is to delete a record, where there is such a record and the user says no. -/
theorem submit_of_no (h : b.Beside i) (hl : Line.parse line = some l) (hd : l.Deletes kind)
    (hfound : Session.deletionOf l kind b.session = (.ok d, b.session))
    (hno : b.consent.verdict = .no) :
    (b.submit line).2.session.depot.store = b.session.depot.store ∧
      (b.submit line).2.calls = b.calls ++ [.confirm (question d)] :=
  (submit_of_declined hl hd hfound hno h.later h.deferred).2

/-- A line that is to delete a record. -/
theorem agrees_of_deletes (h : b.Beside i) (hl : Line.parse line = some l) (hd : l.Deletes kind) :
    Agreement line b i := by
  have hplain : i.session.depot.store.IsPlain := h.store ▸ h.plain
  have hsame : (Session.deletionOf l kind b.session).2 = b.session :=
    (Session.keeps_deletionOf (R := fun s s' => s' = s) l kind) b.session
  obtain ⟨houtcome, -⟩ :=
    Session.twins_deletionOf (R := Session.DepotsAlike Eq (World.Beside b.calls))
      (Line.alike_refl l) kind _ _ h.alike
  obtain ⟨hstore, hsubmit⟩ := Interpreter.submit_deletes hl hd h.rest h.idle hplain
  have hplain' : (Interpreter.submit line i).2.session.depot.store.IsPlain := by rwa [hstore]
  rw [← houtcome.eq] at hsubmit
  have hrest : (Interpreter.submit line i).2.AtRest := Interpreter.atRest_submitNested _ line h.rest
  rcases hfound : Session.deletionOf l kind b.session with ⟨failure | d, s⟩ <;>
    rw [hfound] at hsubmit hsame
  · obtain ⟨hlast, hprompts⟩ := hsubmit
    have hexecute : ∀ answer, (execute l).run answer b = (.error failure, b) := by
      intro answer
      rw [execute_of_deletes hd, Act.run_bind, inSession, Act.run_within, hfound, hsame]
      rfl
    have hordinary : failure.IsOrdinary :=
      ((Session.sound_deletionOf l kind b.session).fails failure (by rw [hfound])).elim id
        (h.plain.isOrdinary failure)
    obtain ⟨hanswer, hstore', hcalls⟩ := submit_run hl hexecute (.error hordinary) h.time h.deferred
    refine agrees_of_answered hanswer hlast hprompts ?_ hcalls
    rw [hstore', hstore, h.store]
  · obtain ⟨hprompts, hgate⟩ := hsubmit
    replace hfound : Session.deletionOf l kind b.session = (.ok d, b.session) :=
      hfound.trans (congrArg (fun s => (_, s)) hsame)
    have hanswered : ∀ word, i.answered line word =
        (Interpreter.submit word (Interpreter.submit line i).2).2 := fun word => by
      rw [Interpreter.answered, hprompts]
      rfl
    -- both carry out the same deletion, on equal stores
    obtain ⟨s', hs', hlast, hstore'⟩ :=
      Interpreter.submit_yes hgate hrest.time hplain'
    have halike : Session.DepotsAlike Eq
        (fun w _ => w.calls = b.calls ++ [.confirm (question d)])
        (b.asked (question d)).session s' := by
      refine ⟨rfl, ?_⟩
      rw [hs', hstore, h.store]
      exact Store.alike_refl h.plain
    obtain ⟨hexecuted, hafter⟩ := Session.twins_executeDeletion d _ _ halike
    refine ⟨fun hyes => ?_, fun hno => ?_, fun hfree => ?_⟩
    · obtain ⟨hanswer, hstore'', -⟩ := submit_of_yes h hl hd hfound hyes
      rw [hanswered]
      refine ⟨⟨_, hanswer, ?_⟩, ?_⟩
      · rw [hexecuted.eq]
        exact hlast
      · rw [hstore'', hstore']
        exact hafter.store.eq.symm
    · rw [hanswered, Interpreter.submit_cancel hgate hrest.time hplain', hstore,
        (submit_of_no h hl hd hfound hno).1, h.store]
    · rw [hprompts]
      refine ⟨question d, ?_⟩
      cases hverdict : b.consent.verdict with
      | yes => exact (submit_of_yes h hl hd hfound hverdict).2.2.trans hafter.world
      | no => exact (submit_of_no h hl hd hfound hverdict).2
      | fails failure => exact absurd hverdict (hfree failure)

/-- **The bar and the interpreter agree** on every line that is to make or to delete a record. -/
theorem agrees_of_mutates (h : b.Beside i) (hl : Line.parse line = some l) (hmutates : l.Mutates) :
    Agreement line b i := by
  obtain ⟨kind, hc | hd⟩ := hmutates.cases
  · exact agrees_of_creates h hl hc
  · exact agrees_of_deletes h hl hd

/-- A session with one vault. -/
def sampleSession : Session :=
  .bare ⟨World.fresh 0 [],
    .inMemory ⟨[⟨"v", "Home", "", Store.sampleMoment, Store.sampleMoment⟩], []⟩⟩

/-- A line that is to delete the vault. -/
def sampleLine : Line :=
  { raw := "vault rm --name home", verb := "vault", subVerb := "rm", remainder := "rm --name home"
    flags := Flags.parse "vault rm --name home" }

/-- A yes after two seconds. -/
def sampleConsent : Consent := { verdict := .yes, lasts := Delay.ofMilliseconds 2000 }

theorem beside_sampleSession :
    (start sampleSession usualLifetime [sampleConsent]).Beside (Interpreter.start sampleSession) where
  store := rfl
  plain := ⟨rfl, rfl⟩
  clock := rfl
  issued := rfl
  deferred := rfl
  rest := ⟨rfl, Store.sampleMoment, by decide +kernel⟩
  later := ⟨⟨1970, 1, 1, 0, 0, 2, 0, 0, by decide⟩, by decide +kernel⟩
  idle := rfl

theorem agrees_sampleSession :
    (start sampleSession usualLifetime [sampleConsent]).Beside (Interpreter.start sampleSession) ∧
      Line.parse "vault rm --name home" = some sampleLine ∧ sampleLine.Mutates ∧
      Agreement "vault rm --name home" (start sampleSession usualLifetime [sampleConsent])
        (Interpreter.start sampleSession) ∧
      ((Interpreter.start sampleSession).answered "vault rm --name home" "yes").log.last? =
        some (.success "Vault \"Home\" deleted successfully.") := by
  have hl : Line.parse "vault rm --name home" = some sampleLine := by decide +kernel
  have hmutates : sampleLine.Mutates := ⟨.inl (by decide), .inr (by decide)⟩
  exact ⟨beside_sampleSession, hl, hmutates, agrees_of_mutates beside_sampleSession hl hmutates,
    by decide +kernel⟩

end QuickBar

end VaultConsole
