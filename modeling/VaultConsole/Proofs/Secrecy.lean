import VaultConsole.Proofs.Interpreter.Secrecy
import VaultConsole.Proofs.QuickBar.Secrecy
import VaultConsole.Proofs.Render

/-!
# Secrets are seen only where they are asked for

A session is driven twice in the same way, over stores that differ in nothing but the secrets of their
accounts. Parts outside do the same whatever they are given to copy. Then nobody can tell the two runs
apart but by what asks for a secret: the answer of an interpreter after it has copied one, and the
showing of an account unveiled. A bar does not even name the secrets that it copies.

* `Entry.Alike`: entries that may stand at one place of the two logs.
* `Session.Indistinct`: what is the same in the two sessions.
* `HostStep.Discreet`, `BarStep.Discreet`: what is the same after a run of an interpreter, and of a bar.
* `Session.discreet`: **no run tells more of a secret.**
-/

namespace VaultConsole

open List (Forall₂)

/-- Secrets of which nothing is known. -/
def AnySecrets (_ _ : Text) : Prop := True

instance : Std.Refl AnySecrets := ⟨fun _ => trivial⟩

/-- The same entry, or, where a secret was asked for, the answers that name it: these differ in their
message, and there only in the secret. -/
inductive Entry.Alike (asked : Prop) : Entry → Entry → Prop
  | same (e : Entry) : Alike asked e e
  | told (h : asked) {a a' : Account} (ha : Account.Alike AnySecrets a a') :
      Alike asked (Session.secretEntry true a) (Session.secretEntry true a')

instance (asked : Prop) : Std.Refl (Entry.Alike asked) := ⟨.same⟩

theorem Entry.Alike.mono {asked asked' : Prop} {e e' : Entry} (h : e.Alike asked e')
    (hasked : asked → asked') : e.Alike asked' e' := by
  cases h with
  | same => exact .same e
  | told h ha => exact .told (hasked h) ha

/-- Two sessions that cannot be told apart without a secret. -/
structure Session.Indistinct (s s' : Session) : Prop where
  /-- The same was asked of parts outside, but for the texts that were copied. -/
  calls : Forall₂ (Call.Alike AnySecrets) s.depot.world.calls s'.depot.world.calls
  events : s'.depot.world.events = s.depot.world.events
  screen : s'.depot.world.screen = s.depot.world.screen
  runLog : s'.depot.world.runLog = s.depot.world.runLog
  disk : s'.depot.world.disk = s.depot.world.disk
  gate : s'.gate = s.gate
  deferred : s'.deferred = s.deferred
  scheduled : s'.scheduled = s.scheduled
  running : s'.running = s.running
  /-- The stores hold the same, but for secrets. -/
  store : s.depot.store.Alike AnySecrets s'.depot.store
  /-- Every entry that unveils no secret looks the same. -/
  shown : ∀ zone e, ¬ e.Unveils →
    (showEntry zone e s).1 = (showEntry zone e s').1

theorem Session.Alike.indistinct {s s' : Session} (h : s.Alike AnySecrets s') : s.Indistinct s' where
  calls := h.depot.world.calls
  events := by rw [h.depot.world.rest]
  screen := by rw [h.depot.world.rest]
  runLog := by rw [h.depot.world.rest]
  disk := by rw [h.depot.world.rest]
  gate := by rw [h.rest]
  deferred := by rw [h.rest]
  scheduled := by rw [h.rest]
  running := by rw [h.rest]
  store := h.depot.store
  shown zone _ hveiled := (twins_showEntry zone hveiled _ _ h).1.eq

/-! ## Interpreters -/

namespace HostStep

/-- In a run a secret is asked for. -/
def Asks (steps : List HostStep) (i : Interpreter) : Prop := ∃ t ∈ trace steps i, t.AsksForSecret

/-- What two runs of interpreters come to that take the same steps. -/
structure Discreet (steps : List HostStep) (i i' : Interpreter) : Prop where
  session : (sequence steps i).session.Indistinct (sequence steps i').session
  history : (sequence steps i').history = (sequence steps i).history
  buffer : (sequence steps i').buffer = (sequence steps i).buffer
  suggestions : (sequence steps i').suggestions = (sequence steps i).suggestions
  log : Forall₂ (Entry.Alike (Asks steps i)) (sequence steps i).log.entries
    (sequence steps i').log.entries
  /-- Where the last steps ask for no secret, they add the same entries to both logs. -/
  recent : ∀ before after, steps = before ++ after → ¬ Asks after (sequence before i) →
    Forall₂ (fun e e' => e = e' ∨
        (e, e') ∈ (sequence before i).log.entries.zip (sequence before i').log.entries)
      (sequence steps i).log.entries (sequence steps i').log.entries
  /-- The next line yields the same, or fails in the same way. -/
  answers : ∀ line, Act.Outcomes (Forall₂ (Entry.Alike (Asks (steps ++ [.submit line]) i)))
    (Interpreter.submit line (sequence steps i)).1 (Interpreter.submit line (sequence steps i')).1

theorem sequence_append (before after : List HostStep) (i : Interpreter) :
    sequence (before ++ after) i = sequence after (sequence before i) := List.foldl_append ..

theorem trace_append (before after : List HostStep) (i : Interpreter) :
    trace (before ++ after) i = trace before i ++ trace after (sequence before i) := by
  induction before generalizing i with
  | nil => rfl
  | cons s rest ih =>
    rw [List.cons_append, trace, ih, trace, List.append_assoc]
    rfl

theorem trace_submit (steps : List HostStep) (line : Text) (i : Interpreter) :
    trace (steps ++ [.submit line]) i = trace steps i ++ turnsOf line (sequence steps i) := by
  rw [trace_append]
  simp [trace, turns, course, Course.call, Course.calls]

theorem Asks.submit {steps : List HostStep} {i : Interpreter} (h : Asks steps i) (line : Text) :
    Asks (steps ++ [.submit line]) i := by
  obtain ⟨t, ht, hasks⟩ := h
  refine ⟨t, ?_, hasks⟩
  rw [trace_submit]
  exact List.mem_append_left _ ht

variable {steps : List HostStep} {i i' : Interpreter}

theorem alike_of_blind (hsteps : ∀ s ∈ steps, s.Blind AnySecrets) (h : i.Alike AnySecrets Eq i') :
    (sequence steps i).Alike AnySecrets (Entry.Alike (Asks steps i)) (sequence steps i') := by
  have hstart : i.Alike AnySecrets (Entry.Alike (Asks steps i)) i' :=
    h.relog (h.log.imp fun e _ he => he ▸ .same e)
  exact alike_sequence hsteps hstart fun t ht hasks _ _ ha => .told ⟨t, ht, hasks⟩ ha

/-- Steps that ask for no secret add the same entries to both logs. -/
theorem recent_of_blind {E : Entry → Entry → Prop} (hsteps : ∀ s ∈ steps, s.Blind AnySecrets)
    (h : i.Alike AnySecrets E i') (hquiet : ¬ Asks steps i) :
    Forall₂ (fun e e' => e = e' ∨ (e, e') ∈ i.log.entries.zip i'.log.entries)
      (sequence steps i).log.entries (sequence steps i').log.entries := by
  -- what is in the logs by now may stay there; else only equal entries are related
  have hrefl : Std.Refl fun e e' => e = e' ∨ (e, e') ∈ i.log.entries.zip i'.log.entries :=
    ⟨fun _ => .inl rfl⟩
  have hlog : Forall₂ (fun e e' => e = e' ∨ (e, e') ∈ i.log.entries.zip i'.log.entries)
      i.log.entries i'.log.entries := List.forall₂_iff_zip.2 ⟨h.log.length_eq, .inr⟩
  exact (alike_sequence hsteps (h.relog hlog) fun t ht hasks => absurd ⟨t, ht, hasks⟩ hquiet).log

/-- A run of an interpreter tells of secrets only where one is asked for. -/
theorem discreet_of_blind (hsteps : ∀ s ∈ steps, s.Blind AnySecrets)
    (h : i.Alike AnySecrets Eq i') : Discreet steps i i' := by
  have hend := alike_of_blind hsteps h
  refine ⟨hend.session.indistinct, by rw [hend.rest], by rw [hend.rest], by rw [hend.rest],
    hend.log, ?_, fun line => ?_⟩
  · rintro before after rfl hquiet
    have hmiddle := alike_of_blind (fun s hs => hsteps s (List.mem_append_left after hs)) h
    rw [sequence_append, sequence_append]
    exact recent_of_blind (fun s hs => hsteps s (List.mem_append_right before hs)) hmiddle hquiet
  · have hasked := hend.relog (hend.log.imp fun _ _ he => he.mono fun hasks => hasks.submit line)
    refine (Interpreter.twins_submit hasked fun t ht hasks _ _ ha => .told ⟨t, ?_, hasks⟩ ha).1
    rw [trace_submit]
    exact List.mem_append_right _ ht

end HostStep

/-! ## Bars -/

namespace BarStep

open QuickBar (Bare)

/-- What two runs of bars come to that take the same steps. -/
structure Discreet (steps : List BarStep) (b b' : QuickBar) : Prop where
  session : (sequence steps b).session.Indistinct (sequence steps b').session
  answers : answers steps b' = answers steps b
  feedback : (sequence steps b').feedback = (sequence steps b).feedback
  /-- All that the host got looks the same. -/
  shown : ∀ entry, .ok (some entry) ∈ BarStep.answers steps b → ∀ zone,
    (Session.showEntry zone entry (sequence steps b).session).1 =
      (Session.showEntry zone entry (sequence steps b').session).1
  /-- So does the feedback. -/
  feedbackShown : ∀ entry since, (sequence steps b).feedback = some (entry, since) →
    ∀ zone,
      (Session.showEntry zone entry (sequence steps b).session).1 =
        (Session.showEntry zone entry (sequence steps b').session).1

theorem not_unveils_of_bare {e : Entry} (h : e.payload = none) : ¬ e.Unveils := by
  rintro ⟨p, hp, -⟩
  rw [h] at hp
  cases hp

theorem bare_of_mem_answers {outcomes outcomes' : List (Except Failure (Option Entry))}
    (h : Forall₂ (Act.Outcomes (Option.Rel Bare)) outcomes outcomes') {entry : Entry}
    (hentry : .ok (some entry) ∈ outcomes) : entry.payload = none := by
  induction h with
  | nil => cases hentry
  | cons houtcome _ ih =>
    rcases List.mem_cons.1 hentry with rfl | hentry
    · obtain ⟨⟨h⟩⟩ := houtcome
      exact h.2
    · exact ih hentry

/-- A run of a bar tells of no secret. -/
theorem discreet_of_blind {steps : List BarStep} (hsteps : ∀ s ∈ steps, s.Blind AnySecrets)
    {b b' : QuickBar} (h : b.Alike AnySecrets b') : Discreet steps b b' := by
  obtain ⟨hanswers, hend⟩ := alike_sequence hsteps h
  have hsame : answers steps b = answers steps b' := by
    rw [← List.forall₂_eq_eq_eq]
    exact hanswers.imp fun _ _ houtcome => (houtcome.imp fun _ _ => QuickBar.eq_of_bare).eq
  refine ⟨hend.session.indistinct, hsame.symm, by rw [hend.rest], ?_, ?_⟩
  · intro entry hentry zone
    have hbare := bare_of_mem_answers hanswers hentry
    exact hend.session.indistinct.shown zone entry (not_unveils_of_bare hbare)
  · intro entry since hfeedback zone
    exact hend.session.indistinct.shown zone entry (not_unveils_of_bare (hend.bare hfeedback))

end BarStep

namespace Session

/-- The session with another store. -/
def withStore (store : Store) (s : Session) : Session := { s with depot := { s.depot with store } }

/-- **Secrets are seen only where they are asked for.** Whatever a host and parts outside do, an
interpreter and a bar that start over stores in memory which differ in nothing but secrets do and show
the same, but for the answers that name a secret which was asked for. -/
theorem discreet {session : Session} {store : Store}
    (h : session.depot.store.Alike AnySecrets store) :
    (∀ steps : List HostStep, (∀ s ∈ steps, s.Blind AnySecrets) →
      HostStep.Discreet steps (Interpreter.start session)
        (Interpreter.start (session.withStore store))) ∧
    (∀ (steps : List BarStep) (lifetime : Delay) (consents : List Consent),
      (∀ s ∈ steps, s.Blind AnySecrets) →
      BarStep.Discreet steps (QuickBar.start session lifetime consents)
        (QuickBar.start (session.withStore store) lifetime consents)) := by
  have hdepot : session.depot.Alike AnySecrets (World.Alike AnySecrets)
      (session.withStore store).depot := ⟨World.alike_refl _, h⟩
  refine ⟨fun steps hsteps => HostStep.discreet_of_blind hsteps ?_,
    fun steps lifetime consents hsteps => BarStep.discreet_of_blind hsteps ?_⟩
  · exact .intro (Interpreter.start session) (.intro _ hdepot) .nil
  · refine .intro (QuickBar.start session lifetime consents) (.intro _ hdepot) ?_
    rintro _ _ ⟨⟩

/-- A store with one account, which has a secret. -/
def sampleStore (secret : Text) : Store :=
  .inMemory
    ⟨[⟨"v", "Home", "", Store.sampleMoment, Store.sampleMoment⟩],
      [⟨"m", "v", "Mail", "me", secret, "", "", Store.sampleMoment, Store.sampleMoment⟩]⟩

/-- A session over such a store, with a clipboard. -/
def sampleSecretive (secret : Text) : Session :=
  { Session.bare ⟨World.fresh 0 [], sampleStore secret⟩ with clipboard := some .quiet }

/-- Only the answer that names the secret tells which one it is. -/
theorem discreet_sampleStore :
    (sampleSecretive "one").depot.store.Alike AnySecrets (sampleStore "two") ∧
      HostStep.Discreet
        [.submit "account show --name mail --reveal", .submit "account password --name mail"]
        (Interpreter.start (sampleSecretive "one")) (Interpreter.start (sampleSecretive "two")) ∧
      BarStep.Discreet [.submit "account password --name mail", .poll]
        (QuickBar.start (sampleSecretive "one") QuickBar.usualLifetime [])
        (QuickBar.start (sampleSecretive "two") QuickBar.usualLifetime []) := by
  have hstore : (sampleSecretive "one").depot.store.Alike AnySecrets (sampleStore "two") := by
    refine ⟨⟨rfl, rfl⟩, ⟨rfl, rfl⟩, ⟨rfl, ?_⟩, .nil⟩
    exact .cons (.intro ⟨"m", "v", "Mail", "me", "one", "", "", _, _⟩ trivial) .nil
  obtain ⟨hinterpreter, hbar⟩ := discreet hstore
  refine ⟨hstore, hinterpreter _ fun s hs => ?_, hbar _ _ _ fun s hs => ?_⟩
  · rcases List.mem_pair.1 hs with rfl | rfl <;> trivial
  · rcases List.mem_pair.1 hs with rfl | rfl <;> trivial

/-- The answers to a line that asks for a secret differ in it, and in nothing else. -/
example :
    (HostStep.sequence [.submit "account password --name mail"]
        (Interpreter.start (sampleSecretive "one"))).log.entries =
      [.info "> account password --name mail",
        .success "Password for \"Mail\": one\n\n(Copied to clipboard)"] := by
  decide +kernel

end Session

end VaultConsole
