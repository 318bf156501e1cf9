import VaultConsole.Proofs.Secrecy

/-!
# A secret that is typed is not logged

A secret is typed on a line as the value of a flag. Two lines that differ in it have parts that are
alike, and what they do differs in the secrets of accounts at most. An event tells the words of a line,
its covered flags and a failure, and none of these depends on a secret.

* `Decision.ofLine_eq_reject`: a line with a quote decides nothing about a deletion that waits.
* `Interpreter.InStep`, `QuickBar.InStep`: states with sessions that are alike, whatever they show.
* `Line.Slot.untold`: **the events do not depend on a secret that was typed.**
* `Line.Slot.told_otherwise`: they do where the flag is spelled in another way, or comes first.
-/

namespace VaultConsole

open List (Forall₂)
open Text (doubleQuote)

/-! ## Lines with a quote -/

/-- A code point that is in lower case stays in the text. -/
theorem Text.mem_lower {c : CodePoint} (hsigma : c.val ≠ 0x3A3) (hlower : c.lower = [c]) {t : Text}
    (h : c ∈ t) : c ∈ t.lower := by
  have hafter : ∀ before, c ∈ lowerAfter before t := by
    induction t with
    | nil => cases h
    | cons d rest ih =>
      intro before
      rw [lowerAfter]
      rcases List.mem_cons.1 h with rfl | hrest
      · rw [if_neg hsigma, hlower]
        exact List.mem_cons_self
      · exact List.mem_append_right _ (ih hrest _)
  exact hafter []

/-- No word that decides has a quote in it. -/
theorem Decision.ofLine_eq_reject {line : Text} (h : doubleQuote ∈ line.strip) :
    Decision.ofLine line = .reject := by
  have hquote : doubleQuote ∈ line.strip.lower := Text.mem_lower (by decide) (by decide) h
  have hword {word : Text} (hfree : doubleQuote ∉ word) : line.strip.lower ≠ word := by
    intro hline
    rw [hline] at hquote
    exact hfree hquote
  unfold Decision.ofLine
  rw [if_neg (not_or.2 ⟨hword (by decide), hword (by decide)⟩),
    if_neg (not_or.2 ⟨hword (by decide), hword (by decide)⟩)]

theorem Line.Slot.ofLine_line (p : Line.Slot) (v : Text) : Decision.ofLine (p.line v) = .reject := by
  apply Decision.ofLine_eq_reject
  rw [p.strip_line, p.trimmed.line_eq]
  exact List.mem_append_right _ List.mem_cons_self

/-! ## States that go in step -/

theorem Session.alike_refl {s : Session} (h : s.depot.store.IsPlain) : s.Alike AnySecrets s :=
  .intro s ⟨World.alike_refl _, Store.alike_refl h⟩

/-- Entries of which nothing is known. -/
def AnyEntries (_ _ : Entry) : Prop := True

instance : Std.Refl AnyEntries := ⟨fun _ => trivial⟩

/-- Two interpreters whose sessions differ at most in secrets and in texts that were copied, and whose
logs are as long. What is in these, what is remembered and what is being typed may differ. -/
structure Interpreter.InStep (i i' : Interpreter) : Prop where
  session : i.session.Alike AnySecrets i'.session
  log : Forall₂ AnyEntries i.log.entries i'.log.entries

instance : Interpreter.OverSessions AnySecrets AnyEntries Interpreter.InStep where
  session := Interpreter.InStep.session
  log := Interpreter.InStep.log
  withSession h hsession := ⟨hsession, h.log⟩
  withLog h hlog := ⟨h.session, hlog⟩
  change := by
    intro f i i' _ hsession hlog h
    refine ⟨?_, ?_⟩
    · rw [hsession, hsession]
      exact h.session
    · rw [hlog, hlog]
      exact h.log

/-- Two bars whose sessions differ at most in secrets and in texts that were copied, to which the user
is going to say the same. -/
structure QuickBar.InStep (b b' : QuickBar) : Prop where
  session : b.session.Alike AnySecrets b'.session
  consents : b'.consents = b.consents

instance : QuickBar.OverSessions AnySecrets QuickBar.InStep where
  session := QuickBar.InStep.session
  consents := QuickBar.InStep.consents
  withSession h hsession := ⟨hsession, h.consents⟩
  withConsents h := ⟨h.session, rfl⟩
  withFeedback h _ := ⟨h.session, h.consents⟩

namespace Line.Slot

variable {p : Slot} {v v' : Text}

/-- Lines that differ in a secret can be submitted side by side. -/
theorem paired (hparts : Option.Rel (Line.Alike AnySecrets) (Line.parse (p.line v))
      (Line.parse (p.line v'))) :
    Interpreter.Paired AnySecrets Interpreter.InStep (p.line v) (p.line v') where
  parts := hparts
  decision := by rw [p.ofLine_line, p.ofLine_line]
  announced := Interpreter.twins_announce trivial
  remembered := .change fun _ _ h => ⟨h.session, h.log⟩

/-- **The events do not depend on a secret that was typed.** The secret stands between quotes as the
value of a flag, behind a word; where the line is not to search, an interpreter and a bar emit the same
events for one secret as for another. -/
theorem untold (hname : p.name = "password") (hword : p.before.isBlank = false) (hv : v.Quotable)
    (hv' : v'.Quotable) (hsearch : ∀ l, Line.parse (p.line v) = some l → l.verb ≠ "search")
    {i : Interpreter} (hi : i.session.depot.store.IsPlain) {b : QuickBar}
    (hb : b.session.depot.store.IsPlain) :
    (Interpreter.submit (p.line v) i).2.session.depot.world.events =
        (Interpreter.submit (p.line v') i).2.session.depot.world.events ∧
      (QuickBar.submit (p.line v) b).2.session.depot.world.events =
        (QuickBar.submit (p.line v') b).2.session.depot.world.events := by
  have hsecret : p.name ∈ Event.secretNames := by
    rw [hname]
    decide
  have hparts := p.alike (S := AnySecrets) hsecret hword hv hv' trivial hsearch
  have hinterpreter : Interpreter.InStep i i :=
    ⟨Session.alike_refl hi, List.forall₂_same.2 fun _ _ => trivial⟩
  have hbar : QuickBar.InStep b b := ⟨Session.alike_refl hb, rfl⟩
  have hsubmitted := Interpreter.twins_submitPaired hinterpreter (paired hparts)
    fun _ _ _ _ _ _ => trivial
  have hanswered := QuickBar.twins_submitPaired hparts b b hbar
  exact ⟨hsubmitted.2.session.indistinct.events.symm, hanswered.2.session.indistinct.events.symm⟩

/-- A place for a secret behind words without quotes, where the line ends. -/
def atEnd (before name : Text) (boundary : before = [] ∨ before.EndsBlank)
    (free : doubleQuote ∉ before) (name_ne_nil : name ≠ []) (name_isWord : ∀ c ∈ name, c.isWord = true) : Slot where
  before := before
  name := name
  gap := " "
  after := []
  boundary := boundary
  outside := Flags.closed_of_not_mem free true
  name_ne_nil := name_ne_nil
  name_isWord := name_isWord
  gap_ne_nil := by decide
  gap_isBlank := by decide

/-- A place for a secret that an account gets. -/
def samplePlace : Slot :=
  atEnd "account create --vault Home --name Shop --username me " "password"
    (.inr ⟨_, rfl, by decide⟩) (by decide) (by decide) (by decide +kernel)

/-- The interpreter over a store with one account. -/
def sampleInterpreter : Interpreter := Interpreter.start (Session.sampleSecretive "old")

/-- The bar over the same store. -/
def sampleBar : QuickBar :=
  QuickBar.start (Session.sampleSecretive "old") QuickBar.usualLifetime []

/-- An account is made with one secret or with another. -/
theorem untold_samplePlace :
    samplePlace.name = "password" ∧ samplePlace.before.isBlank = false ∧ Text.Quotable "one" ∧
      Text.Quotable "two" ∧
      (∀ l, Line.parse (samplePlace.line "one") = some l → l.verb ≠ "search") ∧
      sampleInterpreter.session.depot.store.IsPlain ∧ sampleBar.session.depot.store.IsPlain ∧
      (Interpreter.submit (samplePlace.line "one") sampleInterpreter).2.session.depot.world.events =
        (Interpreter.submit (samplePlace.line "two")
          sampleInterpreter).2.session.depot.world.events ∧
      (QuickBar.submit (samplePlace.line "one") sampleBar).2.session.depot.world.events =
        (QuickBar.submit (samplePlace.line "two") sampleBar).2.session.depot.world.events := by
  have hword : samplePlace.before.isBlank = false := by decide +kernel
  have hone : Text.Quotable "one" := by decide
  have htwo : Text.Quotable "two" := by decide
  have hverb : (Line.parse (samplePlace.line "one")).map (·.verb) = some ("account" : Text) := by
    decide +kernel
  have hsearch : ∀ l, Line.parse (samplePlace.line "one") = some l → l.verb ≠ "search" := by
    intro l hl
    rw [hl] at hverb
    have haccount : l.verb = "account" := Option.some.inj hverb
    rw [haccount]
    decide
  have hinterpreter : sampleInterpreter.session.depot.store.IsPlain := ⟨rfl, rfl⟩
  have hbar : sampleBar.session.depot.store.IsPlain := ⟨rfl, rfl⟩
  have huntold := untold (p := samplePlace) rfl hword hone htwo hsearch hinterpreter hbar
  exact ⟨rfl, hword, hone, htwo, hsearch, hinterpreter, hbar, huntold⟩

/-- The secret is kept, and one event is told of the line. -/
example :
    (Interpreter.submit (samplePlace.line "one") sampleInterpreter).2.records.accounts.map
        (·.password) = ["old", "one"] ∧
      (Interpreter.submit (samplePlace.line "one")
        sampleInterpreter).2.session.depot.world.events.map (·.name) = ["command_exec"] := by
  decide +kernel

/-- A place behind a flag in capital letters. -/
def inCapitals : Slot :=
  atEnd "vault list " "PASSWORD" (.inr ⟨_, rfl, by decide⟩) (by decide) (by decide) (by decide +kernel)

/-- A place behind a flag that the line begins with. -/
def atStart : Slot := atEnd [] "password" (.inl rfl) (by decide) (by decide) (by decide +kernel)

/-- An interpreter tells a secret from another where the flag is spelled in capital letters, and where
the line begins with the flag. -/
theorem told_otherwise :
    Text.Quotable "abc" ∧ Text.Quotable "xyz" ∧ sampleInterpreter.session.depot.store.IsPlain ∧
      (inCapitals.name.lower = "password" ∧
        (Line.parse (inCapitals.line "abc")).map (·.verb) = some ("vault" : Text) ∧
        (Interpreter.submit (inCapitals.line "abc") sampleInterpreter).2.session.depot.world.events ≠
          (Interpreter.submit (inCapitals.line "xyz")
            sampleInterpreter).2.session.depot.world.events) ∧
      (atStart.name = "password" ∧
        (Line.parse (atStart.line "abc")).map (·.verb) = some ("--password" : Text) ∧
        (Interpreter.submit (atStart.line "abc") sampleInterpreter).2.session.depot.world.events ≠
          (Interpreter.submit (atStart.line "xyz")
            sampleInterpreter).2.session.depot.world.events) := by
  refine ⟨by decide, by decide, ⟨rfl, rfl⟩, ⟨by decide +kernel, by decide +kernel, ?_⟩,
    ⟨rfl, by decide +kernel, ?_⟩⟩
  · intro hevents
    have hlines := congrArg (List.map Event.line) hevents
    revert hlines
    decide +kernel
  · intro hevents
    have hlines := congrArg (List.map Event.line) hevents
    revert hlines
    decide +kernel

end Line.Slot

end VaultConsole
