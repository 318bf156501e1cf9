import VaultConsole.Proofs.Interpreter.Answers
import VaultConsole.Proofs.Line.Written
import VaultConsole.Proofs.QuickBar.Answers
import VaultConsole.Proofs.Store.Integrity

/-!
# What is typed is what is stored

A record is made by a line that gives its fields as flags. The values stand between quotes, so they may
hold anything but a quote: blanks, line feeds, text that looks like flags. On the way from the line to the
store a value is cut out of the line, looked up by the name of its flag and handed to the store, and none
of these steps changes it or takes one for another.

* `Making`: what is to be made, with the values of all its flags.
* `Making.line`, `Making.Typed`: the line with flags in some order, and lines that come to the same.
* `Making.Typed.parse`: such a line gives exactly these values.
* `Making.Adds`: the records with the one that is made.
* `Session.creationOf_run`: what comes of a line that gives the values.
* `Making.stores_of_typed`: **the interpreter and the bar store what was typed, and nothing else.**
-/

namespace VaultConsole

open Flags (Token)
open Text (doubleQuote)
open Session (sameName)

/-- A record that is to be made. A flag that may be left out is one if its value is empty. -/
inductive Making
  | vault (name description : Text)
  | account (vaultName name username password url notes : Text)

namespace Making

variable (m : Making)

def kind : Making → Deletable
  | vault .. => .vault
  | account .. => .account

/-- All flags with their values. -/
def flags : Making → Table Text Text
  | vault name description => [("name", name), ("description", description)]
  | account vaultName name username password url notes =>
    [("vault", vaultName), ("name", name), ("username", username), ("password", password), ("url", url),
      ("notes", notes)]

/-- The values that no line may leave out. -/
def needed : Making → List Text
  | vault name _ => [name]
  | account vaultName name username password _ _ => [vaultName, name, username, password]

/-- The flags that are given: those whose value is not empty. -/
def given : Table Text Text := m.flags.filter (·.2 ≠ [])

/-- What is needed is there, and every value can stand between quotes. -/
structure Typable : Prop where
  needed : ∀ value ∈ m.needed, value ≠ []
  unquoted : ∀ flag ∈ m.flags, doubleQuote ∉ flag.2

/-- A flag with its value between quotes. -/
def flagText (flag : Text × Text) : Text :=
  (" --" : Text) ++ (flag.1 ++ ((" \"" : Text) ++ (flag.2 ++ ("\"" : Text))))

/-- The line with some flags, in their order. -/
def line (flags : List (Text × Text)) : Text :=
  m.kind.word ++ ((" create" : Text) ++ flags.flatMap flagText)

/-- A line that says to make the record: the two words in letters of any case, and the flags that are
given, in any order and with any blanks between the parts. -/
def Typed (line : Text) : Prop :=
  ∃ w : Written, w.line = line ∧ w.verb.text.lower = m.kind.word ∧ w.subVerb.text.lower = "create" ∧
    (w.items.map Written.Item.token).Perm (m.given.map Token.giving)

/-- The records with the one that is made, under an identifier and at a time. An account is put into the
first vault of the name, whatever the case. -/
inductive Adds (id : Text) (now : Timestamp) (r : Records) : Making → Records → Prop
  | vault (name description : Text) :
    Adds id now r (.vault name description)
      { r with vaults := r.vaults ++ [{ id, name, description, created := now, modified := now }] }
  | account (vaultName : Text) (v : Vault) (first : r.vaults.find? (sameName ·.name vaultName) = some v)
      (name username password url notes : Text) :
    Adds id now r (.account vaultName name username password url notes)
      { r with accounts := r.accounts ++
          [{ id, vaultId := v.id, name, username, password, url, notes, created := now, modified := now }] }

/-- There is a vault for the account that is to be made. -/
def Placeable (r : Records) : Prop :=
  match m with
  | vault .. => True
  | account vaultName .. => ∃ v ∈ r.vaults, sameName v.name vaultName = true

/-- What a making leaves of a session: its store has the record that was made and is the same apart from
that. -/
structure Stored (s s' : Session) : Prop where
  added : ∃ now, s.depot.world.now = .ok now ∧
    m.Adds s.depot.world.freshId now s.depot.store.records s'.depot.store.records
  rest : s'.depot.store = { s.depot.store with records := s'.depot.store.records }
  /-- Where the identifier that is given out is not in use, no identifier comes to be used twice. -/
  intact : s.depot.store.records.Intact → (∀ v ∈ s.depot.store.records.vaults, v.id ≠ s.depot.world.freshId) →
    (∀ a ∈ s.depot.store.records.accounts, a.id ≠ s.depot.world.freshId) →
    s'.depot.store.records.Intact

/-! ## The line -/

theorem nodup_keys_flags : (Table.keys m.flags).Nodup := by
  cases m with
  | vault name description =>
    show (["name", "description"] : List Text).Nodup
    decide
  | account vaultName name username password url notes =>
    show (["vault", "name", "username", "password", "url", "notes"] : List Text).Nodup
    decide

theorem nodup_keys_given : (Table.keys m.given).Nodup :=
  m.nodup_keys_flags.sublist (List.filter_sublist.map Prod.fst)

/-- The names of flags that give a field. -/
def flagNames : List Text := ["vault", "name", "username", "password", "url", "notes", "description"]

theorem keys_flags_subset : Table.keys m.flags ⊆ flagNames := by
  cases m with
  | vault name description =>
    show (["name", "description"] : List Text) ⊆ flagNames
    decide
  | account vaultName name username password url notes =>
    show (["vault", "name", "username", "password", "url", "notes"] : List Text) ⊆ flagNames
    decide

theorem isWord_flagNames : ∀ name ∈ flagNames, name ≠ [] ∧ ∀ c ∈ name, c.isWord = true := by
  decide +kernel

theorem blank_ne_nil : (" " : Text) ≠ [] := by decide

theorem isBlank_blank : ∀ c ∈ (" " : Text), c.isBlank = true := by decide

/-- A blank. -/
def blank : Written.Gap := ⟨" ", blank_ne_nil, isBlank_blank⟩

/-- The word for a kind of record. -/
def word (kind : Deletable) : Written.Word :=
  ⟨kind.word, by cases kind <;> decide, by cases kind <;> decide, by cases kind <;> decide⟩

theorem lower_word (kind : Deletable) : kind.word.lower = kind.word := by
  cases kind <;> decide +kernel

theorem exists_items {flags : List (Text × Text)}
    (h : ∀ flag ∈ flags, flag.1 ∈ flagNames ∧ doubleQuote ∉ flag.2) :
    ∃ items : List Written.Item, Written.texts items = flags.flatMap flagText ∧
      items.map Written.Item.token = flags.map Token.giving := by
  induction flags with
  | nil => exact ⟨[], rfl, rfl⟩
  | cons flag rest ih =>
    obtain ⟨items, htexts, htokens⟩ := ih fun f hf => h f (List.mem_cons_of_mem flag hf)
    obtain ⟨hname, hvalue⟩ := h flag List.mem_cons_self
    obtain ⟨hne, hword⟩ := isWord_flagNames _ hname
    let item : Written.Item := ⟨blank, ⟨flag.1, hne, hword⟩, .quoted blank flag.2 hvalue⟩
    have htext : item.text = flagText flag := rfl
    refine ⟨item :: items, ?_, ?_⟩
    · rw [List.flatMap_cons, ← htext, ← htexts]
      rfl
    · rw [List.map_cons, List.map_cons, htokens]
      rfl

/-- The line with the flags that are given says to make the record, in whatever order they are. -/
theorem typed_line {m : Making} (h : m.Typable) {flags : List (Text × Text)}
    (hflags : flags.Perm m.given) : m.Typed (m.line flags) := by
  have hmem : ∀ flag ∈ flags, flag ∈ m.flags := fun flag hflag =>
    List.mem_of_mem_filter (hflags.subset hflag)
  obtain ⟨items, htexts, htokens⟩ := exists_items fun flag hflag =>
    ⟨m.keys_flags_subset (List.mem_map_of_mem (hmem flag hflag)), h.unquoted flag (hmem flag hflag)⟩
  refine ⟨{
    before := [], after := [], verb := word m.kind, gap := blank, items
    subVerb := ⟨"create", by decide, by decide, by decide⟩
    before_isBlank := nofun
    after_isBlank := nofun }, ?_, lower_word m.kind, ?_, ?_⟩
  · rw [Written.line, Written.core, Written.rest, htexts, List.append_nil, List.nil_append]
    rfl
  · show Text.lower "create" = "create"
    decide +kernel
  · rw [htokens]
    exact hflags.map Token.giving

/-- **Such a line gives the values of the record**, each under the name of its flag. -/
theorem Typed.parse {m : Making} {line : Text} (h : m.Typed line) :
    ∃ l, Line.parse line = some l ∧ l.Creates m.kind ∧ ∀ flag ∈ m.flags, l.flag flag.1 = flag.2 := by
  obtain ⟨w, rfl, hverb, hsubVerb, htokens⟩ := h
  refine ⟨_, w.parse_eq, ⟨hverb, ?_⟩, fun flag hflag => ?_⟩
  · show unaliasAction w.subVerb.text.lower = "create"
    rw [hsubVerb]
    decide
  · have hvalue : Table.get? flag.1 (Flags.sum (w.items.map Written.Item.token)).values =
        Table.get? flag.1 m.given := by
      rw [Flags.get?_values_sum, Flags.valueOf?_of_perm htokens m.nodup_keys_given]
    have hgiven : ∀ value, Table.get? flag.1 m.given = some value → value = flag.2 ∧ value ≠ [] := by
      intro value hget
      have hmem := (Table.get?_eq_some_iff m.nodup_keys_given).1 hget
      obtain ⟨hin, hne⟩ := List.mem_filter.1 hmem
      have hsame := (Table.get?_eq_some_iff m.nodup_keys_flags).2 hin
      rw [(Table.get?_eq_some_iff m.nodup_keys_flags).2 hflag] at hsame
      exact ⟨(Option.some.inj hsame).symm, of_decide_eq_true hne⟩
    rw [Line.flag, Line.flag?, hvalue]
    cases hget : Table.get? flag.1 m.given with
    | some value =>
      obtain ⟨rfl, hne⟩ := hgiven value hget
      simp [hne]
    | none =>
      -- a flag that is not given is one with an empty value
      have hout := Table.get?_eq_none_iff.1 hget
      have hempty : flag.2 = [] := by
        by_contra hne
        exact hout (Table.mem_keys_of_mem (List.mem_filter.2 ⟨hflag, decide_eq_true hne⟩))
      rw [hempty]
      rfl

end Making

/-- A flag whose value is not empty is there. -/
theorem Line.flag?_of_flag {l : Line} {name value : Text} (hflag : l.flag name = value)
    (hvalue : value ≠ []) : l.flag? name = some value := by
  unfold flag at hflag
  cases hget : l.flag? name with
  | none =>
    rw [hget] at hflag
    exact absurd hflag.symm hvalue
  | some v =>
    rw [hget] at hflag
    exact congrArg some hflag

namespace Session

variable {s : Session} {l : Line}

/-- A session over other records, after an identifier was given out. -/
def grown (r : Records) (s : Session) : Session :=
  { s with depot := { world := s.depot.world.issue, store := { s.depot.store with records := r } } }

section
variable (h : s.depot.store.IsPlain) {now : Timestamp} (hnow : s.depot.world.now = .ok now)
include h hnow

theorem createVault_run (draft : VaultDraft) :
    createVault draft.name draft.description s =
      (.ok (.success ("Vault " ++ Failure.named draft.name ++ " created successfully.")),
        s.grown (s.depot.store.records.addVault (draft.record s.depot.world.freshId now))) := by
  have hplan : (Mutation.createVault draft).plan s.depot.world s.depot.store.records =
      .change (.vault (draft.record s.depot.world.freshId now))
        (s.depot.store.records.addVault (draft.record s.depot.world.freshId now)) := by
    rw [Mutation.plan, hnow]
  have hcreate : Depot.createVault draft s.depot = (.ok (.own _), _) :=
    Mutation.run_memory_own (fun _ _ => Outcome.vault.inj) rfl h hplan
  unfold createVault
  rw [Act.run_bind, inDepot, Act.run_within, hcreate]
  rfl

theorem createAccount_run {vaultName : Text} {v : Vault}
    (hfirst : s.depot.store.records.vaults.find? (sameName ·.name vaultName) = some v)
    (draft : AccountDraft) (hdraft : draft.vaultId = v.id) :
    createAccount vaultName draft.name draft.username draft.password draft.url draft.notes s =
      (.ok (.success ("Account " ++ Failure.named draft.name ++ " created successfully in vault "
          ++ Failure.named v.name ++ ".")),
        s.grown (s.depot.store.records.addAccount (draft.record s.depot.world.freshId now))) := by
  have hhas : s.depot.store.records.hasVault draft.vaultId = true :=
    List.any_eq_true.2 ⟨v, List.mem_of_find?_eq_some hfirst, beq_iff_eq.2 hdraft.symm⟩
  have hplan : (Mutation.createAccount draft).plan s.depot.world s.depot.store.records =
      .change (.account (draft.record s.depot.world.freshId now))
        (s.depot.store.records.addAccount (draft.record s.depot.world.freshId now)) := by
    rw [Mutation.plan, if_pos hhas, hnow]
  have hcreate : Depot.createAccount draft s.depot = (.ok (.own _), _) :=
    Mutation.run_memory_own (fun _ _ => Outcome.account.inj) rfl h hplan
  unfold createAccount
  rw [Act.run_bind, findVault_run h, hfirst, Act.after_ok, Act.run_bind, inDepot, Act.run_within,
    ← hdraft, hcreate]
  rfl

/-- **What comes of a line that gives the values of a record**: the store has that record. -/
theorem creationOf_run {m : Making} (hm : m.Typable) (hl : ∀ flag ∈ m.flags, l.flag flag.1 = flag.2)
    {r : Records} (hr : m.Adds s.depot.world.freshId now s.depot.store.records r) :
    ∃ message, creationOf l m.kind s = (.ok (.success message), s.grown r) := by
  have hrequired : ∀ (manual : Manual) (name value : Text), (name, value) ∈ m.flags →
      value ∈ m.needed → required manual name l s = (.ok value, s) :=
    fun _ name value hflag hneeded =>
      required_of_some (Line.flag?_of_flag (hl (name, value) hflag) (hm.needed value hneeded)) s
  cases hr with
  | vault name description =>
    have hdescription : l.flag "description" = description :=
      hl ("description", description) (by simp [Making.flags])
    have hcreate := createVault_run h hnow { name, description }
    refine ⟨"Vault " ++ Failure.named name ++ " created successfully.", ?_⟩
    show executeVaultCreate l s = _
    unfold executeVaultCreate
    rw [Act.run_bind, hrequired _ "name" name (by simp [Making.flags]) (by simp [Making.needed]),
      Act.after_ok, hdescription, hcreate]
    rfl
  | account vaultName v first name username password url notes =>
    have hurl : l.flag "url" = url := hl ("url", url) (by simp [Making.flags])
    have hnotes : l.flag "notes" = notes := hl ("notes", notes) (by simp [Making.flags])
    have hcreate := createAccount_run h hnow first
      { vaultId := v.id, name, username, password, url, notes } rfl
    refine ⟨"Account " ++ Failure.named name ++ " created successfully in vault "
      ++ Failure.named v.name ++ ".", ?_⟩
    show executeAccountCreate l s = _
    unfold executeAccountCreate
    rw [Act.run_bind, hrequired _ "vault" vaultName (by simp [Making.flags]) (by simp [Making.needed]),
      Act.after_ok, Act.run_bind,
      hrequired _ "name" name (by simp [Making.flags]) (by simp [Making.needed]), Act.after_ok,
      Act.run_bind, hrequired _ "username" username (by simp [Making.flags]) (by simp [Making.needed]),
      Act.after_ok, Act.run_bind,
      hrequired _ "password" password (by simp [Making.flags]) (by simp [Making.needed]), Act.after_ok,
      hurl, hnotes, hcreate]
    rfl

end

end Session

namespace Making

variable {m : Making}

theorem Placeable.exists_adds {r : Records} (h : m.Placeable r) (id : Text) (now : Timestamp) :
    ∃ r', m.Adds id now r r' := by
  cases m with
  | vault name description => exact ⟨_, .vault name description⟩
  | account vaultName name username password url notes =>
    obtain ⟨v, hv, hsame⟩ := h
    have hsome : (r.vaults.find? (sameName ·.name vaultName)).isSome := List.find?_isSome.2 ⟨v, hv, hsame⟩
    obtain ⟨first, hfirst⟩ := Option.isSome_iff_exists.1 hsome
    exact ⟨_, .account vaultName first hfirst name username password url notes⟩

/-- A record under an identifier that is not in use leaves intact records intact. -/
theorem Adds.intact {w : World} {now : Timestamp} {r r' : Records} (h : m.Adds w.freshId now r r')
    (hr : r.Intact) (hvaults : ∀ v ∈ r.vaults, v.id ≠ w.freshId)
    (haccounts : ∀ a ∈ r.accounts, a.id ≠ w.freshId) : r'.Intact := by
  cases h with
  | vault name description =>
    exact (Mutation.Makes.vault { name, description } now).intact hvaults hr
  | account vaultName v first name username password url notes =>
    have hhas : r.hasVault v.id = true :=
      List.any_eq_true.2 ⟨v, List.mem_of_find?_eq_some first, beq_self_eq_true _⟩
    exact (Mutation.Makes.account { vaultId := v.id, name, username, password, url, notes } now
      hhas).intact haccounts hr

theorem stored_of_store {s s' : Session} {now : Timestamp} {r : Records}
    (hnow : s.depot.world.now = .ok now)
    (hadds : m.Adds s.depot.world.freshId now s.depot.store.records r)
    (hstore : s'.depot.store = (s.grown r).depot.store) : m.Stored s s' := by
  have hrecords : s'.depot.store.records = r := by
    rw [hstore]
    rfl
  refine ⟨⟨now, hnow, ?_⟩, ?_, fun hr hvaults haccounts => ?_⟩
  · rw [hrecords]
    exact hadds
  · rw [hrecords, hstore]
    rfl
  · rw [hrecords]
    exact hadds.intact hr hvaults haccounts

/-- **What is typed is what is stored.** The line with the flags that are given says to make the record,
in whatever order they are; and by every line that says so, an interpreter and a bar that wait for one
come to have the record with exactly these values, and are otherwise as they were. -/
theorem stores_of_typed (hm : m.Typable) :
    (∀ flags, flags.Perm m.given → m.Typed (m.line flags)) ∧
    ∀ line, m.Typed line →
      (∀ i : Interpreter, i.Listens → m.Placeable i.session.depot.store.records →
        ∃ entries i' message, Interpreter.submit line i = (.ok entries, i') ∧
          i'.log.last? = some (.success message) ∧ m.Stored i.session i'.session) ∧
      ∀ b : QuickBar, b.Listens → m.Placeable b.session.depot.store.records →
        ∃ b' message, b.submit line = (.ok (some (.success message)), b') ∧
          m.Stored b.session b'.session := by
  refine ⟨fun flags hflags => typed_line hm hflags, fun line hline => ?_⟩
  obtain ⟨l, hl, hcreates, hvalues⟩ := hline.parse
  -- both look the values up in the same line, and each stores them in its own session
  have hcreation : ∀ s : Session, s.depot.store.IsPlain → s.depot.world.ShowsTime →
      m.Placeable s.depot.store.records → ∃ now r message, s.depot.world.now = .ok now ∧
        m.Adds s.depot.world.freshId now s.depot.store.records r ∧
        Session.creationOf l m.kind s = (.ok (.success message), s.grown r) := by
    rintro s hplain ⟨moment, hmoment⟩ hplace
    obtain ⟨now, hnow⟩ := World.now_of_localNow hmoment
    obtain ⟨r, hadds⟩ := hplace.exists_adds s.depot.world.freshId now
    obtain ⟨message, hrun⟩ := Session.creationOf_run hplain hnow hm hvalues hadds
    exact ⟨now, r, message, hnow, hadds, hrun⟩
  constructor
  · intro i hlistens hplace
    obtain ⟨now, r, message, hnow, hadds, hrun⟩ := hcreation i.session hlistens.plain hlistens.rest.time hplace
    obtain ⟨entries, i', hsubmit, hlog, hstore, -⟩ :=
      Interpreter.submit_answering (Session.execute_of_creates hcreates)
        (Session.sound_creationOf l m.kind i.session) hl (Session.isAwaiting_of_idle hlistens.idle)
        hlistens.rest.time hlistens.plain.isOrdinary hlistens.rest.deferred
    rw [hrun] at hlog hstore
    exact ⟨entries, i', message, hsubmit, Interpreter.last?_of_entries hlog,
      stored_of_store hnow hadds hstore⟩
  · intro b hlistens hplace
    obtain ⟨now, r, message, hnow, hadds, hrun⟩ := hcreation b.session hlistens.plain hlistens.time hplace
    obtain ⟨hanswer, hstore, -⟩ :=
      QuickBar.submit_creates hl hcreates hlistens.plain.isOrdinary hlistens.time hlistens.deferred
    rw [hrun] at hanswer hstore
    exact ⟨_, message, Prod.ext hanswer rfl, stored_of_store hnow hadds hstore⟩

/-- An account whose values are hard to tell from the rest of the line: they hold flags, a line feed, and
blanks at their ends. The vault is named in other letters. -/
def sampleMaking : Making := .account "HOME" "a --url b" "--name\nc" " p " "" "--reveal"

/-- A session over one vault. -/
def sampleHousehold : Session :=
  .bare ⟨World.fresh 0 [],
    .inMemory ⟨[⟨"v", "Home", "", Store.sampleMoment, Store.sampleMoment⟩], []⟩⟩

theorem stores_sampleMaking :
    let i := Interpreter.start sampleHousehold
    let b := QuickBar.start sampleHousehold QuickBar.usualLifetime []
    let line := sampleMaking.line sampleMaking.given.reverse
    sampleMaking.Typable ∧ sampleMaking.Typed line ∧ i.Listens ∧ b.Listens ∧
      (∃ entries i' message, Interpreter.submit line i = (.ok entries, i') ∧
        i'.log.last? = some (.success message) ∧ sampleMaking.Stored i.session i'.session) ∧
      ∃ b' message, b.submit line = (.ok (some (.success message)), b') ∧
        sampleMaking.Stored b.session b'.session := by
  have htypable : sampleMaking.Typable := ⟨by decide, by decide⟩
  have hplace : sampleMaking.Placeable sampleHousehold.depot.store.records :=
    ⟨_, List.mem_singleton_self _, by decide +kernel⟩
  have htime : sampleHousehold.depot.world.ShowsTime := ⟨Store.sampleMoment, by decide +kernel⟩
  have hi : (Interpreter.start sampleHousehold).Listens := ⟨⟨rfl, htime⟩, rfl, rfl, rfl⟩
  have hb : (QuickBar.start sampleHousehold QuickBar.usualLifetime []).Listens := ⟨rfl, htime, rfl, rfl⟩
  obtain ⟨htyped, hstored⟩ := stores_of_typed htypable
  have hline := htyped _ (List.reverse_perm sampleMaking.given)
  obtain ⟨hinterpreter, hbar⟩ := hstored _ hline
  exact ⟨htypable, hline, hi, hb, hinterpreter _ hi hplace, hbar _ hb hplace⟩

end Making

end VaultConsole
