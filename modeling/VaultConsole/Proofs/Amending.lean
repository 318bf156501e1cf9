import VaultConsole.Proofs.Interpreter.Answers

/-!
# Updates touch only what was asked

A line that updates a record names it, and gives new values by flags. The record is looked up by its name,
changed by its identifier, and every value passes under three names: that of the flag, that of the update
and that of the field. Where identifiers are unique the record that is changed is the one that was found,
and the fields that change are those whose flag has a value.

* `Line.Updates`, `Line.NamesNone`: lines that update a record, and those that name none.
* `Change`, `Line.vaultChanges`, `Line.accountChanges`: the fields that a line may change.
* `Vault.amendedBy`, `Account.amendedBy`: a record with the values that a line gives.
* `Line.Amends`: the records with that one changed.
* `Session.updateOf_run`: what comes of a line that names a record.
* `Interpreter.amended_of_updates`: **a line changes the first record of the name, in the fields that it
  gives, and nothing else.**
-/

namespace VaultConsole

open Session (sameName)

/-! ## What a line asks for -/

/-- Whether the command of a line is to update a record of a kind. -/
def Line.Updates (l : Line) (kind : Deletable) : Prop := l.verb = kind.word ∧ l.subVerb = "update"

/-- The line names no record of a kind: it gives no name, or one that none of them has. -/
def Line.NamesNone (l : Line) (r : Records) (kind : Deletable) : Prop :=
  ∀ name, l.flag? "name" = some name →
    match kind with
    | .vault => ∀ v ∈ r.vaults, v.name.lower ≠ name.lower
    | .account => ∀ a ∈ r.accounts, a.name.lower ≠ name.lower

/-- A field that may be changed: its key as an update, and the value that it is to have, if any. -/
structure Change (φ : Type) where
  key : Text
  field : φ
  value : Option Text

/-- The fields of a vault, each with the value of its flag. -/
def Line.vaultChanges (l : Line) : List (Change VaultField) :=
  [⟨"name", .name, l.flag? "newname"⟩, ⟨"description", .description, l.flag? "description"⟩]

/-- The fields of an account, each with the value of its flag. -/
def Line.accountChanges (l : Line) : List (Change AccountField) :=
  [⟨"name", .name, l.flag? "newname"⟩, ⟨"username", .username, l.flag? "username"⟩,
    ⟨"password", .password, l.flag? "password"⟩, ⟨"url", .url, l.flag? "url"⟩,
    ⟨"notes", .notes, l.flag? "notes"⟩]

/-- A vault with the values that a line gives. It counts as changed if the line gives one. -/
def Vault.amendedBy (l : Line) (now : Timestamp) (v : Vault) : Vault :=
  { id := v.id
    name := (l.flag? "newname").getD v.name
    description := (l.flag? "description").getD v.description
    created := v.created
    modified := if l.vaultChanges.any (·.value.isSome) then now else v.modified }

@[inherit_doc Vault.amendedBy] def Account.amendedBy (l : Line) (now : Timestamp) (a : Account) : Account :=
  { id := a.id
    vaultId := a.vaultId
    name := (l.flag? "newname").getD a.name
    username := (l.flag? "username").getD a.username
    password := (l.flag? "password").getD a.password
    url := (l.flag? "url").getD a.url
    notes := (l.flag? "notes").getD a.notes
    created := a.created
    modified := if l.accountChanges.any (·.value.isSome) then now else a.modified }

/-- The records in which the first one of the name that a line gives, whatever the case, has the values
that it gives. -/
inductive Line.Amends (l : Line) (now : Timestamp) (r : Records) : Deletable → Records → Prop
  | vault (name : Text) (front : List Vault) (v : Vault) (back : List Vault)
    (flag : l.flag? "name" = some name) (split : r.vaults = front ++ v :: back)
    (same : v.name.lower = name.lower) (others : ∀ u ∈ front, u.name.lower ≠ name.lower) :
    Amends l now r .vault { r with vaults := front ++ v.amendedBy l now :: back }
  | account (name : Text) (front : List Account) (a : Account) (back : List Account)
    (flag : l.flag? "name" = some name) (split : r.accounts = front ++ a :: back)
    (same : a.name.lower = name.lower) (others : ∀ b ∈ front, b.name.lower ≠ name.lower) :
    Amends l now r .account { r with accounts := front ++ a.amendedBy l now :: back }

/-- The value of a flag is what was written for it, if that is not empty. -/
theorem Line.flag?_eq_some_iff {l : Line} {name value : Text} :
    l.flag? name = some value ↔ Table.get? name l.flags.values = some value ∧ value ≠ [] := by
  unfold Line.flag?
  cases hget : Table.get? name l.flags.values with
  | none => simp
  | some v =>
    cases v with
    | nil => simp
    | cons c rest =>
      simp only [List.isEmpty_cons, Bool.false_eq_true, if_false, Option.some.injEq]
      refine ⟨?_, And.left⟩
      rintro rfl
      exact ⟨rfl, List.cons_ne_nil c rest⟩

theorem Line.flag?_ne_some_nil (l : Line) (name : Text) : l.flag? name ≠ some [] := fun h =>
  (flag?_eq_some_iff.1 h).2 rfl

/-! ## From flags to fields -/

namespace Change

variable {φ : Type}

/-- A change as it is asked for. -/
def candidate (c : Change φ) : Text × Option Text := (c.key, c.value)

/-- The field with its value, if it is to have one. -/
def update? (c : Change φ) : Option (φ × Text) := c.value.map (c.field, ·)

variable {changes : List (Change φ)} (h : ∀ c ∈ changes, c.value ≠ some [])
include h

theorem given_candidates :
    Session.given (changes.map candidate) = changes.filterMap fun c => c.value.map (c.key, ·) := by
  induction changes with
  | nil => rfl
  | cons c rest ih =>
    have hrest := ih fun d hd => h d (List.mem_cons_of_mem c hd)
    have hc := h c List.mem_cons_self
    obtain ⟨key, field, value⟩ := c
    cases value with
    | none => exact hrest
    | some value =>
      have hne : value.isEmpty = false := by
        cases value with
        | nil => exact absurd rfl hc
        | cons c rest => rfl
      unfold Session.given at hrest ⊢
      simp only [List.map_cons, candidate, List.filterMap_cons, hne, Bool.false_eq_true, if_false,
        Option.map_some]
      rw [hrest]

theorem isEmpty_given :
    (Session.given (changes.map candidate)).isEmpty = !changes.any (·.value.isSome) := by
  rw [given_candidates h, Bool.eq_iff_iff, List.isEmpty_iff, List.filterMap_eq_nil_iff]
  simp

/-- Updates whose keys name fields come to these fields. -/
theorem fieldsOf_given {ofKey? : Text → Option φ} (hkeys : ∀ c ∈ changes, ofKey? c.key = some c.field) :
    Records.fieldsOf ofKey? (Session.given (changes.map candidate)) =
      .ok (changes.filterMap update?) := by
  have hknown : (Table.keys (Session.given (changes.map candidate))).filter
      (fun key => (ofKey? key).isNone) = [] := by
    rw [List.filter_eq_nil_iff, given_candidates h]
    -- every key that is given is that of a change, and so of a field
    intro key hkey
    obtain ⟨⟨key', value⟩, hmem, rfl⟩ := List.mem_map.1 hkey
    obtain ⟨c, hc, hvalue⟩ := List.mem_filterMap.1 hmem
    obtain ⟨v, -, hpair⟩ := Option.map_eq_some_iff.1 hvalue
    cases hpair
    simp [hkeys c hc]
  unfold Records.fieldsOf
  rw [hknown, given_candidates h, List.filterMap_filterMap]
  simp only
  congr 1
  refine List.filterMap_congr fun c hc => ?_
  cases hvalue : c.value with
  | none => simp [update?, hvalue]
  | some value => simp [update?, hvalue, hkeys c hc]

end Change

section
variable (l : Line) (now : Timestamp)

theorem Line.value_vaultChanges : ∀ c ∈ l.vaultChanges, c.value ≠ some [] := by
  simp [vaultChanges, l.flag?_ne_some_nil]

theorem Line.value_accountChanges : ∀ c ∈ l.accountChanges, c.value ≠ some [] := by
  simp [accountChanges, l.flag?_ne_some_nil]

theorem Line.field_vaultChanges : ∀ c ∈ l.vaultChanges, VaultField.ofKey? c.key = some c.field := by
  simp only [vaultChanges, List.forall_mem_cons, List.not_mem_nil, false_implies, implies_true, and_true]
  decide

theorem Line.field_accountChanges : ∀ c ∈ l.accountChanges, AccountField.ofKey? c.key = some c.field := by
  simp only [accountChanges, List.forall_mem_cons, List.not_mem_nil, false_implies, implies_true, and_true]
  decide

theorem Vault.amend_changes (h : l.vaultChanges.any (·.value.isSome) = true) (v : Vault) :
    v.amend (l.vaultChanges.filterMap Change.update?) now = v.amendedBy l now := by
  rw [amendedBy, if_pos h]
  unfold Line.vaultChanges
  cases l.flag? "newname" <;> cases l.flag? "description" <;> rfl

theorem Vault.amendedBy_of_none (h : l.vaultChanges.any (·.value.isSome) = false) (v : Vault) :
    v.amendedBy l now = v := by
  have hnone : l.flag? "newname" = none ∧ l.flag? "description" = none := by
    simpa [Line.vaultChanges] using h
  simp [amendedBy, h, hnone]

theorem Account.amend_changes (h : l.accountChanges.any (·.value.isSome) = true) (a : Account) :
    a.amend (l.accountChanges.filterMap Change.update?) now = a.amendedBy l now := by
  rw [amendedBy, if_pos h]
  unfold Line.accountChanges
  cases l.flag? "newname" <;> cases l.flag? "username" <;> cases l.flag? "password" <;>
    cases l.flag? "url" <;> cases l.flag? "notes" <;> rfl

theorem Account.amendedBy_of_none (h : l.accountChanges.any (·.value.isSome) = false) (a : Account) :
    a.amendedBy l now = a := by
  have hnone : l.flag? "newname" = none ∧ l.flag? "username" = none ∧ l.flag? "password" = none ∧
      l.flag? "url" = none ∧ l.flag? "notes" = none := by
    simpa [Line.accountChanges] using h
  simp [amendedBy, h, hnone]

end

/-! ## The record that changes -/

section
variable {α : Type} {front back : List α} {x : α}

/-- The first item that meets a condition changes where it stands. -/
theorem Records.changeFirst_of_split {p : α → Bool} (f : α → α) (hfront : ∀ y ∈ front, p y = false)
    (hx : p x = true) : changeFirst p f (front ++ x :: back) = some (front ++ f x :: back) := by
  induction front with
  | nil => rw [List.nil_append, changeFirst, if_pos hx]; rfl
  | cons y rest ih =>
    have hy := hfront y List.mem_cons_self
    rw [List.cons_append, changeFirst, ih fun z hz => hfront z (List.mem_cons_of_mem y hz)]
    simp [hy]

/-- Where identifiers are unique no item before one has its identifier. -/
theorem id_ne_of_nodup {id : α → Text} (h : ((front ++ x :: back).map id).Nodup) :
    ∀ y ∈ front, (id y == id x) = false := by
  intro y hy
  rw [List.map_append, List.map_cons] at h
  rw [beq_eq_false_iff_ne]
  exact (List.nodup_append.1 h).2.2 _ (List.mem_map_of_mem hy) _ List.mem_cons_self

/-- The first item of a name is found, whatever the case. -/
theorem find?_of_split (nameOf : α → Text) {name : Text} (hx : (nameOf x).lower = name.lower)
    (hfront : ∀ y ∈ front, (nameOf y).lower ≠ name.lower) :
    (front ++ x :: back).find? (fun y => sameName (nameOf y) name) = some x := by
  rw [List.find?_eq_some_iff_append]
  refine ⟨beq_iff_eq.2 hx, front, back, rfl, fun y hy => ?_⟩
  rw [sameName, beq_eq_false_iff_ne.2 (hfront y hy)]
  rfl

end

namespace Depot

variable {d : Depot} (h : d.store.IsPlain) {now : Timestamp} (hnow : d.world.now = .ok now)
include h hnow

theorem updateVault_run {front : List Vault} {v : Vault} {back : List Vault} {updates : Table Text Text}
    {fields : List (VaultField × Text)} (hsplit : d.store.records.vaults = front ++ v :: back)
    (hfront : ∀ u ∈ front, (u.id == v.id) = false)
    (hfields : Records.fieldsOf VaultField.ofKey? updates = .ok fields) :
    updateVault v.id updates d =
      (.ok (.own true),
        d.withRecords { d.store.records with vaults := front ++ v.amend fields now :: back }) := by
  have hchange : d.store.records.updateVault v.id fields now =
      some { d.store.records with vaults := front ++ v.amend fields now :: back } := by
    unfold Records.updateVault Records.changeVault
    rw [hsplit, Records.changeFirst_of_split _ hfront (beq_self_eq_true _)]
    rfl
  have hplan : (Mutation.updateVault v.id updates).plan d.world d.store.records =
      .change (.found true)
        { d.store.records with vaults := front ++ v.amend fields now :: back } := by
    unfold Mutation.plan Mutation.planUpdate
    simp only [hfields, hnow, hchange]
    rfl
  exact Mutation.run_memory_own (fun _ _ => Outcome.found.inj) rfl h hplan

theorem updateAccount_run {front : List Account} {a : Account} {back : List Account}
    {updates : Table Text Text} {fields : List (AccountField × Text)}
    (hsplit : d.store.records.accounts = front ++ a :: back)
    (hfront : ∀ b ∈ front, (b.id == a.id) = false)
    (hfields : Records.fieldsOf AccountField.ofKey? updates = .ok fields) :
    updateAccount a.id updates d =
      (.ok (.own true),
        d.withRecords { d.store.records with accounts := front ++ a.amend fields now :: back }) := by
  have hchange : d.store.records.updateAccount a.id fields now =
      some { d.store.records with accounts := front ++ a.amend fields now :: back } := by
    unfold Records.updateAccount Records.changeAccount
    rw [hsplit, Records.changeFirst_of_split _ hfront (beq_self_eq_true _)]
    rfl
  have hplan : (Mutation.updateAccount a.id updates).plan d.world d.store.records =
      .change (.found true)
        { d.store.records with accounts := front ++ a.amend fields now :: back } := by
    unfold Mutation.plan Mutation.planUpdate
    simp only [hfields, hnow, hchange]
    rfl
  exact Mutation.run_memory_own (fun _ _ => Outcome.found.inj) rfl h hplan

end Depot

namespace Session

variable {l : Line} {kind : Deletable} {s : Session}

/-- A session with other records in its store. -/
def withRecords (r : Records) (s : Session) : Session := { s with depot := s.depot.withRecords r }

/-- The update of a record of a kind that a line asks for. -/
def updateOf (l : Line) : Deletable → Act Failure Session Entry
  | .vault => executeVault l .update
  | .account => do
    let name ← required AccountAction.update.manual "name" l
    updateAccount name (l.flag? "newname") (l.flag? "username") (l.flag? "password") (l.flag? "url")
      (l.flag? "notes")

theorem execute_of_updates (hl : l.Updates kind) : execute l = answering (updateOf l kind) := by
  obtain ⟨hverb, haction⟩ := hl
  cases kind with
  | vault =>
    rw [execute_of_verb (Verb.ofToken?_eq_vault.2 hverb), executeVerb, haction]
    rfl
  | account =>
    rw [execute_of_verb (Verb.ofToken?_eq_account.2 hverb), executeVerb, haction]
    rfl

theorem sound_updateOf (l : Line) (kind : Deletable) : (updateOf l kind).Sound Steady Blames := by
  cases kind with
  | vault => exact sound_executeVault l .update
  | account => exact (sound_required _ _ l).bind fun _ => sound_updateAccount _ _ _ _ _ _

section
variable (h : s.depot.store.IsPlain)
include h

/-- A line that names no record fails, and changes nothing. -/
theorem updateOf_run_of_none (hl : l.NamesNone s.depot.store.records kind) :
    ∃ failure, updateOf l kind s = (.error failure, s) := by
  cases hname : l.flag? "name" with
  | none =>
    cases kind with
    | vault =>
      refine ⟨.usage VaultAction.update.manual.usage, ?_⟩
      show (required _ _ l >>= _ : Act Failure Session Entry) s = _
      rw [Act.run_bind, required_of_none hname]
      rfl
    | account =>
      refine ⟨.usage AccountAction.update.manual.usage, ?_⟩
      show (required _ _ l >>= _ : Act Failure Session Entry) s = _
      rw [Act.run_bind, required_of_none hname]
      rfl
  | some name =>
    have hnone := hl name hname
    cases kind with
    | vault =>
      have hfind : s.depot.store.records.vaults.find? (sameName ·.name name) = none :=
        List.find?_eq_none.2 fun v hv hsame => hnone v hv (beq_iff_eq.1 hsame)
      refine ⟨.noSuchVault name, ?_⟩
      show (required _ _ l >>= _ : Act Failure Session Entry) s = _
      rw [Act.run_bind, required_of_some hname, Act.after_ok]
      show (findVault name >>= _ : Act Failure Session Entry) s = _
      rw [Act.run_bind, findVault_run h, hfind]
      rfl
    | account =>
      have hfind : s.depot.store.records.accounts.find? (sameName ·.name name) = none :=
        List.find?_eq_none.2 fun a ha hsame => hnone a ha (beq_iff_eq.1 hsame)
      refine ⟨.noSuchAccount name, ?_⟩
      show (required _ _ l >>= _ : Act Failure Session Entry) s = _
      rw [Act.run_bind, required_of_some hname, Act.after_ok]
      show (findAccount name >>= _ : Act Failure Session Entry) s = _
      rw [Act.run_bind, findAccount_run h, hfind]
      rfl

variable {now : Timestamp} (hnow : s.depot.world.now = .ok now)
include hnow

theorem updateVault_run {name : Text} {front : List Vault} {v : Vault} {back : List Vault}
    (hsplit : s.depot.store.records.vaults = front ++ v :: back)
    (hfind : s.depot.store.records.vaults.find? (sameName ·.name name) = some v)
    (hfront : ∀ u ∈ front, (u.id == v.id) = false) :
    updateVault name (l.flag? "newname") (l.flag? "description") s =
      (.ok (.success ("Vault " ++ Failure.named name ++ " updated successfully.")),
        s.withRecords { s.depot.store.records with vaults := front ++ v.amendedBy l now :: back }) := by
  have hgiven : given [("name", l.flag? "newname"), ("description", l.flag? "description")] =
      given (l.vaultChanges.map Change.candidate) := rfl
  have hempty := Change.isEmpty_given l.value_vaultChanges
  have hfields := Change.fieldsOf_given l.value_vaultChanges l.field_vaultChanges
  have hupdate := Depot.updateVault_run h hnow hsplit hfront hfields
  unfold updateVault
  rw [Act.run_bind, findVault_run h, hfind, Act.after_ok, hgiven]
  simp only [hempty]
  cases hany : l.vaultChanges.any (·.value.isSome) with
  | false =>
    -- without a value the store is not asked, so the time of the vault stays
    rw [Vault.amendedBy_of_none l now hany, ← hsplit]
    rfl
  | true =>
    rw [← Vault.amend_changes l now hany]
    simp only [Bool.not_true, Bool.not_false, if_true]
    rw [Act.run_bind, inDepot, Act.run_within, hupdate]
    rfl

theorem updateAccount_run {name : Text} {front : List Account} {a : Account} {back : List Account}
    (hsplit : s.depot.store.records.accounts = front ++ a :: back)
    (hfind : s.depot.store.records.accounts.find? (sameName ·.name name) = some a)
    (hfront : ∀ b ∈ front, (b.id == a.id) = false) :
    updateAccount name (l.flag? "newname") (l.flag? "username") (l.flag? "password") (l.flag? "url")
        (l.flag? "notes") s =
      (.ok (.success ("Account " ++ Failure.named name ++ " updated successfully.")),
        s.withRecords { s.depot.store.records with accounts := front ++ a.amendedBy l now :: back }) := by
  have hgiven : given [("name", l.flag? "newname"), ("username", l.flag? "username"),
      ("password", l.flag? "password"), ("url", l.flag? "url"), ("notes", l.flag? "notes")] =
      given (l.accountChanges.map Change.candidate) := rfl
  have hempty := Change.isEmpty_given l.value_accountChanges
  have hfields := Change.fieldsOf_given l.value_accountChanges l.field_accountChanges
  have hupdate := Depot.updateAccount_run h hnow hsplit hfront hfields
  unfold updateAccount
  rw [Act.run_bind, findAccount_run h, hfind, Act.after_ok, hgiven]
  simp only [hempty]
  cases hany : l.accountChanges.any (·.value.isSome) with
  | false =>
    rw [Account.amendedBy_of_none l now hany, ← hsplit]
    rfl
  | true =>
    rw [← Account.amend_changes l now hany]
    simp only [Bool.not_true, Bool.not_false, if_true]
    rw [Act.run_bind, inDepot, Act.run_within, hupdate]
    rfl

/-- **What comes of a line that names a record**, where identifiers are unique: the first record of the
name has the values that the line gives. -/
theorem updateOf_run (hvaults : (s.depot.store.records.vaults.map (·.id)).Nodup)
    (haccounts : (s.depot.store.records.accounts.map (·.id)).Nodup) {r : Records}
    (hl : l.Amends now s.depot.store.records kind r) :
    ∃ message, updateOf l kind s = (.ok (.success message), s.withRecords r) := by
  cases hl with
  | vault name front v back flag split same others =>
    rw [split] at hvaults
    have hfind : (front ++ v :: back).find? (sameName ·.name name) = some v :=
      find?_of_split Vault.name same others
    rw [← split] at hfind
    refine ⟨"Vault " ++ Failure.named name ++ " updated successfully.", ?_⟩
    show (required _ _ l >>= _ : Act Failure Session Entry) s = _
    rw [Act.run_bind, required_of_some flag, Act.after_ok]
    exact updateVault_run h hnow split hfind (id_ne_of_nodup hvaults)
  | account name front a back flag split same others =>
    rw [split] at haccounts
    have hfind : (front ++ a :: back).find? (sameName ·.name name) = some a :=
      find?_of_split Account.name same others
    rw [← split] at hfind
    refine ⟨"Account " ++ Failure.named name ++ " updated successfully.", ?_⟩
    show (required _ _ l >>= _ : Act Failure Session Entry) s = _
    rw [Act.run_bind, required_of_some flag, Act.after_ok]
    exact updateAccount_run h hnow split hfind (id_ne_of_nodup haccounts)

end

end Session

/-! ## The line in an interpreter -/

/-- A list of which an item has a name is split at the first one. -/
theorem exists_split_of_name {α : Type} (nameOf : α → Text) {items : List α} {name : Text}
    (h : ¬ ∀ x ∈ items, (nameOf x).lower ≠ name.lower) :
    ∃ front x back, items = front ++ x :: back ∧ (nameOf x).lower = name.lower ∧
      ∀ y ∈ front, (nameOf y).lower ≠ name.lower := by
  push Not at h
  obtain ⟨x, hx, hsame⟩ := h
  have hsome : (items.find? fun y => sameName (nameOf y) name).isSome :=
    List.find?_isSome.2 ⟨x, hx, beq_iff_eq.2 hsame⟩
  obtain ⟨first, hfirst⟩ := Option.isSome_iff_exists.1 hsome
  obtain ⟨hname, front, back, hsplit, hfront⟩ := List.find?_eq_some_iff_append.1 hfirst
  refine ⟨front, first, back, hsplit, beq_iff_eq.1 hname, fun y hy heq => ?_⟩
  have hother := hfront y hy
  rw [sameName, beq_iff_eq.2 heq] at hother
  cases hother

/-- A line that does not name no record names one. -/
theorem Line.exists_amends {l : Line} {r : Records} {kind : Deletable} (h : ¬ l.NamesNone r kind)
    (now : Timestamp) : ∃ r', l.Amends now r kind r' := by
  unfold NamesNone at h
  push Not at h
  obtain ⟨name, hname, hnot⟩ := h
  cases kind with
  | vault =>
    obtain ⟨front, v, back, hsplit, hsame, hfront⟩ := exists_split_of_name Vault.name hnot
    exact ⟨_, .vault name front v back hname hsplit hsame hfront⟩
  | account =>
    obtain ⟨front, a, back, hsplit, hsame, hfront⟩ := exists_split_of_name Account.name hnot
    exact ⟨_, .account name front a back hname hsplit hsame hfront⟩

namespace Interpreter

/-- What a line that updates a record of a kind leaves of an interpreter. -/
structure Amended (l : Line) (kind : Deletable) (i i' : Interpreter) : Prop where
  /-- A line that names no record is answered with an error, and the store is unchanged. -/
  refused : l.NamesNone i.session.depot.store.records kind →
    i'.session.depot.store = i.session.depot.store ∧
      ∃ message, i'.log.last? = some (.error message)
  /-- Any other line changes the first record of the name in the fields that it gives, and nothing else
  of the store. -/
  amended : ¬ l.NamesNone i.session.depot.store.records kind →
    ∃ now r message, i.session.depot.world.now = .ok now ∧
      l.Amends now i.session.depot.store.records kind r ∧
      i'.session.depot.store = { i.session.depot.store with records := r } ∧
      i'.log.last? = some (.success message)

/-- **Updates touch only what was asked.** Where identifiers are unique, a line that is to update a record
changes the first one of the name that it gives, in the fields that it gives. -/
theorem amended_of_updates {line : Text} {l : Line} {kind : Deletable} {i : Interpreter}
    (hlistens : i.Listens) (hvaults : (i.session.depot.store.records.vaults.map (·.id)).Nodup)
    (haccounts : (i.session.depot.store.records.accounts.map (·.id)).Nodup)
    (hl : Line.parse line = some l) (hupdates : l.Updates kind) :
    ∃ entries i', submit line i = (.ok entries, i') ∧ Amended l kind i i' := by
  obtain ⟨entries, i', hsubmit, hlog, hstore, -⟩ :=
    submit_answering (Session.execute_of_updates hupdates) (Session.sound_updateOf l kind i.session) hl
      (Session.isAwaiting_of_idle hlistens.idle) hlistens.rest.time hlistens.plain.isOrdinary
      hlistens.rest.deferred
  have hlast := last?_of_entries hlog
  refine ⟨entries, i', hsubmit, fun hnone => ?_, fun hnamed => ?_⟩
  · obtain ⟨failure, hrun⟩ := Session.updateOf_run_of_none hlistens.plain hnone
    rw [hrun] at hlast hstore
    exact ⟨hstore, failure.told, hlast⟩
  · obtain ⟨moment, hmoment⟩ := hlistens.rest.time
    obtain ⟨now, hnow⟩ := World.now_of_localNow hmoment
    obtain ⟨r, hamends⟩ := l.exists_amends hnamed now
    obtain ⟨message, hrun⟩ := Session.updateOf_run hlistens.plain hnow hvaults haccounts hamends
    rw [hrun] at hlast hstore
    exact ⟨now, r, message, hnow, hamends, hstore, hlast⟩

/-- A session over two vaults, whose names differ in case only, and an account. -/
def sampleNamesakes : Session :=
  .bare ⟨World.fresh 0 [],
    .inMemory ⟨[⟨"v", "Home", "old", Store.sampleMoment, Store.sampleMoment⟩,
        ⟨"w", "HOME", "", Store.sampleMoment, Store.sampleMoment⟩],
      [⟨"a", "v", "Mail", "me", "pw", "", "", Store.sampleMoment, Store.sampleMoment⟩]⟩⟩

/-- A line that gives the vault another name. The description that it gives is empty. -/
def sampleRenaming : Line :=
  { raw := "vault update --name home --newname \"--description\" --description \"\""
    verb := "vault"
    subVerb := "update"
    remainder := "update --name home --newname \"--description\" --description \"\""
    flags := Flags.parse "vault update --name home --newname \"--description\" --description \"\"" }

theorem amended_sampleRenaming :
    (start sampleNamesakes).Listens ∧
      (sampleNamesakes.depot.store.records.vaults.map (·.id)).Nodup ∧
      (sampleNamesakes.depot.store.records.accounts.map (·.id)).Nodup ∧
      Line.parse sampleRenaming.raw = some sampleRenaming ∧ sampleRenaming.Updates .vault ∧
      ¬ sampleRenaming.NamesNone sampleNamesakes.depot.store.records .vault ∧
      ∃ entries i', submit sampleRenaming.raw (start sampleNamesakes) = (.ok entries, i') ∧
        Amended sampleRenaming .vault (start sampleNamesakes) i' := by
  have htime : sampleNamesakes.depot.world.ShowsTime := ⟨Store.sampleMoment, by decide +kernel⟩
  have hlistens : (start sampleNamesakes).Listens := ⟨⟨rfl, htime⟩, rfl, rfl, rfl⟩
  have hvaults : (sampleNamesakes.depot.store.records.vaults.map (·.id)).Nodup := by decide
  have haccounts : (sampleNamesakes.depot.store.records.accounts.map (·.id)).Nodup := by decide
  have hl : Line.parse sampleRenaming.raw = some sampleRenaming := by decide +kernel
  have hupdates : sampleRenaming.Updates .vault := ⟨rfl, rfl⟩
  have hname : sampleRenaming.flag? "name" = some "home" := by decide +kernel
  have hnamed : ¬ sampleRenaming.NamesNone sampleNamesakes.depot.store.records .vault := fun hnone =>
    hnone "home" hname _ List.mem_cons_self (by decide +kernel)
  exact ⟨hlistens, hvaults, haccounts, hl, hupdates, hnamed,
    amended_of_updates hlistens hvaults haccounts hl hupdates⟩

/-- The first vault of the name is called like a flag now; the second one and both descriptions stay. -/
example :
    (submit sampleRenaming.raw (start sampleNamesakes)).2.session.depot.store.records.vaults.map
        (fun v => (v.name, v.description)) =
      ([("--description", "old"), ("HOME", "")] : List (Text × Text)) := by
  decide +kernel

end Interpreter

end VaultConsole
