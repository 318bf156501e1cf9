import VaultConsole.Proofs.Session.Calm

/-!
# Asking for a deletion

A line asks for a deletion if its command is to delete a vault or an account and there is a record
of the name that it gives; the first such record is the target. While no deletion waits, such a line
puts its deletion behind the gate, and every other line leaves the gate as it is.

* `Line.Deletes`, `Line.AsksFor`: the command, and the deletion that a line asks for.
* `Line.AsksFor.fits`: what a line asks for fits the records.
* `Session.keeps_execute`: a line with another command is calm.
* `Session.execute_deletion`: **what a line does whose command is to delete.**
-/

namespace VaultConsole

/-! ## The words for it -/

theorem Verb.name_of_ofToken? {token : Text} {verb : Verb} (h : ofToken? token = some verb) :
    verb.name = unalias token := by
  have hname := List.find?_some h
  exact of_decide_eq_true hname

/-- Only the words for leaving and for help have other spellings. -/
theorem Verb.eq_of_unalias {token word : Text} (h : word = unalias token) (hexit : word ≠ "exit")
    (hhelp : word ≠ "help") : token = word := by
  unfold unalias at h
  split at h
  · exact absurd h hexit
  · split at h
    · exact absurd h hhelp
    · exact h.symm

theorem Verb.ofToken?_eq_vault {token : Text} : ofToken? token = some vault ↔ token = "vault" := by
  constructor
  · exact fun h => eq_of_unalias (name_of_ofToken? h) (by decide) (by decide)
  · rintro rfl
    decide

theorem Verb.ofToken?_eq_account {token : Text} :
    ofToken? token = some account ↔ token = "account" := by
  constructor
  · exact fun h => eq_of_unalias (name_of_ofToken? h) (by decide) (by decide)
  · rintro rfl
    decide

theorem Verb.ofToken?_eq_search {token : Text} :
    ofToken? token = some search ↔ token = "search" := by
  constructor
  · exact fun h => eq_of_unalias (name_of_ofToken? h) (by decide) (by decide)
  · rintro rfl
    decide

theorem unaliasAction_eq_delete {token : Text} :
    unaliasAction token = "delete" ↔ token = "delete" ∨ token = "rm" := by
  unfold unaliasAction
  split
  · next h =>
    rw [h]
    decide
  · split
    · next h => simp [h]
    · next h => simp [h]

theorem name_of_selectAction {α : Type} {domain token : Text} {actions : List α} {name : α → Text}
    {action : α} (h : selectAction domain actions name token = .ok action) :
    name action = unaliasAction token := by
  unfold selectAction at h
  split at h
  · next found hfound =>
    cases h
    have hname := List.find?_some hfound
    exact of_decide_eq_true hname
  · cases h

theorem VaultAction.select_eq_delete {token : Text} :
    select all token = .ok delete ↔ token = "delete" ∨ token = "rm" := by
  rw [← unaliasAction_eq_delete]
  refine ⟨fun h => (name_of_selectAction h).symm, fun h => ?_⟩
  unfold select selectAction
  rw [h]
  rfl

theorem AccountAction.select_eq_delete {token : Text} :
    select all token = .ok delete ↔ token = "delete" ∨ token = "rm" := by
  rw [← unaliasAction_eq_delete]
  refine ⟨fun h => (name_of_selectAction h).symm, fun h => ?_⟩
  unfold select selectAction
  rw [h]
  rfl

/-- Whether the command of a line is to delete a record of a kind. -/
def Line.Deletes (l : Line) (kind : Deletable) : Prop :=
  l.verb = kind.word ∧ (l.subVerb = "delete" ∨ l.subVerb = "rm")

/-- The deletion that a line asks for among records. The target is the first record of the name that
the line gives, whatever the case. -/
inductive Line.AsksFor (l : Line) (r : Records) : Deletion → Prop
  | vault (command : l.Deletes .vault) {name : Text} (flag : l.flag? "name" = some name) {v : Vault}
      (first : r.vaults.find? (Session.sameName ·.name name) = some v) :
      AsksFor l r
        { kind := .vault, targetId := v.id, targetName := v.name
          cascade := (r.accounts.filter (·.vaultId == v.id)).length }
  | account (command : l.Deletes .account) {name : Text} (flag : l.flag? "name" = some name)
      {a : Account} (first : r.accounts.find? (Session.sameName ·.name name) = some a) :
      AsksFor l r { kind := .account, targetId := a.id, targetName := a.name, cascade := 0 }

/-- A line asks for one deletion only. -/
theorem Line.AsksFor.eq {l : Line} {r : Records} {d d' : Deletion} (h : l.AsksFor r d)
    (h' : l.AsksFor r d') : d = d' := by
  cases h with
  | vault command flag first =>
    cases h' with
    | vault command' flag' first' =>
      cases flag.symm.trans flag'
      cases first.symm.trans first'
      rfl
    | account command' _ _ => exact absurd (command.1.symm.trans command'.1) (by decide)
  | account command flag first =>
    cases h' with
    | vault command' _ _ => exact absurd (command.1.symm.trans command'.1) (by decide)
    | account command' flag' first' =>
      cases flag.symm.trans flag'
      cases first.symm.trans first'
      rfl

/-- What a line asks for fits the records. -/
theorem Line.AsksFor.fits {l : Line} {r : Records} {d : Deletion} (h : l.AsksFor r d) : d.Fits r := by
  cases h with
  | vault command flag first =>
    exact ⟨List.any_eq_true.2 ⟨_, List.mem_of_find?_eq_some first, beq_self_eq_true _⟩, rfl⟩
  | account command flag first =>
    exact List.any_eq_true.2 ⟨_, List.mem_of_find?_eq_some first, beq_self_eq_true _⟩

/-- The question about a vault names the accounts that go with it by their number. -/
theorem Deletion.Fits.prompt_eq {d : Deletion} {r : Records} (h : d.Fits r) (hkind : d.kind = .vault) :
    Session.confirmationPrompt d =
      "WARNING: Delete vault " ++ Failure.named d.targetName ++ "? This will also delete "
        ++ Text.ofNat d.cascade.toNat ++ " account(s). "
        ++ "Type \"yes\" to confirm or \"cancel\" to abort." := by
  rw [Fits, hkind] at h
  have hnumber : Text.ofInt d.cascade = Text.ofNat d.cascade.toNat := by
    rw [h.2, Int.toNat_natCast]
    rfl
  rw [Session.confirmationPrompt, hkind, hnumber]

namespace Session

/-! ## Lines that ask for something else -/

theorem execute_of_verb {l : Line} {verb : Verb} (h : Verb.ofToken? l.verb = some verb) :
    execute l = executeVerb l verb := by
  unfold execute verbOf
  rw [h]
  rfl

theorem keeps_executeVault {l : Line} {action : VaultAction} (h : action ≠ .delete) :
    (executeVault l action).Keeps Calm := by
  cases action with
  | list => exact keeps_listVaults
  | create => exact (Act.Keeps.settle _).bind fun name => keeps_createVault _ _
  | update => exact (Act.Keeps.settle _).bind fun name => keeps_updateVault _ _ _
  | delete => exact absurd rfl h
  | detail => exact (Act.Keeps.settle _).bind fun name => keeps_showVault _

theorem keeps_executeAccountCreate (l : Line) : (executeAccountCreate l).Keeps Calm := by
  refine (Act.Keeps.settle _).bind fun vault => (Act.Keeps.settle _).bind fun name => ?_
  refine (Act.Keeps.settle _).bind fun username => (Act.Keeps.settle _).bind fun password => ?_
  exact keeps_createAccount _ _ _ _ _ _

theorem keeps_answering {act : Act Failure Session Entry} (h : act.Keeps Calm) :
    (answering act).Keeps Calm := h.bind fun _ => .pure _

theorem keeps_executeAccount {l : Line} {action : AccountAction} (h : action ≠ .delete) :
    (executeAccount l action).Keeps Calm := by
  cases action with
  | list => exact keeps_answering (keeps_listAccounts _)
  | create => exact keeps_answering (keeps_executeAccountCreate l)
  | update =>
    exact keeps_answering ((Act.Keeps.settle _).bind fun name => keeps_updateAccount _ _ _ _ _ _)
  | delete => exact absurd rfl h
  | detail => exact keeps_answering ((Act.Keeps.settle _).bind fun name => keeps_showAccount _ _)
  | password =>
    have hsecret : (secretAccountOf l).Keeps Calm :=
      (Act.Keeps.settle _).bind fun name => keeps_secretOf _
    exact hsecret.bind fun account => .pure _

theorem keeps_executeHelp (l : Line) : (executeHelp l).Keeps Calm := by
  refine .ite (.pure _) ((Act.Keeps.settle _).bind fun entry => .pure _)

/-- A line whose command is not to delete is calm. -/
theorem keeps_execute {l : Line} (h : ∀ kind, ¬ l.Deletes kind) : (execute l).Keeps Calm := by
  cases hv : Verb.ofToken? l.verb with
  | none =>
    intro s
    unfold execute verbOf
    rw [hv]
    exact Std.Refl.refl s
  | some verb =>
    rw [execute_of_verb hv]
    cases verb with
    | help => exact keeps_answering (keeps_executeHelp l)
    | clear => exact .pure _
    | exit => exact keeps_answering keeps_requestExit
    | openPage => exact keeps_answering (keeps_openPage _)
    | vault =>
      intro s
      -- the action could only be to delete if the line had the words for it
      have hno : VaultAction.select VaultAction.all l.subVerb ≠ .ok .delete := fun ha =>
        h .vault ⟨Verb.ofToken?_eq_vault.1 hv, VaultAction.select_eq_delete.1 ha⟩
      cases ha : VaultAction.select VaultAction.all l.subVerb with
      | error failure =>
        rw [executeVerb, ha]
        exact Std.Refl.refl s
      | ok action =>
        have haction : action ≠ .delete := fun he => hno (he ▸ ha)
        rw [executeVerb, ha]
        exact keeps_answering (keeps_executeVault haction) s
    | account =>
      intro s
      have hno : AccountAction.select AccountAction.all l.subVerb ≠ .ok .delete := fun ha =>
        h .account ⟨Verb.ofToken?_eq_account.1 hv, AccountAction.select_eq_delete.1 ha⟩
      cases ha : AccountAction.select AccountAction.all l.subVerb with
      | error failure =>
        rw [executeVerb, ha]
        exact Std.Refl.refl s
      | ok action =>
        have haction : action ≠ .delete := fun he => hno (he ▸ ha)
        rw [executeVerb, ha]
        exact keeps_executeAccount haction s
    | search => exact keeps_answering (keeps_search _)
    | stats => exact keeps_answering keeps_stats

/-! ## Lines that ask for a deletion -/

section
variable {s : Session} (h : s.depot.store.faults = [])
include h

/-- Where nothing is out of order all vaults are listed. -/
theorem inDepot_listVaults_of_orderly :
    inDepot Depot.listVaults s = (.ok (.own s.depot.store.records.vaults), s) := by
  unfold inDepot Depot.listVaults
  have hlisted : s.depot.store.listed .listVaults = s.depot.store.records :=
    Store.listed_of_none (by rw [h]; rfl)
  rw [Act.run_within, Depot.unlessFaulty_eq (by rw [h]; rfl), Act.run_map, Act.run_look, hlisted]
  rfl

theorem inDepot_listAccounts_of_orderly :
    inDepot Depot.listAccounts s = (.ok (.own s.depot.store.records.accounts), s) := by
  unfold inDepot Depot.listAccounts
  have hlisted : s.depot.store.listed .listAccounts = s.depot.store.records :=
    Store.listed_of_none (by rw [h]; rfl)
  rw [Act.run_within, Depot.unlessFaulty_eq (by rw [h]; rfl), Act.run_map, Act.run_look, hlisted]
  rfl

theorem vaultsWith_of_orderly (field : Text) :
    vaultsWith field s = (.ok s.depot.store.records.vaults, s) := by
  unfold vaultsWith
  rw [Act.run_bind, inDepot_listVaults_of_orderly h]
  rfl

theorem accountsWith_of_orderly (field : Text) :
    accountsWith field s = (.ok s.depot.store.records.accounts, s) := by
  unfold accountsWith
  rw [Act.run_bind, inDepot_listAccounts_of_orderly h]
  rfl

end

theorem required_of_some {manual : Manual} {l : Line} {name value : Text} (h : l.flag? name = some value)
    (s : Session) : required manual name l s = (.ok value, s) := by
  unfold required Line.requireFlag
  rw [h]
  rfl

theorem required_of_none {manual : Manual} {l : Line} {name : Text} (h : l.flag? name = none)
    (s : Session) : required manual name l s = (.error (.usage manual.usage), s) := by
  unfold required Line.requireFlag
  rw [h]
  rfl

section
variable {s : Session} (h : s.depot.store.IsPlain)
include h

theorem vaultsWith_run (field : Text) :
    vaultsWith field s = (.ok s.depot.store.records.vaults, s) := vaultsWith_of_orderly h.2 field

theorem accountsWith_run (field : Text) :
    accountsWith field s = (.ok s.depot.store.records.accounts, s) := accountsWith_of_orderly h.2 field

theorem accountsIn_run (vaultId : Text) :
    accountsIn vaultId s =
      (.ok (s.depot.store.records.accounts.filter (·.vaultId == vaultId)), s) := by
  unfold accountsIn
  rw [Act.run_bind, accountsWith_run h]
  rfl

theorem findVault_run (name : Text) :
    findVault name s =
      ((match s.depot.store.records.vaults.find? (sameName ·.name name) with
        | some v => .ok v
        | none => .error (.noSuchVault name)), s) := by
  unfold findVault
  rw [Act.run_bind, vaultsWith_run h, Act.after_ok]
  cases s.depot.store.records.vaults.find? (sameName ·.name name) <;> rfl

theorem planVaultDeletion_run (name : Text) :
    planVaultDeletion name s =
      ((match s.depot.store.records.vaults.find? (sameName ·.name name) with
        | some v => .ok
          { kind := .vault, targetId := v.id, targetName := v.name
            cascade := (s.depot.store.records.accounts.filter (·.vaultId == v.id)).length }
        | none => .error (.noSuchVault name)), s) := by
  unfold planVaultDeletion
  rw [Act.run_bind, findVault_run h]
  cases s.depot.store.records.vaults.find? (sameName ·.name name) with
  | none => rfl
  | some v =>
    rw [Act.after_ok, Act.run_bind, accountsIn_run h]
    rfl

theorem findAccount_run (name : Text) :
    findAccount name s =
      ((match s.depot.store.records.accounts.find? (sameName ·.name name) with
        | some a => .ok a
        | none => .error (.noSuchAccount name)), s) := by
  unfold findAccount
  rw [Act.run_bind, accountsWith_run h, Act.after_ok]
  cases s.depot.store.records.accounts.find? (sameName ·.name name) <;> rfl

theorem planAccountDeletion_run (name : Text) :
    planAccountDeletion name s =
      ((match s.depot.store.records.accounts.find? (sameName ·.name name) with
        | some a => .ok { kind := .account, targetId := a.id, targetName := a.name, cascade := 0 }
        | none => .error (.noSuchAccount name)), s) := by
  unfold planAccountDeletion
  rw [Act.run_bind, findAccount_run h]
  cases s.depot.store.records.accounts.find? (sameName ·.name name) <;> rfl

/-- The deletion of a vault that a line asks for is found where there is one. -/
theorem vaultDeletionOf_run {l : Line} (hl : l.Deletes .vault) :
    ∃ result, vaultDeletionOf l s = (result, s) ∧
      ∀ d, result = .ok d ↔ l.AsksFor s.depot.store.records d := by
  unfold vaultDeletionOf required Line.requireFlag
  cases hflag : l.flag? "name" with
  | none =>
    refine ⟨_, rfl, fun d => ⟨fun he => (by cases he), fun ha => ?_⟩⟩
    cases ha with
    | vault _ flag _ => rw [hflag] at flag; cases flag
    | account _ flag _ => rw [hflag] at flag; cases flag
  | some name =>
    -- a store in memory lists its records as they are, so the first of the name is found
    refine ⟨_, planVaultDeletion_run h name, fun d => ⟨fun he => ?_, fun ha => ?_⟩⟩
    · split at he
      · next v first =>
        cases he
        exact .vault hl hflag first
      · cases he
    · cases ha with
      | vault _ flag first =>
        rw [hflag] at flag
        cases flag
        rw [first]
      | account command _ _ => exact absurd (hl.1.symm.trans command.1) (by decide)

/-- The deletion of an account that a line asks for is found where there is one. -/
theorem accountDeletionOf_run {l : Line} (hl : l.Deletes .account) :
    ∃ result, accountDeletionOf l s = (result, s) ∧
      ∀ d, result = .ok d ↔ l.AsksFor s.depot.store.records d := by
  unfold accountDeletionOf required Line.requireFlag
  cases hflag : l.flag? "name" with
  | none =>
    refine ⟨_, rfl, fun d => ⟨fun he => (by cases he), fun ha => ?_⟩⟩
    cases ha with
    | vault _ flag _ => rw [hflag] at flag; cases flag
    | account _ flag _ => rw [hflag] at flag; cases flag
  | some name =>
    refine ⟨_, planAccountDeletion_run h name, fun d => ⟨fun he => ?_, fun ha => ?_⟩⟩
    · split at he
      · next a first =>
        cases he
        exact .account hl hflag first
      · cases he
    · cases ha with
      | vault command _ _ => exact absurd (hl.1.symm.trans command.1) (by decide)
      | account _ flag first =>
        rw [hflag] at flag
        cases flag
        rw [first]

end

/-- The deletion of a record of a kind that a line asks for. -/
def deletionOf (l : Line) : Deletable → Act Failure Session Deletion
  | .vault => vaultDeletionOf l
  | .account => accountDeletionOf l

/-- The act of a line whose command is to delete: the deletion is looked for, then asked about. -/
theorem execute_of_deletes {l : Line} {kind : Deletable} (hl : l.Deletes kind) :
    execute l = answering (do askToDelete (← deletionOf l kind)) := by
  cases kind with
  | vault =>
    have haction := VaultAction.select_eq_delete.2 hl.2
    rw [execute_of_verb (Verb.ofToken?_eq_vault.2 hl.1), executeVerb, haction]
    rfl
  | account =>
    have haction := AccountAction.select_eq_delete.2 hl.2
    rw [execute_of_verb (Verb.ofToken?_eq_account.2 hl.1), executeVerb, haction]
    rfl

/-- A session whose gate holds a deletion. -/
def armed (d : Deletion) (s : Session) : Session := { s with gate := some ⟨some d⟩ }

/-- **What a line does whose command is to delete.** While no deletion waits, it puts the deletion
that it asks for behind the gate; if it asks for none, it changes nothing. -/
theorem execute_deletion {l : Line} {kind : Deletable} (hl : l.Deletes kind) {s : Session}
    (h : s.depot.store.IsPlain) (hgate : s.gate = some .idle) :
    (∃ d, l.AsksFor s.depot.store.records d ∧
      execute l s = (.ok (.entry (.prompt (confirmationPrompt d))), s.armed d)) ∨
    ((∀ d, ¬ l.AsksFor s.depot.store.records d) ∧ (execute l s).2 = s) := by
  have hfound : ∃ result, deletionOf l kind s = (result, s) ∧
      ∀ d, result = .ok d ↔ l.AsksFor s.depot.store.records d := by
    cases kind with
    | vault => exact vaultDeletionOf_run h hl
    | account => exact accountDeletionOf_run h hl
  obtain ⟨result, hrun, hasks⟩ := hfound
  rw [execute_of_deletes hl, answering, Act.run_bind, Act.run_bind, hrun]
  cases result with
  | error failure => exact .inr ⟨fun d ha => (by cases (hasks d).2 ha), rfl⟩
  | ok d =>
    refine .inl ⟨d, (hasks d).1 rfl, ?_⟩
    unfold askToDelete
    rw [Act.after_ok, Act.run_bind, Act.run_look, hgate]
    rfl

end Session

end VaultConsole
