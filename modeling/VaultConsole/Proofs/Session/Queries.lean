import VaultConsole.Proofs.Session.Answering
import VaultConsole.Proofs.Session.Search
import VaultConsole.Proofs.Store.References

/-!
# Commands that look

Six commands answer with records: they list vaults or accounts, show one of them, search, or survey what
there is. A command that answers with records has done no more than to look, and the records are there.

* `Session.Looks`: acts that only look, if they yield records.
* `Session.looks_execute`: **every command does so.**
-/

namespace VaultConsole

/-- The records of a reply. -/
def Reply.payload? : Reply → Option Payload
  | .entry e => e.payload
  | _ => none

section
variable {r : Records}

theorem isIn_vaults {vaults : List Vault} (h : vaults ⊆ r.vaults) :
    ∀ ref ∈ (vaults.map (·.id)).map Reference.vault, ref.IsIn r := by
  rw [List.map_map, List.forall_mem_map]
  exact fun v hv => ⟨v, h hv, rfl⟩

theorem isIn_accounts {accounts : List Account} (h : accounts ⊆ r.accounts) :
    ∀ ref ∈ (accounts.map (·.id)).map Reference.account, ref.IsIn r := by
  rw [List.map_map, List.forall_mem_map]
  exact fun a ha => ⟨a, h ha, rfl⟩

end

namespace Session

variable {α β : Type} {payload? : α → Option Payload}

/-- Over a store in memory such an act changes nothing, if it yields records, and these are there. -/
def Looks (payload? : α → Option Payload) (act : Act Failure Session α) : Prop :=
  ∀ s : Session, s.depot.store.IsPlain → ∀ a s' p, act s = (.ok a, s') → payload? a = some p →
    s' = s ∧ p.IsOf s.depot.store.records

/-- What names no records need not look. -/
theorem looks_of_bare {act : Act Failure Session Entry} (h : act.Yields Entry.IsBare) :
    Looks Entry.payload act := by
  intro s _ e s' p hrun hp
  have hbare := h s e (by rw [hrun])
  rw [hbare.payload] at hp
  cases hp

/-- An argument comes first. -/
theorem looks_settle {result : Except Failure β} {next : β → Act Failure Session α}
    (h : ∀ b, Looks payload? (next b)) : Looks payload? (Act.settle result >>= next) := by
  cases result with
  | ok b => exact h b
  | error failure =>
    intro s _ a s' p hrun
    cases hrun

/-! ## The six commands -/

theorem looks_listVaults : Looks Entry.payload listVaults := by
  intro s h e s' p hrun hp
  unfold listVaults at hrun
  rw [Act.run_bind, inDepot_listVaults_of_orderly h.2, Act.after_ok] at hrun
  split at hrun <;> cases hrun
  · cases hp
  · cases hp
    exact ⟨rfl, isIn_vaults (List.Subset.refl _), nofun⟩

theorem looks_showVault (name : Text) : Looks Entry.payload (showVault name) := by
  intro s h e s' p hrun hp
  unfold showVault at hrun
  rw [Act.run_bind, findVault_run h] at hrun
  cases hfind : s.depot.store.records.vaults.find? (sameName ·.name name) with
  | none =>
    rw [hfind] at hrun
    cases hrun
  | some v =>
    rw [hfind, Act.after_ok, Act.run_bind, accountsIn_run h] at hrun
    cases hrun
    cases hp
    refine ⟨rfl, ?_, nofun⟩
    rw [Payload.references, List.forall_mem_cons]
    exact ⟨⟨v, List.mem_of_find?_eq_some hfind, rfl⟩, isIn_accounts (List.filter_subset_self _)⟩

/-- The accounts that are to be listed, however they were found. -/
theorem isOf_accountList {r : Records} {accounts : List Account} (h : accounts ⊆ r.accounts) :
    (Payload.accountList (accounts.map (·.id))).IsOf r := ⟨isIn_accounts h, nofun⟩

theorem looks_listAccounts (vaultName : Option Text) : Looks Entry.payload (listAccounts vaultName) := by
  unfold listAccounts
  simp only
  split
  · next name _ =>
    intro s h e s' p hrun hp
    rw [Act.run_bind, findVault_run h] at hrun
    cases hfind : s.depot.store.records.vaults.find? (sameName ·.name name) with
    | none =>
      rw [hfind] at hrun
      cases hrun
    | some v =>
      rw [hfind, Act.after_ok, Act.run_bind, accountsIn_run h, Act.after_ok] at hrun
      split at hrun <;> cases hrun <;> cases hp
      exact ⟨rfl, isOf_accountList (List.filter_subset_self _)⟩
  · intro s h e s' p hrun hp
    rw [Act.run_bind, accountsWith_run h, Act.after_ok] at hrun
    split at hrun <;> cases hrun <;> cases hp
    exact ⟨rfl, isOf_accountList (List.Subset.refl _)⟩

theorem looks_showAccount (name : Text) (reveal : Bool) :
    Looks Entry.payload (showAccount name reveal) := by
  intro s h e s' p hrun hp
  unfold showAccount at hrun
  rw [Act.run_bind, findAccount_run h] at hrun
  cases hfind : s.depot.store.records.accounts.find? (sameName ·.name name) with
  | none =>
    rw [hfind] at hrun
    cases hrun
  | some a =>
    rw [hfind] at hrun
    cases hrun
    cases hp
    have hmem := List.mem_of_find?_eq_some hfind
    refine ⟨rfl, ?_, ?_⟩
    · rw [Payload.references, List.forall_mem_singleton]
      exact ⟨a, hmem, rfl⟩
    · rintro _ _ _ ⟨⟩
      exact ⟨a, hmem, rfl, rfl⟩

theorem looks_search (query : Text) : Looks Entry.payload (search query) := by
  intro s h e s' p hrun hp
  cases hblank : query.isBlank with
  | true =>
    unfold search at hrun
    simp only [hblank, if_true] at hrun
    cases hrun
  | false =>
    rw [search_run h.2 hblank] at hrun
    simp only at hrun
    split at hrun <;> cases hrun <;> cases hp
    refine ⟨rfl, ?_, nofun⟩
    rw [Payload.references, List.forall_mem_append]
    exact ⟨isIn_vaults (List.filter_subset_self _), isIn_accounts (List.filter_subset_self _)⟩

theorem looks_stats : Looks Entry.payload stats := by
  intro s h e s' p hrun hp
  unfold stats at hrun
  rw [Act.run_bind, inDepot_listVaults_of_orderly h.2, Act.after_ok, Act.run_bind,
    inDepot_listAccounts_of_orderly h.2, Act.after_ok] at hrun
  cases hrun
  cases hp
  refine ⟨rfl, isIn_accounts fun a ha => ?_, nofun⟩
  exact List.mem_mergeSort.1 (List.mem_of_mem_take ha)

/-! ## Lines -/

theorem looks_answering {act : Act Failure Session Entry} (h : Looks Entry.payload act) :
    Looks Reply.payload? (answering act) := by
  intro s hplain reply s' p hrun hp
  rw [answering, Act.run_bind] at hrun
  rcases hact : act s with ⟨failure | e, s''⟩ <;> rw [hact] at hrun
  · cases hrun
  · cases hrun
    exact h s hplain e _ p hact hp

theorem looks_executeVault (l : Line) (action : VaultAction) :
    Looks Entry.payload (executeVault l action) := by
  cases action with
  | list => exact looks_listVaults
  | create => exact looks_of_bare (.bind fun name => bare_createVault name _)
  | update => exact looks_of_bare (.bind fun name => bare_updateVault name _ _)
  | delete => exact looks_of_bare (.bind fun d => bare_askToDelete d)
  | detail => exact looks_settle fun name => looks_showVault name

theorem looks_executeAccount (l : Line) (action : AccountAction) :
    Looks Reply.payload? (executeAccount l action) := by
  cases action with
  | list => exact looks_answering (looks_listAccounts _)
  | create => exact looks_answering (looks_of_bare (bare_executeAccountCreate l))
  | update =>
    exact looks_answering (looks_of_bare (.bind fun name => bare_updateAccount name _ _ _ _ _))
  | delete => exact looks_answering (looks_of_bare (.bind fun d => bare_askToDelete d))
  | detail => exact looks_answering (looks_settle fun name => looks_showAccount name _)
  | password =>
    -- the secret is told by an entry of its own
    intro s _ reply s' p hrun hp
    have hsecret : (executeAccount l .password).Yields fun reply => reply.payload? = none :=
      .bind fun account => .pure rfl
    rw [hsecret s reply (by rw [hrun])] at hp
    cases hp

/-- **A command that answers with records only looks, and the records are there.** -/
theorem looks_execute (l : Line) : Looks Reply.payload? (execute l) := by
  refine looks_settle fun verb => ?_
  cases verb with
  | help => exact looks_answering (looks_of_bare (bare_executeHelp l))
  | clear =>
    intro s _ reply s' p hrun hp
    cases hrun
    cases hp
  | exit => exact looks_answering (looks_of_bare bare_requestExit)
  | openPage => exact looks_answering (looks_of_bare (bare_openPage l.subVerb))
  | vault => exact looks_settle fun action => looks_answering (looks_executeVault l action)
  | account => exact looks_settle fun action => looks_executeAccount l action
  | search => exact looks_answering (looks_search _)
  | stats => exact looks_answering looks_stats

end Session

end VaultConsole
