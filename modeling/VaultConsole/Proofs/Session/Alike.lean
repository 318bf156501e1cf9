import VaultConsole.Proofs.Line.Secret
import VaultConsole.Proofs.Session.Removal
import VaultConsole.Proofs.Session.Request
import VaultConsole.Proofs.Store.Alike

/-!
# Commands on stores that are alike

Commands look at records and at what the world shows, but never at a secret. So on stores that are
alike they answer with the same entry, or fail in the same way, and leave the stores alike. The same
holds of commands that are given secrets which are related.

* `Session.OverDepots`, `Session.DepotsAlike`: relations of sessions over depots that are alike.
* `Session.twins_findVault` to `Session.twins_stats`: looking for records, and the commands.
* `Session.twins_required`, `Session.twins_deletionOf`: what lines ask for.
-/

namespace VaultConsole.Session

open List (Forall₂)

/-- A relation of sessions that have depots which are alike; these can be changed alone. -/
class OverDepots (S : outParam (Text → Text → Prop)) (W : outParam (World → World → Prop))
    (R : Session → Session → Prop) : Prop where
  depot : ∀ {s s'}, R s s' → s.depot.Alike S W s'.depot
  withDepot : ∀ {s s' depot depot'}, R s s' → depot.Alike S W depot' →
    R { s with depot } { s' with depot := depot' }

/-- Sessions that may differ in all but their depots, which are alike. -/
def DepotsAlike (S : Text → Text → Prop) (W : World → World → Prop) (s s' : Session) : Prop :=
  s.depot.Alike S W s'.depot

variable {S : Text → Text → Prop} {W : World → World → Prop} {R : Session → Session → Prop}

instance : OverDepots S W (DepotsAlike S W) := ⟨id, fun _ hdepot => hdepot⟩

/-! ## Accounts that are alike -/

theorem sameName_alike {a a' : Account} (h : Account.Alike S a a') (name : Text) :
    sameName a.name name = sameName a'.name name := by
  cases h
  rfl

theorem accountMatches_alike {a a' : Account} (h : Account.Alike S a a') (needle : Text) :
    accountMatches needle a = accountMatches needle a' := by
  cases h
  rfl

theorem ids_alike {accounts accounts' : List Account}
    (h : Forall₂ (Account.Alike S) accounts accounts') :
    accounts.map (·.id) = accounts'.map (·.id) :=
  Records.map_eq_of_rel h (by rintro _ _ ⟨⟩; rfl)

/-- The accounts that changed last are the same ones. -/
theorem ids_byRecency_alike {accounts accounts' : List Account}
    (h : Forall₂ (Account.Alike S) accounts accounts') :
    (byRecency accounts).map (·.id) = (byRecency accounts').map (·.id) := by
  -- sorting goes by the time alone, so it can be done with what both lists have in common
  let mark (a : Account) : Text × Int := (a.id, a.modified.instant)
  have hsort : ∀ l : List Account,
      (byRecency l).map mark = (l.map mark).mergeSort fun x y => y.2 ≤ x.2 := fun l =>
    List.map_mergeSort fun _ _ _ _ => rfl
  have hmarks : accounts.map mark = accounts'.map mark :=
    Records.map_eq_of_rel h (by rintro _ _ ⟨⟩; rfl)
  have hsorted : (byRecency accounts).map mark = (byRecency accounts').map mark := by
    rw [hsort, hsort, hmarks]
  have hids := congrArg (List.map Prod.fst) hsorted
  rwa [List.map_map, List.map_map] at hids

/-! ## Looking for records -/

/-- A flag that is no secret has the same value in both lines. -/
theorem twins_required {l l' : Line} (hl : l.Alike S l') (manual : Manual) {name : Text}
    (hname : name ∉ Event.secretNames) :
    (required manual name l).Twins R Eq (required manual name l') := by
  unfold required Line.requireFlag
  rw [hl.flag?_eq name hname]
  exact .settle (.refl _)

/-- A secret is there in both lines, or in none. -/
theorem twins_requiredSecret [Std.Refl S] {l l' : Line} (hl : l.Alike S l') (manual : Manual)
    (name : Text) :
    (required manual name l).Twins R (Flags.Given S) (required manual name l') := by
  have hflag := hl.rel_flag? name
  unfold required Line.requireFlag
  generalize l.flag? name = found at hflag ⊢
  generalize l'.flag? name = found' at hflag ⊢
  cases hflag with
  | none => exact .fail _
  | some hv => exact .pure hv

/-- Updates of which one is a secret. -/
theorem keyed_given {password password' : Option Text}
    (h : Option.Rel (Flags.Given S) password password') (before after : List (Text × Option Text)) :
    Forall₂ (AccountField.Keyed S) (given (before ++ (("password" : Text), password) :: after))
      (given (before ++ (("password" : Text), password') :: after)) := by
  have hsame (updates : Table Text Text) : Forall₂ (AccountField.Keyed S) updates updates :=
    List.forall₂_same.2 fun u _ => .same u
  unfold given
  rw [List.filterMap_append, List.filterMap_append]
  refine List.rel_append (hsame _) ?_
  cases h with
  | none => exact hsame _
  | @some v v' hv =>
    have hleft : v.isEmpty = false := by simpa using hv.left
    have hright : v'.isEmpty = false := by simpa using hv.right
    simp only [List.filterMap_cons, hleft, hright, Bool.false_eq_true, if_false]
    exact .cons (.secret hv.related) (hsame _)

/-- An update succeeds on both sides or on none. -/
theorem twins_updated {act act' : Act Failure Session (Answer Bool)}
    (h : act.Twins R (Answer.Owned Eq) act') (kind name : Text) (entry : Entry) :
    (do
      if !(← act).isYes then Act.fail (.notUpdated kind name)
      return entry : Act Failure Session Entry).Twins R Eq (do
      if !(← act').isYes then Act.fail (.notUpdated kind name)
      return entry) := by
  refine h.bind fun answer answer' hanswer => ?_
  rw [hanswer.eq]
  have hfail : (Act.fail (.notUpdated kind name) : Act Failure Session PUnit).Twins R Eq
      (Act.fail (.notUpdated kind name)) := .fail _
  exact .ite (hfail.bind_eq fun _ => .pure rfl) (.pure rfl)

variable [lifted : OverDepots S W R]
include lifted

theorem twins_inDepot {α α' : Type} {V : α → α' → Prop} {act : Act Failure Depot α}
    {act' : Act Failure Depot α'}
    (h : act.Twins (Depot.Alike S W) V act') : (inDepot act).Twins R V (inDepot act') :=
  h.within (fun _ _ hs => lifted.depot hs) fun _ _ _ _ hs hd => lifted.withDepot hs hd

theorem twins_vaultsWith (field : Text) : (vaultsWith field).Twins R Eq (vaultsWith field) := by
  refine (twins_inDepot Depot.twins_listVaults).bind fun vaults vaults' h => ?_
  obtain ⟨rfl⟩ := h
  exact .settle (.ok rfl)

theorem twins_accountsWith (field : Text) :
    (accountsWith field).Twins R (Forall₂ (Account.Alike S)) (accountsWith field) := by
  refine (twins_inDepot Depot.twins_listAccounts).bind fun accounts accounts' h => ?_
  obtain ⟨h⟩ := h
  exact .settle (.ok h)

theorem twins_findVault (name : Text) : (findVault name).Twins R Eq (findVault name) := by
  refine (twins_vaultsWith _).bind_eq fun vaults => ?_
  split
  · exact .pure rfl
  · exact .fail _

theorem twins_findAccount (name : Text) :
    (findAccount name).Twins R (Account.Alike S) (findAccount name) := by
  refine (twins_accountsWith _).bind fun accounts accounts' h => ?_
  have hfound := Records.rel_find? h fun a a' ha => sameName_alike ha name
  generalize accounts.find? (sameName ·.name name) = found at hfound ⊢
  generalize accounts'.find? (sameName ·.name name) = found' at hfound ⊢
  cases hfound with
  | none => exact .fail _
  | some ha => exact .pure ha

theorem twins_accountsIn (vaultId : Text) :
    (accountsIn vaultId).Twins R (Forall₂ (Account.Alike S)) (accountsIn vaultId) := by
  refine (twins_accountsWith _).bind fun accounts accounts' h => .pure ?_
  exact Records.rel_filter h (by rintro _ _ ⟨⟩; rfl)

theorem twins_pageSummary (page : Page) : (pageSummary page).Twins R Eq (pageSummary page) := by
  refine (twins_inDepot Depot.twins_listVaults).bind fun vaults vaults' hv =>
    (twins_inDepot Depot.twins_listAccounts).bind fun accounts accounts' ha => ?_
  obtain ⟨rfl⟩ := hv
  obtain ⟨ha⟩ := ha
  have hnames := Records.map_eq_of_rel ha (f := (·.name)) (g := (·.name)) (by rintro _ _ ⟨⟩; rfl)
  have hcount := ha.length_eq
  cases page with
  | vaults => exact (Act.Twins.settle (.ok rfl)).bind_eq fun _ =>
      (Act.Twins.settle (.ok rfl)).bind_eq fun _ => .pure rfl
  | accounts =>
    refine (Act.Twins.settle (.ok ha)).bind fun items items' hitems => ?_
    refine (Act.Twins.settle (.ok hcount)).bind_eq fun count => .pure ?_
    rw [Records.map_eq_of_rel hitems (f := (·.name)) (g := (·.name)) (by rintro _ _ ⟨⟩; rfl)]
  | profile => exact .pure rfl
  | overview => exact (Act.Twins.settle (.ok rfl)).bind_eq fun _ =>
      (Act.Twins.settle (.ok hcount)).bind_eq fun _ => .pure rfl

/-! ## Commands -/

theorem twins_listVaults : listVaults.Twins R Eq listVaults := by
  refine (twins_inDepot Depot.twins_listVaults).bind fun vaults vaults' h => ?_
  obtain ⟨rfl⟩ := h
  refine .ite (.pure rfl) ?_
  exact (Act.Twins.settle (.refl _)).bind_eq fun _ =>
    (Act.Twins.settle (.refl _)).bind_eq fun _ => .pure rfl

theorem twins_showVault (name : Text) : (showVault name).Twins R Eq (showVault name) :=
  (twins_findVault name).bind_eq fun vault => (twins_accountsIn vault.id).bind fun _ _ h => by
    rw [ids_alike h]
    exact .pure rfl

theorem twins_planVaultDeletion (name : Text) :
    (planVaultDeletion name).Twins R Eq (planVaultDeletion name) :=
  (twins_findVault name).bind_eq fun vault => (twins_accountsIn vault.id).bind fun _ _ h => by
    rw [h.length_eq]
    exact .pure rfl

theorem twins_planAccountDeletion (name : Text) :
    (planAccountDeletion name).Twins R Eq (planAccountDeletion name) :=
  (twins_findAccount name).bind fun _ _ h => .pure (by cases h; rfl)

theorem twins_listAccounts (vaultName : Option Text) :
    (listAccounts vaultName).Twins R Eq (listAccounts vaultName) := by
  have hanswer : ∀ items items' : List Account, Forall₂ (Account.Alike S) items items' →
      (if items.isEmpty then
        return .info "No accounts found. Use \"account create\" to create one."
      else
        return .found ("Found " ++ plural items.length "account" ++ ":")
          (.accountList (items.map (·.id))) : Act Failure Session Entry).Twins R Eq
      (if items'.isEmpty then
        return .info "No accounts found. Use \"account create\" to create one."
      else
        return .found ("Found " ++ plural items'.length "account" ++ ":")
          (.accountList (items'.map (·.id)))) := by
    intro items items' h
    have hempty : items'.isEmpty = items.isEmpty := by cases h <;> rfl
    rw [ids_alike h, h.length_eq, hempty]
    exact .ite (.pure rfl) (.pure rfl)
  unfold listAccounts
  simp only
  split
  · exact (twins_findVault _).bind_eq fun vault => (twins_accountsIn vault.id).bind hanswer
  · exact (twins_accountsWith _).bind hanswer

theorem twins_showAccount (name : Text) (reveal : Bool) :
    (showAccount name reveal).Twins R Eq (showAccount name reveal) :=
  (twins_findAccount name).bind fun _ _ h => .pure (by cases h; rfl)

theorem twins_search (query : Text) : (search query).Twins R Eq (search query) := by
  have hfound : (do
      let vaults := (← vaultsWith "name").filter (vaultMatches query.lower)
      let accounts := (← accountsWith "name").filter (accountMatches query.lower)
      if vaults.isEmpty && accounts.isEmpty then
        return .info ("No results found for " ++ Failure.named query ++ ".")
      else
        return .found ("Search results for " ++ Failure.named query ++ ":")
          (.searchResults (vaults.map (·.id)) (accounts.map (·.id))) :
      Act Failure Session Entry).Twins R Eq (do
      let vaults := (← vaultsWith "name").filter (vaultMatches query.lower)
      let accounts := (← accountsWith "name").filter (accountMatches query.lower)
      if vaults.isEmpty && accounts.isEmpty then
        return .info ("No results found for " ++ Failure.named query ++ ".")
      else
        return .found ("Search results for " ++ Failure.named query ++ ":")
          (.searchResults (vaults.map (·.id)) (accounts.map (·.id)))) := by
    refine (twins_vaultsWith _).bind_eq fun vaults => (twins_accountsWith _).bind fun _ _ h => ?_
    have hmatches := Records.rel_filter h fun _ _ ha => accountMatches_alike ha query.lower
    simp only
    generalize List.filter (accountMatches query.lower) _ = accounts at hmatches ⊢
    generalize List.filter (accountMatches query.lower) _ = accounts' at hmatches ⊢
    have hempty : accounts'.isEmpty = accounts.isEmpty := by cases hmatches <;> rfl
    rw [ids_alike hmatches, hempty]
    exact .ite (.pure rfl) (.pure rfl)
  exact .ite ((Act.Twins.fail (.usage searchForm)).bind_eq fun _ => hfound) hfound

theorem twins_stats : stats.Twins R Eq stats := by
  refine (twins_inDepot Depot.twins_listVaults).bind fun vaults vaults' hv =>
    (twins_inDepot Depot.twins_listAccounts).bind fun accounts accounts' ha => ?_
  obtain ⟨rfl⟩ := hv
  obtain ⟨ha⟩ := ha
  refine (Act.Twins.settle (.ok ha)).bind fun items items' hitems => ?_
  refine (Act.Twins.settle (.refl _)).bind_eq fun vaultCount => ?_
  refine (Act.Twins.settle (.ok ha.length_eq)).bind_eq fun accountCount => .pure ?_
  rw [List.map_take, List.map_take, ids_byRecency_alike hitems]

theorem twins_deletionOf {l l' : Line} (hl : l.Alike S l') (kind : Deletable) :
    (deletionOf l kind).Twins R Eq (deletionOf l' kind) := by
  cases kind with
  | vault => exact (twins_required hl _ (by decide)).bind_eq fun name => twins_planVaultDeletion name
  | account =>
    exact (twins_required hl _ (by decide)).bind_eq fun name => twins_planAccountDeletion name

theorem twins_executeDeletion (d : Deletion) :
    (executeDeletion d).Twins R Eq (executeDeletion d) := by
  have hdelete : (inDepot (deleteNow d)).Twins R (Answer.Owned Eq) (inDepot (deleteNow d)) := by
    unfold deleteNow
    cases d.kind with
    | vault => exact twins_inDepot (Depot.twins_deleteVault _)
    | account => exact twins_inDepot (Depot.twins_deleteAccount _)
  refine Act.Twins.bind hdelete fun answer answer' hanswer => ?_
  rw [hanswer.eq]
  have hfail : (Act.fail (.notDeleted d.kind.title d.targetName) : Act Failure Session PUnit).Twins R
      Eq (Act.fail (.notDeleted d.kind.title d.targetName)) := .fail _
  exact .ite (hfail.bind_eq fun _ => .pure rfl) (.pure rfl)

variable [World.Parallel W]

theorem twins_createVault (name description : Text) :
    (createVault name description).Twins R Eq (createVault name description) :=
  (twins_inDepot (Depot.twins_createVault _)).bind fun _ _ _ => .pure rfl

theorem twins_updateVault (name : Text) (newName description : Option Text) :
    (updateVault name newName description).Twins R Eq (updateVault name newName description) :=
  (twins_findVault name).bind_eq fun _ =>
    .ite (twins_updated (twins_inDepot (Depot.twins_updateVault _ _)) _ _ _) (.pure rfl)

theorem twins_createAccount (vaultName name username : Text) {password password' : Text}
    (h : S password password') (url notes : Text) :
    (createAccount vaultName name username password url notes).Twins R Eq
      (createAccount vaultName name username password' url notes) := by
  refine (twins_findVault vaultName).bind_eq fun vault => ?_
  have hdraft : AccountDraft.Alike S { vaultId := vault.id, name, username, password, url, notes }
      { vaultId := vault.id, name, username, password := password', url, notes } := .intro _ h
  exact (twins_inDepot (Depot.twins_createAccount hdraft)).bind fun _ _ _ => .pure rfl

theorem twins_updateAccount [Std.Refl S] (name : Text) (newName username : Option Text)
    {password password' : Option Text} (h : Option.Rel (Flags.Given S) password password')
    (url notes : Option Text) :
    (updateAccount name newName username password url notes).Twins R Eq
      (updateAccount name newName username password' url notes) := by
  refine (twins_findAccount name).bind fun a a' ha => ?_
  have hupdates := keyed_given h [("name", newName), ("username", username)]
    [("url", url), ("notes", notes)]
  have hempty : (given [("name", newName), ("username", username), ("password", password'),
      ("url", url), ("notes", notes)]).isEmpty = (given [("name", newName), ("username", username),
      ("password", password), ("url", url), ("notes", notes)]).isEmpty := by
    rw [Bool.eq_iff_iff, List.isEmpty_iff_length_eq_zero, List.isEmpty_iff_length_eq_zero]
    exact hupdates.length_eq ▸ Iff.rfl
  cases ha
  simp only
  rw [hempty]
  exact .ite (twins_updated (twins_inDepot (Depot.twins_updateAccount _ hupdates)) _ _ _) (.pure rfl)

end VaultConsole.Session
