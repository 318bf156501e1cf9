import VaultConsole.Proofs.Record.Reading
import VaultConsole.Proofs.Showing
import VaultConsole.Proofs.Store.References

/-!
# What an entry says of its records

The lines of a payload take its records one by one, in the order of the payload. A record that is there
is shown by its fields as they are now, and one that has gone by a word in its place; where that is the
record that all the lines are about, the word is all there is. Nothing else of a store is seen, but for
the vault that the line of an account names.

* `Snapshot.Stands`: how one record is shown, whether it is there or has gone.
* `Snapshot.Sheet`: the lines of a payload, told of its records one by one.
* `Snapshot.sheet_of_payloadLines`: **the lines are these**, where no identifier is used twice.
* `Snapshot.payloadLines_congr`: **they are the same over stores that have the same records for them.**
-/

namespace VaultConsole

open List (Forall₂)

namespace Snapshot

variable (s : Snapshot)

/-! ## How a record is shown -/

/-- How the item of an identifier is shown: by itself, where `shown` tells how, if it is the only one of
that identifier, and by a word if there is none. -/
inductive Stands {α β : Type} (items : List α) (ident : α → Text) (shown : α → β → Prop) (word : β)
    (id : Text) : β → Prop
  | there {x : α} {b : β} (mem : x ∈ items) (same : ident x = id)
      (only : ∀ y ∈ items, ident y = id → y = x) (shows : shown x b) : Stands items ident shown word id b
  | gone (none : ∀ y ∈ items, ident y ≠ id) : Stands items ident shown word id word

/-- The same, of a vault. -/
def VaultStands {β : Type} (shown : Vault → β → Prop) (word : β) : Text → β → Prop :=
  Stands s.vaults (·.id) shown word

/-- The same, of an account. -/
def AccountStands {β : Type} (shown : Account → β → Prop) (word : β) : Text → β → Prop :=
  Stands s.accounts (·.id) shown word

/-- A text is a date as the clocks of the zone show it. -/
def ShowsDate (t : Timestamp) (text : Text) : Prop :=
  ∃ w, t.wall? s.zone = some w ∧ text = w.dateText

/-- A text is a date and a time of day as the clocks of the zone show them. -/
def ShowsMoment (t : Timestamp) (text : Text) : Prop :=
  ∃ w, t.wall? s.zone = some w ∧ text = w.dateText ++ " " ++ w.timeText ":"

/-- A vault by its name, for the line of an account. -/
def NamesVault : Text → Text → Prop := s.VaultStands (fun v name => name = v.name) "Unknown"

/-- The lines of a vault in a list, behind a number. -/
def VaultBlock (number : Text) (v : Vault) (block : List Text) : Prop :=
  ∃ created, s.ShowsDate v.created created ∧
    block = [number ++ v.name] ++ (if v.description = [] then [] else [indent ++ v.description])
      ++ [indent ++ "Created: " ++ created]

/-- The lines of an account in a list, behind a number. -/
def AccountBlock (number : Text) (a : Account) (block : List Text) : Prop :=
  ∃ vault, s.NamesVault a.vaultId vault ∧
    block = [number ++ a.name, indent ++ "Username: " ++ a.username, indent ++ "Vault: " ++ vault]
      ++ (if a.url = [] then [] else [indent ++ "URL: " ++ a.url])

/-- All about a vault, with the names of some accounts. -/
def VaultSheet (accounts : List Text) (v : Vault) (lines : List Text) : Prop :=
  ∃ created modified names, s.ShowsMoment v.created created ∧ s.ShowsMoment v.modified modified ∧
    Forall₂ (s.AccountStands (fun a name => name = a.name) deleted) accounts names ∧
    lines = ["Description: " ++ orNone v.description, "Accounts: " ++ Text.ofNat accounts.length,
        "Created: " ++ created, "Modified: " ++ modified]
      ++ titled "Accounts in this vault:" (names.map fun name => indent ++ bullet ++ name)

/-- All about an account, with the name of a vault. -/
def AccountSheet (vaultId : Text) (reveal : Bool) (a : Account) (lines : List Text) : Prop :=
  ∃ vault modified, s.NamesVault vaultId vault ∧ s.ShowsMoment a.modified modified ∧
    lines = ["Username: " ++ a.username, "Password: " ++ (if reveal then a.password else mask),
        "URL: " ++ orNone a.url, "Vault: " ++ vault]
      ++ (if a.notes = [] then [] else ["Notes: " ++ a.notes]) ++ ["Modified: " ++ modified]

/-- The line of an account that changed lately. -/
def RecentLine (a : Account) (line : Text) : Prop :=
  ∃ modified, s.ShowsDate a.modified modified ∧ line = indent ++ bullet ++ a.name ++ " - " ++ modified

/-- The lines under a title with a number, if there are any. -/
def counted (noun : Text) (lines : List Text) : List Text :=
  if lines = [] then [] else foundTitle noun lines.length :: lines

/-- **The lines of a payload.** Its records are taken one by one, in their order. -/
inductive Sheet : Payload → List Text → Prop
  | vaultList {ids : List Text} {blocks : List (List Text)}
      (rows : Forall₂ (fun place block => s.VaultStands
          (s.VaultBlock (rowNumber ids.length place.2)) [rowNumber ids.length place.2 ++ deleted]
          place.1 block) ids.zipIdx blocks) : Sheet (.vaultList ids) blocks.flatten
  | accountList {ids : List Text} {blocks : List (List Text)}
      (rows : Forall₂ (fun place block => s.AccountStands
          (s.AccountBlock (rowNumber ids.length place.2)) [rowNumber ids.length place.2 ++ deleted]
          place.1 block) ids.zipIdx blocks) : Sheet (.accountList ids) blocks.flatten
  | vaultDetail {id : Text} {accounts lines : List Text}
      (sheet : s.VaultStands (s.VaultSheet accounts) [deleted] id lines) :
      Sheet (.vaultDetail id accounts) lines
  | accountDetail {id vaultId : Text} {reveal : Bool} {lines : List Text}
      (sheet : s.AccountStands (s.AccountSheet vaultId reveal) [deleted] id lines) :
      Sheet (.accountDetail id vaultId reveal) lines
  | searchResults {vaults accounts vaultLines accountLines : List Text}
      (vaultsFound : Forall₂ (s.VaultStands (fun v line => line = indent ++ v.name) (indent ++ deleted))
        vaults vaultLines)
      (accountsFound : Forall₂ (s.AccountStands
        (fun a line => line = indent ++ a.name ++ " @" ++ a.username) (indent ++ deleted))
        accounts accountLines) :
      Sheet (.searchResults vaults accounts)
        (counted "Vaults" vaultLines
          ++ (if vaultLines = [] ∨ accountLines = [] then [] else [[]])
          ++ counted "Accounts" accountLines)
  | stats {vaults accounts : Int} {recent lines : List Text}
      (rows : Forall₂ (s.AccountStands s.RecentLine (indent ++ bullet ++ deleted)) recent lines) :
      Sheet (.stats vaults accounts recent)
        (["Total Vaults: " ++ Text.ofInt vaults, "Total Accounts: " ++ Text.ofInt accounts]
          ++ titled "Recent Activity:" lines)

/-! ## The lines are these -/

section
variable {s}

theorem showsDate_of_dateText {t : Timestamp} {text : Text} (h : s.dateText t = .ok text) :
    s.ShowsDate t text := by
  unfold dateText wall at h
  split at h
  · next w hw =>
    cases h
    exact ⟨w, hw, rfl⟩
  · cases h

theorem showsMoment_of_momentText {t : Timestamp} {text : Text} (h : s.momentText t = .ok text) :
    s.ShowsMoment t text := by
  unfold momentText wall at h
  split at h
  · next w hw =>
    cases h
    exact ⟨w, hw, rfl⟩
  · cases h

/-- What is found by an identifier from the back is the only item of it. -/
theorem stands_of_find {α β : Type} {items : List α} {ident : α → Text} {shown : α → β → Prop} {word b : β}
    {id : Text} (hdistinct : (items.map ident).Nodup)
    (hthere : ∀ x, items.reverse.find? (fun y => ident y == id) = some x → shown x b)
    (hgone : items.reverse.find? (fun y => ident y == id) = none → b = word) :
    Stands items ident shown word id b := by
  cases hfind : items.reverse.find? (fun y => ident y == id) with
  | none =>
    rw [hgone hfind]
    refine .gone fun y hy hsame => ?_
    have hmiss := List.find?_eq_none.1 hfind y (List.mem_reverse.2 hy)
    exact hmiss (beq_iff_eq.2 hsame)
  | some x =>
    have hmem : x ∈ items := List.mem_reverse.1 (List.mem_of_find?_eq_some hfind)
    have hfound := List.find?_some hfind
    have hsame : ident x = id := beq_iff_eq.1 hfound
    refine .there hmem hsame (fun y hy hid => ?_) (hthere x hfind)
    exact List.inj_on_of_nodup_map hdistinct hy hmem (hid.trans hsame.symm)

variable (hvaults : (s.vaults.map (·.id)).Nodup) (haccounts : (s.accounts.map (·.id)).Nodup)

include hvaults in
theorem namesVault_vaultName (id : Text) : s.NamesVault id (s.vaultName id) := by
  refine stands_of_find hvaults (fun v hv => ?_) fun hv => ?_ <;>
    · rw [vaultName, vault?, hv]
      rfl

include hvaults in
theorem vaultBlock_of_vaultRow {number id : Text} {block : List Text}
    (h : s.vaultRow number id = .ok block) :
    s.VaultStands (s.VaultBlock number) [number ++ deleted] id block := by
  refine stands_of_find hvaults (fun v hv => ?_) fun hv => ?_ <;> unfold vaultRow vault? at h <;>
    rw [hv] at h
  · obtain ⟨created, hcreated, hblock⟩ := bind_eq_ok_iff.1 h
    cases hblock
    exact ⟨created, showsDate_of_dateText hcreated, by simp⟩
  · cases h
    rfl

include hvaults haccounts in
theorem accountBlock_accountRow (number id : Text) :
    s.AccountStands (s.AccountBlock number) [number ++ deleted] id (s.accountRow number id) := by
  refine stands_of_find haccounts (fun a ha => ?_) fun ha => ?_ <;> unfold accountRow account? <;>
    rw [ha]
  exact ⟨s.vaultName a.vaultId, namesVault_vaultName hvaults a.vaultId, by simp⟩

include haccounts in
theorem accountStands_accountName (id : Text) :
    s.AccountStands (fun a name => name = a.name) deleted id (s.accountName id) := by
  refine stands_of_find haccounts (fun a ha => ?_) fun ha => ?_ <;>
    · rw [accountName, account?, ha]
      rfl

include hvaults haccounts in
theorem vaultSheet_of_vaultDetail {id : Text} {accounts lines : List Text}
    (h : s.vaultDetail id accounts = .ok lines) :
    s.VaultStands (s.VaultSheet accounts) [deleted] id lines := by
  refine stands_of_find hvaults (fun v hv => ?_) fun hv => ?_ <;> unfold vaultDetail vault? at h <;>
    rw [hv] at h
  · obtain ⟨created, hcreated, h⟩ := bind_eq_ok_iff.1 h
    obtain ⟨modified, hmodified, h⟩ := bind_eq_ok_iff.1 h
    cases h
    refine ⟨created, modified, accounts.map s.accountName, showsMoment_of_momentText hcreated,
      showsMoment_of_momentText hmodified, ?_, by rw [List.map_map]; rfl⟩
    exact List.forall₂_map_right_iff.2
      (List.forall₂_same.2 fun id _ => accountStands_accountName haccounts id)
  · cases h
    rfl

include hvaults haccounts in
theorem accountSheet_of_accountDetail {id vaultId : Text} {reveal : Bool} {lines : List Text}
    (h : s.accountDetail id vaultId reveal = .ok lines) :
    s.AccountStands (s.AccountSheet vaultId reveal) [deleted] id lines := by
  refine stands_of_find haccounts (fun a ha => ?_) fun ha => ?_ <;> unfold accountDetail account? at h <;>
    rw [ha] at h
  · obtain ⟨modified, hmodified, h⟩ := bind_eq_ok_iff.1 h
    cases h
    exact ⟨s.vaultName vaultId, modified, namesVault_vaultName hvaults vaultId,
      showsMoment_of_momentText hmodified, by simp⟩
  · cases h
    rfl

include haccounts in
theorem recentLine_of_recentAccount {id line : Text} (h : s.recentAccount id = .ok line) :
    s.AccountStands s.RecentLine (indent ++ bullet ++ deleted) id line := by
  refine stands_of_find haccounts (fun a ha => ?_) fun ha => ?_ <;> unfold recentAccount account? at h <;>
    rw [ha] at h
  · obtain ⟨modified, hmodified, h⟩ := bind_eq_ok_iff.1 h
    cases h
    exact ⟨modified, showsDate_of_dateText hmodified, rfl⟩
  · cases h
    rfl

include haccounts in
theorem accountStands_foundAccount (id : Text) :
    s.AccountStands (fun a line => line = indent ++ a.name ++ " @" ++ a.username) (indent ++ deleted) id
      (s.foundAccount id) := by
  refine stands_of_find haccounts (fun a ha => ?_) fun ha => ?_ <;>
    · rw [foundAccount, account?, ha]

include hvaults in
theorem vaultStands_found (id : Text) :
    s.VaultStands (fun v line => line = indent ++ v.name) (indent ++ deleted) id
      (indent ++ ((s.vault? id).map (·.name)).getD deleted) := by
  refine stands_of_find hvaults (fun v hv => ?_) fun hv => ?_ <;>
    · rw [vault?, hv]
      rfl

theorem searchResults_eq (vaults accounts : List Text) :
    s.searchResults vaults accounts =
      (let vaultLines := vaults.map fun id => indent ++ ((s.vault? id).map (·.name)).getD deleted
      let accountLines := accounts.map s.foundAccount
      counted "Vaults" vaultLines
        ++ (if vaultLines = [] ∨ accountLines = [] then [] else [[]])
        ++ counted "Accounts" accountLines) := by
  cases vaults <;> cases accounts <;> simp [searchResults, counted]

include hvaults haccounts in
/-- **The lines of a payload tell of its records one by one**, where no identifier is used twice. -/
theorem sheet_of_payloadLines {p : Payload} {lines : List Text} (h : s.payloadLines p = .ok lines) :
    s.Sheet p lines := by
  cases p with
  | vaultList ids =>
    obtain ⟨blocks, hblocks, h⟩ := bind_eq_ok_iff.1 h
    cases h
    refine .vaultList ((mapM_eq_ok_iff.1 hblocks).imp fun place block hrow => ?_)
    exact vaultBlock_of_vaultRow hvaults hrow
  | accountList ids =>
    obtain ⟨blocks, hblocks, h⟩ := bind_eq_ok_iff.1 h
    cases h
    refine .accountList ((mapM_eq_ok_iff.1 hblocks).imp fun place block hrow => ?_)
    cases hrow
    exact accountBlock_accountRow hvaults haccounts _ place.1
  | vaultDetail id accounts => exact .vaultDetail (vaultSheet_of_vaultDetail hvaults haccounts h)
  | accountDetail id vaultId reveal =>
    exact .accountDetail (accountSheet_of_accountDetail hvaults haccounts h)
  | searchResults vaults accounts =>
    cases h
    rw [searchResults_eq]
    refine .searchResults (List.forall₂_map_right_iff.2 ?_) (List.forall₂_map_right_iff.2 ?_)
    · exact List.forall₂_same.2 fun id _ => vaultStands_found hvaults id
    · exact List.forall₂_same.2 fun id _ => accountStands_foundAccount haccounts id
  | stats vaults accounts recent =>
    obtain ⟨lines, hlines, h⟩ := bind_eq_ok_iff.1 h
    cases h
    exact .stats ((mapM_eq_ok_iff.1 hlines).imp fun id line hline =>
      recentLine_of_recentAccount haccounts hline)

end

/-! ## What the lines see -/

/-- The records of a snapshot. -/
def records : Records := ⟨s.vaults, s.accounts⟩

/-- Items are treated alike one by one. -/
theorem mapM_congr {α β : Type} {f g : α → Except Failure β} {items : List α}
    (h : ∀ a ∈ items, f a = g a) : items.mapM f = items.mapM g := by
  induction items with
  | nil => rfl
  | cons a rest ih =>
    rw [List.mapM_cons, List.mapM_cons, h a List.mem_cons_self,
      ih fun b hb => h b (List.mem_cons_of_mem a hb)]

theorem rows_congr {row row' : Text → Text → Except Failure (List Text)} {ids : List Text}
    (h : ∀ number, ∀ id ∈ ids, row number id = row' number id) : rows row ids = rows row' ids := by
  unfold rows
  rw [mapM_congr fun place hplace => h _ place.1 (List.fst_mem_of_mem_zipIdx hplace)]

section
variable {s} {s' : Snapshot} {id : Text}

theorem mem_of_vault? {v : Vault} (h : s.vault? id = some v) : v ∈ s.vaults :=
  List.mem_reverse.1 (List.mem_of_find?_eq_some h)

theorem mem_of_account? {a : Account} (h : s.account? id = some a) : a ∈ s.accounts :=
  List.mem_reverse.1 (List.mem_of_find?_eq_some h)

theorem vault?_congr (h : (Reference.vault id).Same s.records s'.records) : s'.vault? id = s.vault? id := by
  rw [vault?, vault?, ← List.getLast?_filter, ← List.getLast?_filter]
  exact congrArg List.getLast? h

theorem account?_congr (h : (Reference.account id).Same s.records s'.records) :
    s'.account? id = s.account? id := by
  rw [account?, account?, ← List.getLast?_filter, ← List.getLast?_filter]
  exact congrArg List.getLast? h

theorem vaultName_congr (h : (Reference.vault id).Same s.records s'.records) :
    s'.vaultName id = s.vaultName id := by rw [vaultName, vaultName, vault?_congr h]

theorem accountName_congr (h : (Reference.account id).Same s.records s'.records) :
    s'.accountName id = s.accountName id := by rw [accountName, accountName, account?_congr h]

theorem wall_congr (hzone : s'.zone = s.zone) : s'.wall = s.wall := by
  unfold wall
  rw [hzone]

theorem dateText_congr (hzone : s'.zone = s.zone) : s'.dateText = s.dateText := by
  unfold dateText
  rw [wall_congr hzone]

theorem momentText_congr (hzone : s'.zone = s.zone) : s'.momentText = s.momentText := by
  unfold momentText
  rw [wall_congr hzone]

/-- The line of an account that is there names the vault that the account is in. -/
theorem accountRow_congr {ids : List Text} (hid : id ∈ ids)
    (hsame : (Reference.account id).Same s.records s'.records)
    (hnamed : ∀ vaultId ∈ (Payload.accountList ids).namedVaults s.records,
      (Reference.vault vaultId).Same s.records s'.records) (number : Text) :
    s'.accountRow number id = s.accountRow number id := by
  unfold accountRow
  rw [account?_congr hsame]
  cases hfound : s.account? id with
  | none => rfl
  | some a =>
    have hsameId : a.id = id := by simpa using List.find?_some hfound
    have hvault : s'.vaultName a.vaultId = s.vaultName a.vaultId := by
      refine vaultName_congr (hnamed _ (List.mem_map_of_mem (List.mem_filter.2 ⟨mem_of_account? hfound, ?_⟩)))
      rw [hsameId]
      exact decide_eq_true hid
    simp only [hvault]

/-- **The lines of a payload see its records and the vaults that it names**, and nothing else of a
store. -/
theorem payloadLines_congr (hzone : s'.zone = s.zone) {p : Payload}
    (hsame : ∀ ref ∈ p.references, ref.Same s.records s'.records)
    (hnamed : ∀ id ∈ p.namedVaults s.records, (Reference.vault id).Same s.records s'.records) :
    s'.payloadLines p = s.payloadLines p := by
  cases p with
  | vaultList ids =>
    refine rows_congr fun number id hid => ?_
    unfold vaultRow
    rw [vault?_congr (hsame _ (List.mem_map_of_mem hid)), dateText_congr hzone]
  | accountList ids =>
    show rows (fun number id => .ok (s'.accountRow number id)) ids =
      rows (fun number id => .ok (s.accountRow number id)) ids
    refine rows_congr fun number id hid => ?_
    rw [accountRow_congr hid (hsame _ (List.mem_map_of_mem hid)) hnamed]
  | vaultDetail id accounts =>
    show s'.vaultDetail id accounts = s.vaultDetail id accounts
    have hnames : (accounts.map fun id => indent ++ bullet ++ s'.accountName id) =
        accounts.map fun id => indent ++ bullet ++ s.accountName id := by
      refine List.map_congr_left fun id hid => ?_
      rw [accountName_congr (hsame _ (List.mem_cons_of_mem _ (List.mem_map_of_mem hid)))]
    unfold vaultDetail
    rw [vault?_congr (hsame _ List.mem_cons_self), momentText_congr hzone, hnames]
  | accountDetail id vaultId reveal =>
    show s'.accountDetail id vaultId reveal = s.accountDetail id vaultId reveal
    unfold accountDetail
    rw [account?_congr (hsame _ List.mem_cons_self), momentText_congr hzone,
      vaultName_congr (hnamed _ List.mem_cons_self)]
  | searchResults vaults accounts =>
    have hvaults : (vaults.map fun id => indent ++ ((s'.vault? id).map (·.name)).getD deleted) =
        vaults.map fun id => indent ++ ((s.vault? id).map (·.name)).getD deleted := by
      refine List.map_congr_left fun id hid => ?_
      rw [vault?_congr (hsame _ (List.mem_append_left _ (List.mem_map_of_mem hid)))]
    have haccounts : accounts.map s'.foundAccount = accounts.map s.foundAccount := by
      refine List.map_congr_left fun id hid => ?_
      unfold foundAccount
      rw [account?_congr (hsame _ (List.mem_append_right _ (List.mem_map_of_mem hid)))]
    show Except.ok (s'.searchResults vaults accounts) = .ok (s.searchResults vaults accounts)
    rw [searchResults_eq, searchResults_eq, hvaults, haccounts]
  | stats vaults accounts recent =>
    have hrecent : recent.mapM s'.recentAccount = recent.mapM s.recentAccount := by
      refine mapM_congr fun id hid => ?_
      unfold recentAccount
      rw [account?_congr (hsame _ (List.mem_map_of_mem hid)), dateText_congr hzone]
    simp only [payloadLines, hrecent]

/-- What an entry is shown as sees no more of a store. -/
theorem entryText_congr (hzone : s'.zone = s.zone) {e : Entry} {p : Payload}
    (hp : e.payload = some p) (hsame : ∀ ref ∈ p.references, ref.Same s.records s'.records)
    (hnamed : ∀ id ∈ p.namedVaults s.records, (Reference.vault id).Same s.records s'.records) :
    s'.entryText e = s.entryText e := by
  unfold entryText
  simp only [hp, payloadText, payloadLines_congr hzone hsame hnamed]

end

end Snapshot

end VaultConsole
