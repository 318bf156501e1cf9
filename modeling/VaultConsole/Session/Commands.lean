import VaultConsole.Entry.Basic
import VaultConsole.Session.Basic

/-!
# What commands do

Each command takes arguments that are already cut out of the line, works on the session and
answers with an entry. A deletion is planned first, and carried out when it was confirmed.

* `Session.openPage`, `Session.requestExit`: effects that wait until they were announced.
* `Session.listVaults` to `Session.updateAccount`: records.
* `Session.secretOf`: the account whose secret is to be copied; `Session.secretEntry`: the
  answer after it was.
* `Session.planVaultDeletion`, `Session.planAccountDeletion`, `Session.executeDeletion`.
* `Session.search`, `Session.stats`.
-/

namespace VaultConsole.Session

/-- A number of things. -/
def plural (count : Nat) (noun : Text) : Text :=
  Text.ofNat count ++ " " ++ noun ++ (if count = 1 then ([] : Text) else "s")

def pageNames : Text := Text.joinWith ", " (Page.all.map Page.name)

/-- Announces that a page will be shown. -/
def openPage (name : Text) : Act Failure Session Entry := do
  requireNavigator
  match Page.ofName? name with
  | none => Act.fail (.unknownPage name pageNames)
  | some page =>
    defer (.navigate page)
    return .success ("Opening " ++ page.name ++ " page...")

/-- Announces that the session ends. -/
def requestExit : Act Failure Session Entry := do
  requireExit
  defer .exit
  return .info "Exiting CLI..."

def listVaults : Act Failure Session Entry := do
  let vaults ← inDepot Depot.listVaults
  if !vaults.hasItems then
    return .info "No vaults found. Use \"vault create\" to create one."
  else
    let count ← Act.settle vaults.count
    let items ← Act.settle (vaults.itemsWith "id")
    return .found ("Found " ++ plural count "vault" ++ ":") (.vaultList (items.map (·.id)))

def createVault (name description : Text) : Act Failure Session Entry := do
  let _ ← inDepot (Depot.createVault { name, description })
  return .success ("Vault " ++ Failure.named name ++ " created successfully.")

/-- The updates that were given; an empty text counts as none. -/
def given (candidates : List (Text × Option Text)) : Table Text Text :=
  candidates.filterMap fun (key, value) =>
    match value with
    | some value => if value.isEmpty then none else some (key, value)
    | none => none

/-- Gives fields of a vault other values. -/
def updateVault (name : Text) (newName description : Option Text) :
    Act Failure Session Entry := do
  let vault ← findVault name
  let updates := given [("name", newName), ("description", description)]
  if !updates.isEmpty then
    if !(← inDepot (Depot.updateVault vault.id updates)).isYes then
      Act.fail (.notUpdated "Vault" name)
  return .success ("Vault " ++ Failure.named name ++ " updated successfully.")

/-- One vault and its accounts. -/
def showVault (name : Text) : Act Failure Session Entry := do
  let vault ← findVault name
  let accounts ← accountsIn vault.id
  return .found ("Vault: " ++ vault.name) (.vaultDetail vault.id (accounts.map (·.id)))

/-- The deletion of a vault, with the number of accounts that go with it. -/
def planVaultDeletion (name : Text) : Act Failure Session Deletion := do
  let vault ← findVault name
  let accounts ← accountsIn vault.id
  return { kind := .vault, targetId := vault.id, targetName := vault.name, cascade := accounts.length }

/-- All accounts, or those in a vault. -/
def listAccounts (vaultName : Option Text) : Act Failure Session Entry := do
  let items ← match vaultName.filter (!·.isEmpty) with
    | some vaultName => do
      let vault ← findVault vaultName
      accountsIn vault.id
    | none => accountsWith "id"
  if items.isEmpty then return .info "No accounts found. Use \"account create\" to create one."
  else
    return .found ("Found " ++ plural items.length "account" ++ ":")
      (.accountList (items.map (·.id)))

/-- Makes an account in a vault. -/
def createAccount (vaultName name username password url notes : Text) :
    Act Failure Session Entry := do
  let vault ← findVault vaultName
  let _ ← inDepot
    (Depot.createAccount { vaultId := vault.id, name, username, password, url, notes })
  return .success ("Account " ++ Failure.named name ++ " created successfully in vault "
    ++ Failure.named vault.name ++ ".")

/-- Gives fields of an account other values. -/
def updateAccount (name : Text) (newName username password url notes : Option Text) :
    Act Failure Session Entry := do
  let account ← findAccount name
  let updates := given
    [("name", newName), ("username", username), ("password", password), ("url", url),
      ("notes", notes)]
  if !updates.isEmpty then
    if !(← inDepot (Depot.updateAccount account.id updates)).isYes then
      Act.fail (.notUpdated "Account" name)
  return .success ("Account " ++ Failure.named name ++ " updated successfully.")

/-- One account. -/
def showAccount (name : Text) (reveal : Bool) : Act Failure Session Entry := do
  let account ← findAccount name
  return .found ("Account: " ++ account.name) (.accountDetail account.id account.vaultId reveal)

/-- The account whose secret is to be copied. -/
def secretOf (name : Text) : Act Failure Session Account := do
  requireClipboard
  findAccount name

/-- The answer after a secret was copied, with the secret if that is wanted. -/
def secretEntry (echo : Bool) (account : Account) : Entry :=
  if echo then
    .success ("Password for " ++ Failure.named account.name ++ ": " ++ account.password
      ++ "\n\n(Copied to clipboard)")
  else .success ("Password for " ++ Failure.named account.name ++ " copied to clipboard.")

/-- Copies the secret of an account where nobody takes further lines. -/
def copySecret (name : Text) (echo : Bool) : Act Failure Session Entry := do
  let account ← secretOf name
  match (← copy account.password).failure with
  | some failure => Act.fail failure
  | none => return secretEntry echo account

def planAccountDeletion (name : Text) : Act Failure Session Deletion := do
  let account ← findAccount name
  return { kind := .account, targetId := account.id, targetName := account.name, cascade := 0 }

/-- What a deletion entails, and how to answer. -/
def confirmationPrompt (d : Deletion) : Text :=
  let how : Text := "Type \"yes\" to confirm or \"cancel\" to abort."
  match d.kind with
  | .vault =>
    "WARNING: Delete vault " ++ Failure.named d.targetName ++ "? This will also delete "
      ++ Text.ofInt d.cascade ++ " account(s). " ++ how
  | .account => "Delete account " ++ Failure.named d.targetName ++ "? " ++ how

def executeDeletion (d : Deletion) : Act Failure Session Entry := do
  let answer ← inDepot (match d.kind with
    | .vault => Depot.deleteVault d.targetId
    | .account => Depot.deleteAccount d.targetId)
  if !answer.isYes then Act.fail (.notDeleted d.kind.title d.targetName)
  return .success (d.kind.title ++ " " ++ Failure.named d.targetName ++ " deleted successfully.")

/-- Puts a deletion behind the gate and asks. -/
def askToDelete (d : Deletion) : Act Failure Session Entry := do
  match ← Act.look (·.gate) with
  | none => Act.fail .noConfirmation
  | some gate =>
    let gate ← Act.settle (gate.arm d)
    Act.change fun s => { s with gate := some gate }
    return .prompt (confirmationPrompt d)

/-- Whether a text is found in a vault. -/
def vaultMatches (needle : Text) (v : Vault) : Bool :=
  Text.occursIn needle v.name.lower || Text.occursIn needle v.description.lower

/-- Whether a text is found in an account. -/
def accountMatches (needle : Text) (a : Account) : Bool :=
  Text.occursIn needle a.name.lower || Text.occursIn needle a.username.lower
    || Text.occursIn needle a.url.lower

/-- The form of a search. -/
def searchForm : Text := "search <query>"

/-- The records in which a text is found, whatever its case. -/
def search (query : Text) : Act Failure Session Entry := do
  if query.isBlank then Act.fail (.usage searchForm)
  let needle := query.lower
  let vaults := (← vaultsWith "name").filter (vaultMatches needle)
  let accounts := (← accountsWith "name").filter (accountMatches needle)
  if vaults.isEmpty && accounts.isEmpty then
    return .info ("No results found for " ++ Failure.named query ++ ".")
  else
    return .found ("Search results for " ++ Failure.named query ++ ":")
      (.searchResults (vaults.map (·.id)) (accounts.map (·.id)))

/-- How many accounts the statistics name. -/
def recentLimit : Nat := 5

/-- The accounts by the time of their last change, the latest first; equal ones in order. -/
def byRecency (accounts : List Account) : List Account :=
  accounts.mergeSort fun a b => b.modified.instant ≤ a.modified.instant

/-- Totals, and the accounts that changed last. -/
def stats : Act Failure Session Entry := do
  let vaults ← inDepot Depot.listVaults
  let accounts ← inDepot Depot.listAccounts
  let items ← Act.settle (accounts.itemsWith "modified_at")
  let vaultCount ← Act.settle vaults.count
  let accountCount ← Act.settle accounts.count
  return .found "System Statistics"
    (.stats vaultCount accountCount ((byRecency items).take recentLimit |>.map (·.id)))

end VaultConsole.Session
