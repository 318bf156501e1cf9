import VaultConsole.Store.Records
import VaultConsole.World

/-!
# Stores

A store holds collections of records, in memory only or with a data file that is written anew
after every change. A change whose writing is refused is taken back, so the collections never
hold what the file does not.

A part of a store can be out of order: then an operation fails as it is told to, or answers with
a value that it was given and does nothing. A listing may have other records than the store, and an
identifier may stand for a value of another kind, of which an event says something else.

An account can be held while others may change it: it is followed through all changes, and when
it is taken away it keeps the values that it had last.

* `Store`, `Depot`: a store, and a store in its world.
* `Depot.createVault` and its neighbours: the operations.
* `Store.labelOf`: what an event says of an identifier.
* `Depot.save`: writing the data file.
* `Store.hold`, `Store.release`: an account that is held.
* `Store.load`: the store of a data file.
-/

namespace VaultConsole

/-- The operations of a store that can be out of order. -/
inductive Operation
  | listVaults
  | listAccounts
  | createVault
  | createAccount
  | updateVault
  | updateAccount
  | deleteVault
  | deleteAccount
  /-- What an event says of an identifier. -/
  | identify
  | document
  | save
  /-- What follows every change of the records. -/
  | settle
  | rollBack
  deriving DecidableEq

/-- The operations that have a name. -/
def Operation.names : List (Text × Operation) :=
  [("list_vaults", .listVaults), ("list_accounts", .listAccounts), ("create_vault", .createVault),
    ("create_account", .createAccount), ("update_vault", .updateVault),
    ("update_account", .updateAccount), ("delete_vault", .deleteVault),
    ("delete_account", .deleteAccount), ("to_dict", .document), ("save", .save),
    ("_changed", .settle), ("_rollback", .rollBack)]

def Operation.ofName? (name : Text) : Option Operation := Table.get? name Operation.names

/-- How an operation is out of order. -/
inductive Fault
  | fails (failure : Failure)
  | answers (value : Json)
  /-- A listing has these records. -/
  | lists (records : Records)
  /-- These identifiers stand for values of other kinds: what an event says of each, or why it cannot say
  anything. -/
  | labels (values : Table Text (Except Failure Json))

/-- The answer of an operation: its own, or a value that was put in its place. -/
inductive Answer (α : Type)
  | own (value : α)
  | foreign (value : Json)

/-- Where the records are kept. -/
inductive Keeping
  | memory
  /-- In a file too, which last received this document. -/
  | file (path : Path) (saved : Json)

/-- An account that is held. -/
inductive Held
  /-- It is in the store, with so many accounts in front of it. -/
  | present (place : Nat)
  /-- It was taken away, and then had these values. -/
  | gone (account : Account)

/-- What an account is by now that is held among accounts. -/
def Held.account? (accounts : List Account) : Held → Option Account
  | present place => accounts[place]?
  | gone account => some account

/-- A held account when of all accounts only those stay that meet a condition. -/
def Held.keep (stays : Account → Bool) (accounts : List Account) (h : Held) : Held :=
  match h with
  | present place =>
    match accounts[place]? with
    | some account =>
      -- its place counts only the accounts in front of it that stay
      if stays account then present ((accounts.take place).countP stays) else gone account
    | none => h
  | gone _ => h

/-- Records, where they are kept, and what is out of order. -/
structure Store where
  records : Records
  keeping : Keeping
  faults : Table Operation Fault
  /-- The accounts that are held, the newest first. -/
  held : List Held

def Store.inMemory (records : Records) : Store :=
  { records, keeping := .memory, faults := [], held := [] }

/-- The records that a listing has. -/
def Store.listed (operation : Operation) (s : Store) : Records :=
  match Table.get? operation s.faults with
  | some (.lists records) => records
  | _ => s.records

/-- What an event says of an identifier, or why it cannot say anything. -/
def Store.labelOf (id : Text) (s : Store) : Except Failure Json :=
  match Table.get? .identify s.faults with
  | some (.fails failure) => .error failure
  | some (.answers value) => .ok value
  | some (.labels values) => (Table.get? id values).getD (.ok (.text id))
  | _ => .ok (.text id)

/-- Holds an account. -/
def Store.hold (account : Account) (s : Store) : Store :=
  let accounts := s.records.accounts
  let h : Held :=
    if account ∈ accounts then .present (accounts.idxOf account) else .gone account
  { s with held := h :: s.held }

/-- The account that was held last, as it is by now; it is held no longer. -/
def Store.release (s : Store) : Option Account × Store :=
  (s.held.head?.bind (Held.account? s.records.accounts), { s with held := s.held.drop 1 })

/-- Lets go of the accounts that are taken away because they do not meet a condition. -/
def Store.letGo (stays : Account → Bool) (s : Store) : Store :=
  { s with held := s.held.map (Held.keep stays s.records.accounts) }

structure Depot where
  world : World
  store : Store

namespace Answer

def isYes : Answer Bool → Bool
  | own value => value
  | foreign value => value.isTruthy

variable {α : Type}

/-- An answer as a value. -/
def toJson (own : α → Json) : Answer α → Json
  | .own value => own value
  | .foreign value => value

/-- Whether a listing has items. -/
def hasItems : Answer (List α) → Bool
  | own items => !items.isEmpty
  | foreign value => value.isTruthy

/-- The kind of the first item of a foreign value; a value without items has none, and a value
that cannot have items is an error. -/
def firstKind? : Json → Except Failure (Option Text)
  | .array items => .ok (items.head?.map Json.kindName)
  | .text t => .ok (if t.isEmpty then none else some "str")
  | .object members => .ok (if members.isEmpty then none else some "str")
  | value => .error (.notIterable value.kindName)

/-- The items of a listing, of which a field is going to be read. -/
def itemsWith (field : Text) : Answer (List α) → Except Failure (List α)
  | own items => .ok items
  | foreign value => do
    match ← firstKind? value with
    | none => return []
    | some kind => .error (.noField kind field)

/-- How many items a listing has. -/
def count : Answer (List α) → Except Failure Nat
  | own items => .ok items.length
  | foreign (.array items) => .ok items.length
  | foreign (.text t) => .ok t.length
  | foreign (.object members) => .ok members.length
  | foreign value => .error (.notSized value.kindName)

end Answer

namespace Depot

/-- Does an operation unless it is out of order. -/
def unlessFaulty {α : Type} (operation : Operation) (act : Act Failure Depot α) :
    Act Failure Depot (Answer α) := do
  match ← Act.look fun d => Table.get? operation d.store.faults with
  | some (.fails failure) => Act.fail failure
  | some (.answers value) => return .foreign value
  | _ => return .own (← act)

def inWorld {α : Type} (act : Act Failure World α) : Act Failure Depot α :=
  Act.within (·.world) (fun world d => { d with world }) act

def emit (severity : Severity) (name : Text) (fields : Table Text Json) :
    Act Failure Depot Unit :=
  inWorld (World.emit severity name fields)

def setRecords (records : Records) : Act Failure Depot Unit :=
  Act.change fun d => { d with store := { d.store with records } }

/-- What a problem with the data file amounts to: a refusal of the system and a full disk are
failures of storage. -/
def writeFailure (path : Path) : Disk.Problem → Failure
  | .refused refusal p => .unwritableData path.text (.refused refusal p)
  | .full => .unwritableData path.text .full
  | problem => .ofDisk problem

/-- Writes a document into a data file, whose directory is made if it is missing. -/
def writeDocument (path : Path) (document : Json) : Act Failure Depot Unit :=
  inWorld (Act.rename (writeFailure path) do
    World.makeDirectories path.parent
    World.writeDocument path document)

/-- The records that a data file is to receive. -/
def document : Act Failure Depot (Answer Records) :=
  unlessFaulty .document (Act.look (·.store.records))

/-- Writes the data file anew. -/
def saveNow : Act Failure Depot Unit := do
  match ← Act.look (·.store.keeping) with
  | .memory => Act.fail (.noField "MemoryStore" "save")
  | .file path _ =>
    let saved := (← document).toJson Records.toJson
    writeDocument path saved
    -- only what was written whole counts as saved
    Act.change fun d => { d with store := { d.store with keeping := .file path saved } }

/-- Writes the data file anew, unless that is out of order. -/
def save : Act Failure Depot (Answer Unit) := unlessFaulty .save saveNow

/-- Lets go of the accounts whose like do not stay. -/
def letGo (stays : Account → Bool) : Act Failure Depot Unit :=
  Act.change fun d => { d with store := d.store.letGo stays }

/-- Goes back to the records of a document that was saved, the vaults first. They are other
accounts, even where they are equal to those that were there. -/
def restore (saved : Json) : Act Failure Depot Unit := do
  let vaults ← Act.settle (Records.recordsUnder Vault.ofJson "vaults" saved)
  -- a document whose accounts are no records still gives back its vaults
  setRecords { (← Act.look (·.store.records)) with vaults }
  let accounts ← Act.settle (Records.recordsUnder Account.ofJson "accounts" saved)
  letGo fun _ => false
  setRecords { (← Act.look (·.store.records)) with accounts }

/-- Goes back to the records that the data file last received. -/
def rollBack (path : Path) (saved : Json) : Act Failure Depot (Answer Unit) :=
  unlessFaulty .rollBack do
    restore saved
    emit .warning "store_rollback" [("data_file", .text path.text)]

/-- Saves what was changed. What storage refuses is taken back. -/
def saveOrRollBack (path : Path) (saved : Json) : Act Failure Depot Unit := do
  match ← Act.attempt save with
  | .ok _ => return
  | .error failure =>
    -- any other failure leaves the change in memory
    if failure.kind = .storage then
      let _ ← rollBack path saved
    Act.fail failure

/-- What follows every change of the records. -/
def settle : Act Failure Depot (Answer Unit) :=
  unlessFaulty .settle do
    match ← Act.look (·.store.keeping) with
    | .memory => return
    | .file path saved => saveOrRollBack path saved

def listVaults : Act Failure Depot (Answer (List Vault)) :=
  unlessFaulty .listVaults (Act.look fun d => (d.store.listed .listVaults).vaults)

def listAccounts : Act Failure Depot (Answer (List Account)) :=
  unlessFaulty .listAccounts (Act.look fun d => (d.store.listed .listAccounts).accounts)

/-- The current time and an identifier that is new. -/
def stamp : Act Failure Depot (Text × Timestamp) := do
  let world ← Act.look (·.world)
  let now ← Act.settle world.now
  Act.change fun d => { d with world := d.world.issue }
  return (world.freshId, now)

def createVault (draft : VaultDraft) : Act Failure Depot (Answer Vault) :=
  unlessFaulty .createVault do
    let (id, now) ← stamp
    let vault := draft.record id now
    setRecords ((← Act.look (·.store.records)).addVault vault)
    let _ ← settle
    return vault

def createAccount (draft : AccountDraft) : Act Failure Depot (Answer Account) :=
  unlessFaulty .createAccount do
    let records ← Act.look (·.store.records)
    -- no identifier is given out for an account that is refused
    if !records.hasVault draft.vaultId then Act.fail (.unknownVaultId draft.vaultId)
    let (id, now) ← stamp
    let account := draft.record id now
    setRecords (records.addAccount account)
    let _ ← settle
    return account

/-- Takes over changed records, if there are any. -/
def replace (changed : Option Records) : Act Failure Depot Bool := do
  match changed with
  | none => return false
  | some records =>
    setRecords records
    let _ ← settle
    return true

/-- Takes over changed records, if there are any, from which some accounts were taken away. -/
def remove (stays : Account → Bool) (changed : Option Records) : Act Failure Depot Bool := do
  if changed.isSome then letGo stays
  replace changed

/-- Takes over changed records, if there are any, which no time could be given: the change fails
before it is saved. -/
def leaveUndated (failure : Failure) (changed : Option Records) : Act Failure Depot Bool := do
  match changed with
  | none => return false
  | some records =>
    setRecords records
    Act.fail failure

/-- Gives fields of a vault other values. -/
def updateVault (id : Text) (updates : Table Text Text) : Act Failure Depot (Answer Bool) :=
  unlessFaulty .updateVault do
    let fields ← Act.settle (Records.fieldsOf VaultField.ofKey? updates)
    let d ← Act.state
    match d.world.now with
    | .ok now => replace (d.store.records.updateVault id fields now)
    | .error failure =>
      leaveUndated failure (d.store.records.changeVault id (Vault.writeAll fields))

/-- Gives fields of an account other values. -/
def updateAccount (id : Text) (updates : Table Text Text) : Act Failure Depot (Answer Bool) :=
  unlessFaulty .updateAccount do
    let fields ← Act.settle (Records.fieldsOf AccountField.ofKey? updates)
    let d ← Act.state
    match d.world.now with
    | .ok now => replace (d.store.records.updateAccount id fields now)
    | .error failure =>
      leaveUndated failure (d.store.records.changeAccount id (Account.writeAll fields))

/-- Deletes a vault with its accounts. -/
def deleteVault (id : Text) : Act Failure Depot (Answer Bool) :=
  unlessFaulty .deleteVault do
    remove (·.vaultId != id) ((← Act.look (·.store.records)).deleteVault id)

def deleteAccount (id : Text) : Act Failure Depot (Answer Bool) :=
  unlessFaulty .deleteAccount do
    remove (·.id != id) ((← Act.look (·.store.records)).deleteAccount id)

end Depot

namespace Store

/-- What a problem with the directory of a data file amounts to. -/
def directoryFailure (path : Path) : Disk.Problem → Failure
  | .refused refusal p => .noDataDirectory path.text (.refused refusal p)
  | problem => .ofDisk problem

/-- The records of a data file that is there. -/
def readRecords (path : Path) (w : World) : Except Failure Records :=
  match w.readText path with
  | .error (.refused refusal p) => .error (.unreadableData path.text (.refused refusal p))
  | .error failure => .error (.badData failure)
  | .ok text =>
    match Json.parse text with
    | .error (.flawed spot) => .error (.dataNotJson spot)
    | .error (.tooManyDigits count) => .error (.badData (.tooManyDigits count))
    | .error (.tooDeep isObject) => .error (.tooDeep isObject)
    | .ok value =>
      match Records.ofJson value with
      | .error failure => .error (.badData failure)
      | .ok records => .ok records

/-- The records of a data file. One that is missing has none, and its directory is made. -/
def loadRecords (path : Path) : Act Failure World Records := do
  let w ← Act.state
  if !(← Act.settle (w.holds path)) then
    Act.rename (directoryFailure path.parent) (World.makeDirectories path.parent)
    return .empty
  else
    let records ← Act.settle (readRecords path w)
    World.emit .info "store_loaded"
      [("data_file", .text path.text), ("vaults", .int records.vaults.length),
        ("accounts", .int records.accounts.length)]
    return records

def load (path : Path) : Act Failure World Store := do
  let records ← loadRecords path
  return { records, keeping := .file path records.toJson, faults := [], held := [] }

/-- Another path for the data file, which is not read. -/
def movedTo (path : Path) (s : Store) : Store :=
  match s.keeping with
  | .memory => s
  | .file _ saved => { s with keeping := .file path saved }

/-- Puts an operation out of order, or in order again. -/
def setFault (operation : Operation) (fault : Option Fault) (s : Store) : Store :=
  match fault with
  | none => { s with faults := Table.erase operation s.faults }
  | some fault => { s with faults := Table.put operation fault s.faults }

end Store

end VaultConsole
