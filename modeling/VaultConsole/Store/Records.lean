import VaultConsole.Record.Document

/-!
# Collections of records

The vaults and the accounts of a store, in the order in which they came in. What changes them
is a plain function from collections to collections; an operation on a record that is not there
yields none.

* `Records.addVault`, `Records.addAccount`: a new record stands last.
* `Records.updateVault`, `Records.updateAccount`: the first record with an identifier changes.
* `Records.deleteVault`: a vault goes with its accounts; `Records.deleteAccount`.
* `Records.toJson`, `Records.ofJson`: collections as a document.
* `Records.recordsUnder`: the records that a foreign document has under a key.
-/

namespace VaultConsole

/-- Vaults and accounts. -/
structure Records where
  vaults : List Vault
  accounts : List Account
  deriving DecidableEq

namespace Records

def empty : Records := ⟨[], []⟩

/-- Changes the first item that meets a condition; none if there is no such item. -/
def changeFirst {α : Type} (p : α → Bool) (f : α → α) : List α → Option (List α)
  | [] => none
  | x :: rest => if p x then some (f x :: rest) else (changeFirst p f rest).map (x :: ·)

def addVault (v : Vault) (r : Records) : Records := { r with vaults := r.vaults ++ [v] }

def addAccount (a : Account) (r : Records) : Records := { r with accounts := r.accounts ++ [a] }

def hasVault (id : Text) (r : Records) : Bool := r.vaults.any (·.id == id)

/-- Changes the first vault with an identifier. -/
def changeVault (id : Text) (f : Vault → Vault) (r : Records) : Option Records :=
  (changeFirst (·.id == id) f r.vaults).map fun vaults => { r with vaults }

/-- Changes the first account with an identifier. -/
def changeAccount (id : Text) (f : Account → Account) (r : Records) : Option Records :=
  (changeFirst (·.id == id) f r.accounts).map fun accounts => { r with accounts }

/-- The first vault with an identifier gets other values. -/
def updateVault (id : Text) (updates : List (VaultField × Text)) (now : Timestamp) (r : Records) :
    Option Records :=
  r.changeVault id (Vault.amend updates now)

/-- The first account with an identifier gets other values. -/
def updateAccount (id : Text) (updates : List (AccountField × Text)) (now : Timestamp)
    (r : Records) : Option Records :=
  r.changeAccount id (Account.amend updates now)

/-- Without the vaults of an identifier and the accounts in them. -/
def deleteVault (id : Text) (r : Records) : Option Records :=
  if r.hasVault id then
    some
      { vaults := r.vaults.filter (·.id != id), accounts := r.accounts.filter (·.vaultId != id) }
  else none

/-- Without the accounts of an identifier. -/
def deleteAccount (id : Text) (r : Records) : Option Records :=
  if r.accounts.any (·.id == id) then
    some { r with accounts := r.accounts.filter (·.id != id) }
  else none

/-- The fields of keys, if every key names one. -/
def fieldsOf {φ : Type} (ofKey? : Text → Option φ) (updates : Table Text Text) :
    Except Failure (List (φ × Text)) :=
  match (Table.keys updates).filter fun key => (ofKey? key).isNone with
  | [] => .ok (updates.filterMap fun (key, value) => (ofKey? key).map fun field => (field, value))
  | invalid => .error (.invalidFields (Text.sort invalid))

def toJson (r : Records) : Json :=
  .object
    [("vaults", .array (r.vaults.map Vault.toJson)),
      ("accounts", .array (r.accounts.map Account.toJson))]

/-- The array of a key. -/
def arrayOf (key : Text) (members : Table Text Json) : Except Failure (List Json) :=
  match Table.get? key members with
  | none => .error (.documentLacks key)
  | some (.array items) => .ok items
  | some _ => .error (.documentNotArray key)

/-- Every item of an array is an object. -/
def checkObjects (kind : Text) : (index : Nat) → List Json → Except Failure Unit
  | _, [] => .ok ()
  | index, .object _ :: rest => checkObjects kind (index + 1) rest
  | index, _ :: _ => .error (.recordNotObject kind index)

/-- The two arrays of a document, both of objects. -/
def arraysOf (value : Json) : Except Failure (List Json × List Json) :=
  match value with
  | .object members => do
    let vaults ← arrayOf "vaults" members
    let accounts ← arrayOf "accounts" members
    checkObjects "Vault" 0 vaults
    checkObjects "Account" 0 accounts
    return (vaults, accounts)
  | _ => .error .documentNotObject

/-- The collections of a document. -/
def ofJson (value : Json) : Except Failure Records := do
  let (vaults, accounts) ← arraysOf value
  return { vaults := ← vaults.mapM Vault.ofJson, accounts := ← accounts.mapM Account.ofJson }

/-- What a foreign value has under a key. -/
def memberOf (key : Text) : Json → Except Failure Json
  | .object members =>
    match Table.get? key members with
    | some value => .ok value
    | none => .error (.lacksKey key)
  | value => .error (.noMembers value.kindName)

/-- The items of a foreign value: those of an array, the keys of an object, the code points of a
text. -/
def itemsOf : Json → Except Failure (List Json)
  | .array items => .ok items
  | .object members => .ok ((Table.keys members).map .text)
  | .text t => .ok (t.map fun c => .text [c])
  | value => .error (.notIterable value.kindName)

/-- The records that a foreign document has under a key. -/
def recordsUnder {α : Type} (ofJson : Json → Except Failure α) (key : Text) (value : Json) :
    Except Failure (List α) := do
  (← itemsOf (← memberOf key value)).mapM ofJson

end Records

end VaultConsole
