import VaultConsole.Time.Timestamp

/-!
# Records

A vault is a named container, an account holds credentials and names the vault it belongs to.

* `Vault`, `Account`: the records.
* `VaultDraft`, `AccountDraft`: what is given when one is made.
* `VaultField`, `AccountField`: what can be changed later, and `Vault.write`, `Account.write`.
-/

namespace VaultConsole

/-- A named container of accounts. -/
structure Vault where
  id : Text
  name : Text
  description : Text
  created : Timestamp
  modified : Timestamp
  deriving DecidableEq

/-- Credentials that are kept in a vault. -/
structure Account where
  id : Text
  vaultId : Text
  name : Text
  username : Text
  password : Text
  url : Text
  notes : Text
  created : Timestamp
  modified : Timestamp
  deriving DecidableEq

/-- What is given when a vault is made. -/
structure VaultDraft where
  name : Text
  description : Text
  deriving DecidableEq

/-- What is given when an account is made. -/
structure AccountDraft where
  vaultId : Text
  name : Text
  username : Text
  password : Text
  url : Text
  notes : Text
  deriving DecidableEq

/-- The vault of a draft, made at a time. -/
def VaultDraft.record (d : VaultDraft) (id : Text) (now : Timestamp) : Vault :=
  { id, name := d.name, description := d.description, created := now, modified := now }

/-- The account of a draft, made at a time. -/
def AccountDraft.record (d : AccountDraft) (id : Text) (now : Timestamp) : Account :=
  { id, vaultId := d.vaultId, name := d.name, username := d.username, password := d.password
    url := d.url, notes := d.notes, created := now, modified := now }

/-- The fields of a vault that can be changed. -/
inductive VaultField
  | name
  | description
  deriving DecidableEq

/-- The fields of an account that can be changed. -/
inductive AccountField
  | name
  | username
  | password
  | url
  | notes
  deriving DecidableEq

def VaultField.ofKey? (key : Text) : Option VaultField :=
  if key = "name" then some .name else if key = "description" then some .description else none

def AccountField.ofKey? (key : Text) : Option AccountField :=
  if key = "name" then some .name
  else if key = "username" then some .username
  else if key = "password" then some .password
  else if key = "url" then some .url
  else if key = "notes" then some .notes
  else none

/-- A vault with another value in a field. -/
def Vault.write (v : Vault) (value : Text) : VaultField → Vault
  | .name => { v with name := value }
  | .description => { v with description := value }

/-- An account with another value in a field. -/
def Account.write (a : Account) (value : Text) : AccountField → Account
  | .name => { a with name := value }
  | .username => { a with username := value }
  | .password => { a with password := value }
  | .url => { a with url := value }
  | .notes => { a with notes := value }

/-- A vault with other values. -/
def Vault.writeAll (updates : List (VaultField × Text)) (v : Vault) : Vault :=
  updates.foldl (fun v u => v.write u.2 u.1) v

/-- A vault with other values, changed at a time. -/
def Vault.amend (updates : List (VaultField × Text)) (now : Timestamp) (v : Vault) : Vault :=
  { v.writeAll updates with modified := now }

/-- An account with other values. -/
def Account.writeAll (updates : List (AccountField × Text)) (a : Account) : Account :=
  updates.foldl (fun a u => a.write u.2 u.1) a

/-- An account with other values, changed at a time. -/
def Account.amend (updates : List (AccountField × Text)) (now : Timestamp) (a : Account) :
    Account :=
  { a.writeAll updates with modified := now }

end VaultConsole
