import VaultConsole.Text.Basic

/-!
# Entries

What a command answers: a kind, a message, and records that the message is about. An entry
names records by their identifiers only, so it can be shown later, when they have changed.

* `Entry`, `Payload`: an answer.
* `Deletion`: a deletion that waits for an answer of the user.
-/

namespace VaultConsole

/-- The kinds of entries. -/
inductive EntryKind
  | success
  | error
  | info
  | prompt
  deriving DecidableEq

def EntryKind.name : EntryKind → Text
  | success => "success"
  | error => "error"
  | info => "info"
  | prompt => "prompt"

/-- The records that an entry is about. -/
inductive Payload
  | vaultList (vaults : List Text)
  | accountList (accounts : List Text)
  | vaultDetail (vault : Text) (accounts : List Text)
  | accountDetail (account vault : Text) (reveal : Bool)
  | searchResults (vaults accounts : List Text)
  | stats (vaults accounts : Int) (recent : List Text)
  deriving DecidableEq

/-- What a command answers. -/
structure Entry where
  kind : EntryKind
  message : Text
  payload : Option Payload
  deriving DecidableEq

namespace Entry

/-- An answer that something was done. -/
def success (message : Text) : Entry := ⟨.success, message, none⟩

/-- An answer with records. -/
def found (message : Text) (payload : Payload) : Entry := ⟨.success, message, some payload⟩

def error (message : Text) : Entry := ⟨.error, message, none⟩

/-- A remark. -/
def info (message : Text) : Entry := ⟨.info, message, none⟩

/-- A question. -/
def prompt (message : Text) : Entry := ⟨.prompt, message, none⟩

end Entry

/-- What can be deleted. -/
inductive Deletable
  | vault
  | account
  deriving DecidableEq

def Deletable.operationName : Deletable → Text
  | vault => "delete_vault"
  | account => "delete_account"

/-- The word for what is deleted. -/
def Deletable.word : Deletable → Text
  | vault => "vault"
  | account => "account"

/-- The same word at the beginning of a sentence. -/
def Deletable.title : Deletable → Text
  | vault => "Vault"
  | account => "Account"

/-- A deletion that was asked for but not yet confirmed. -/
structure Deletion where
  kind : Deletable
  targetId : Text
  targetName : Text
  /-- How many accounts go with a vault. -/
  cascade : Int
  deriving DecidableEq

end VaultConsole
