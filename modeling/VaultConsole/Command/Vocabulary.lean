import VaultConsole.Failure

/-!
# The vocabulary of commands

The verbs, the actions on vaults and on accounts, their other spellings, and what the help says
about each.

* `Verb.ofToken?`: the verb of a word.
* `VaultAction.select`, `AccountAction.select`: the action of a word.
* `Manual`: the form of a command and what it is for.
-/

namespace VaultConsole

/-- What the help says about a command. -/
structure Manual where
  usage : Text
  summary : Text
  deriving DecidableEq

/-- The commands. -/
inductive Verb
  | help
  | clear
  | exit
  | openPage
  | vault
  | account
  | search
  | stats
  deriving DecidableEq

namespace Verb

def all : List Verb := [help, clear, exit, openPage, vault, account, search, stats]

def name : Verb → Text
  | help => "help"
  | clear => "clear"
  | exit => "exit"
  | openPage => "open"
  | vault => "vault"
  | account => "account"
  | search => "search"
  | stats => "stats"

/-- The usual spelling of a word. -/
def unalias (token : Text) : Text :=
  if token = "quit" then "exit"
  else if token = "--help" ∨ token = "-h" then "help"
  else token

def ofToken? (token : Text) : Option Verb := all.find? (·.name = unalias token)

def manual : Verb → Manual
  | help => ⟨"help [topic]", "Show help (topics: vault, account, search)"⟩
  | clear => ⟨"clear", "Clear terminal output"⟩
  | stats => ⟨"stats", "Show system statistics"⟩
  | exit => ⟨"exit", "Exit CLI and return to overview"⟩
  | openPage => ⟨"open <page>", "Open vaults, accounts, profile or overview"⟩
  | vault => ⟨"vault <action>", "Vault management"⟩
  | account => ⟨"account <action>", "Account management"⟩
  | search => ⟨"search <query>", "Search vaults and accounts"⟩

/-- Whether a command empties the result log instead of answering. -/
def clearsLog (v : Verb) : Bool := v == clear

end Verb

/-- The usual spelling of an action. -/
def unaliasAction (token : Text) : Text :=
  if token = "ls" then "list" else if token = "rm" then "delete" else token

/-- The actions on vaults. -/
inductive VaultAction
  | list
  | create
  | update
  | delete
  | detail
  deriving DecidableEq

namespace VaultAction

def all : List VaultAction := [list, create, update, delete, detail]

def name : VaultAction → Text
  | list => "list"
  | create => "create"
  | update => "update"
  | delete => "delete"
  | detail => "show"

def manual : VaultAction → Manual
  | list => ⟨"vault list", "List all vaults"⟩
  | create =>
    ⟨"vault create --name \"Vault Name\" [--description \"Description\"]", "Create new vault"⟩
  | update =>
    ⟨"vault update --name \"Vault Name\" [--newname \"New Name\"] "
      ++ "[--description \"New Description\"]", "Update vault"⟩
  | delete => ⟨"vault delete --name \"Vault Name\"", "Delete vault"⟩
  | detail => ⟨"vault show --name \"Vault Name\"", "Show vault details"⟩

end VaultAction

/-- The actions on accounts. -/
inductive AccountAction
  | list
  | create
  | update
  | delete
  | detail
  | password
  deriving DecidableEq

namespace AccountAction

def all : List AccountAction := [list, create, update, delete, detail, password]

def name : AccountAction → Text
  | list => "list"
  | create => "create"
  | update => "update"
  | delete => "delete"
  | detail => "show"
  | password => "password"

def manual : AccountAction → Manual
  | list => ⟨"account list [--vault \"Vault Name\"]", "List accounts"⟩
  | create =>
    ⟨"account create --vault \"Vault Name\" --name \"Account Name\" --username \"user\" "
      ++ "--password \"pass\" [--url \"https://...\"] [--notes \"notes\"]", "Create new account"⟩
  | update =>
    ⟨"account update --name \"Account Name\" [--newname \"New Name\"] [--username \"user\"] "
      ++ "[--password \"pass\"] [--url \"url\"] [--notes \"notes\"]", "Update account"⟩
  | delete => ⟨"account delete --name \"Account Name\"", "Delete account"⟩
  | detail => ⟨"account show --name \"Account Name\" [--reveal]", "Show account details"⟩
  | password => ⟨"account password --name \"Account Name\"", "Copy password to clipboard"⟩

end AccountAction

/-- The action of a word among those that a domain has; the failure names them all. -/
def selectAction {α : Type} (domain : Text) (actions : List α) (name : α → Text) (token : Text) :
    Except Failure α :=
  match actions.find? (name · = unaliasAction token) with
  | some action => .ok action
  | none => .error (.unknownAction domain (Text.joinWith ", " (actions.map name)))

/-- The action on vaults of a word, among some. -/
def VaultAction.select (among : List VaultAction) (token : Text) : Except Failure VaultAction :=
  selectAction "vault" among VaultAction.name token

/-- The action on accounts of a word, among some. -/
def AccountAction.select (among : List AccountAction) (token : Text) :
    Except Failure AccountAction :=
  selectAction "account" among AccountAction.name token

end VaultConsole
