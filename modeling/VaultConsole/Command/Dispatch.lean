import VaultConsole.Command.Help
import VaultConsole.Session.Commands

/-!
# From lines to commands

The verb of a line and, for vaults and accounts, its second word choose a command; its flags are
the arguments.

* `Reply`: what a command answers.
* `Session.execute`: the reply to a line.
-/

namespace VaultConsole

/-- What a command answers. -/
inductive Reply
  | entry (entry : Entry)
  /-- Nothing; the result log is emptied. -/
  | cleared
  /-- The secret of an account goes to the clipboard, and the entry follows when it is there. -/
  | secret (account : Account) (echo : Bool)
  deriving DecidableEq

namespace Session

/-- A flag that has to be there. -/
def required (manual : Manual) (name : Text) (l : Line) : Act Failure Session Text :=
  Act.settle (l.requireFlag manual.usage name)

/-- Answers with an entry. -/
def answering (act : Act Failure Session Entry) : Act Failure Session Reply := do
  return .entry (← act)

def executeVaultCreate (l : Line) : Act Failure Session Entry := do
  let name ← required VaultAction.create.manual "name" l
  createVault name (l.flag "description")

/-- The deletion of a vault that a line asks for. -/
def vaultDeletionOf (l : Line) : Act Failure Session Deletion := do
  let name ← required VaultAction.delete.manual "name" l
  planVaultDeletion name

/-- Carries out an action on vaults. -/
def executeVault (l : Line) : VaultAction → Act Failure Session Entry
  | .list => listVaults
  | .create => executeVaultCreate l
  | .update => do
    let name ← required VaultAction.update.manual "name" l
    updateVault name (l.flag? "newname") (l.flag? "description")
  | .delete => do askToDelete (← vaultDeletionOf l)
  | .detail => do
    let name ← required VaultAction.detail.manual "name" l
    showVault name

def executeAccountCreate (l : Line) : Act Failure Session Entry := do
  let manual := AccountAction.create.manual
  let vault ← required manual "vault" l
  let name ← required manual "name" l
  let username ← required manual "username" l
  let password ← required manual "password" l
  createAccount vault name username password (l.flag "url") (l.flag "notes")

/-- The deletion of an account that a line asks for. -/
def accountDeletionOf (l : Line) : Act Failure Session Deletion := do
  let name ← required AccountAction.delete.manual "name" l
  planAccountDeletion name

/-- The account whose secret a line asks for. -/
def secretAccountOf (l : Line) : Act Failure Session Account := do
  let name ← required AccountAction.password.manual "name" l
  secretOf name

/-- Carries out an action on accounts. -/
def executeAccount (l : Line) : AccountAction → Act Failure Session Reply
  | .list => answering (listAccounts (l.flag? "vault"))
  | .create => answering (executeAccountCreate l)
  | .update => answering do
    let name ← required AccountAction.update.manual "name" l
    updateAccount name (l.flag? "newname") (l.flag? "username") (l.flag? "password")
      (l.flag? "url") (l.flag? "notes")
  | .delete => answering do askToDelete (← accountDeletionOf l)
  | .detail => answering do
    let name ← required AccountAction.detail.manual "name" l
    showAccount name (l.hasSwitch "reveal")
  | .password => do return .secret (← secretAccountOf l) true

/-- The help that a line asks for. -/
def executeHelp (l : Line) : Act Failure Session Entry := do
  if l.subVerb.isEmpty then return .info Help.overview
  else return .info (← Act.settle (Help.topic l.subVerb))

/-- Carries out a command. -/
def executeVerb (l : Line) : Verb → Act Failure Session Reply
  | .help => answering (executeHelp l)
  | .clear => return .cleared
  | .exit => answering requestExit
  | .openPage => answering (openPage l.subVerb)
  | .vault => do
    let action ← Act.settle (VaultAction.select VaultAction.all l.subVerb)
    answering (executeVault l action)
  | .account => do
    let action ← Act.settle (AccountAction.select AccountAction.all l.subVerb)
    executeAccount l action
  | .search => answering (search l.remainder)
  | .stats => answering stats

/-- The verb of a line. -/
def verbOf (l : Line) : Except Failure Verb :=
  match Verb.ofToken? l.verb with
  | some verb => .ok verb
  | none => .error (.unknownVerb l.verb)

/-- The reply to a line. -/
def execute (l : Line) : Act Failure Session Reply := do
  executeVerb l (← Act.settle (verbOf l))

end Session

end VaultConsole
