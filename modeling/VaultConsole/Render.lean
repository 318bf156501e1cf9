import VaultConsole.Entry.Basic
import VaultConsole.Session.Basic

/-!
# Showing entries

An entry is shown with a sign for its kind, its message, and the records that it names as they
are now; a record that is gone is shown as deleted. Every line but the first is indented or
empty.

* `Snapshot`: records by identifier.
* `Snapshot.payloadText`: the records of an entry.
* `Snapshot.entryText`: a whole entry.
-/

namespace VaultConsole

/-- Records as they are now, and the zone in which dates are shown. -/
structure Snapshot where
  vaults : List Vault
  accounts : List Account
  zone : Zone

namespace Snapshot

def vault? (s : Snapshot) (id : Text) : Option Vault := s.vaults.reverse.find? (·.id == id)

def account? (s : Snapshot) (id : Text) : Option Account := s.accounts.reverse.find? (·.id == id)

def vaultName (s : Snapshot) (id : Text) : Text := ((s.vault? id).map (·.name)).getD "Unknown"

/-- What stands for a record that is gone. -/
def deleted : Text := "(deleted)"

/-- What stands for a secret. -/
def mask : Text := List.replicate 10 (CodePoint.ofNat 0x2022)

def indent : Text := "  "

/-- The sign in front of an item. -/
def bullet : Text := [CodePoint.ofNat 0x2022, CodePoint.ofChar ' ']

/-- A text, or a word that says that there is none. -/
def orNone (t : Text) : Text := if t.isEmpty then "N/A" else t

def wall (s : Snapshot) (t : Timestamp) : Except Failure Timestamp.Wall :=
  match t.wall? s.zone with
  | some w => .ok w
  | none => .error .dateOutOfRange

def dateText (s : Snapshot) (t : Timestamp) : Except Failure Text := do
  return (← s.wall t).dateText

def momentText (s : Snapshot) (t : Timestamp) : Except Failure Text := do
  let w ← s.wall t
  return w.dateText ++ " " ++ w.timeText ":"

/-- The number of a row between brackets, all of one width. -/
def rowNumber (count index : Nat) : Text :=
  "[" ++ Text.rightAligned (Text.ofNat count).length (Text.ofNat (index + 1)) ++ "] "

/-- The lines of a vault in a list. -/
def vaultRow (s : Snapshot) (number id : Text) : Except Failure (List Text) :=
  match s.vault? id with
  | none => .ok [number ++ deleted]
  | some v => do
    let created ← s.dateText v.created
    let description := if v.description.isEmpty then [] else [indent ++ v.description]
    return [number ++ v.name] ++ description ++ [indent ++ "Created: " ++ created]

def accountRow (s : Snapshot) (number id : Text) : List Text :=
  match s.account? id with
  | none => [number ++ deleted]
  | some a =>
    [number ++ a.name, indent ++ "Username: " ++ a.username,
        indent ++ "Vault: " ++ s.vaultName a.vaultId]
      ++ (if a.url.isEmpty then [] else [indent ++ "URL: " ++ a.url])

/-- The rows of a list, each with its number. -/
def rows (row : Text → Text → Except Failure (List Text)) (ids : List Text) :
    Except Failure (List Text) := do
  return (← ids.zipIdx.mapM fun (id, index) => row (rowNumber ids.length index) id).flatten

def accountName (s : Snapshot) (id : Text) : Text :=
  ((s.account? id).map (·.name)).getD deleted

/-- Lines under a title, with an empty line before them. Without lines there is no title. -/
def titled (title : Text) (lines : List Text) : List Text :=
  if lines.isEmpty then [] else [[], title] ++ lines

/-- The lines about one vault. -/
def vaultDetail (s : Snapshot) (id : Text) (accounts : List Text) :
    Except Failure (List Text) :=
  match s.vault? id with
  | none => .ok [deleted]
  | some v => do
    let created ← s.momentText v.created
    let modified ← s.momentText v.modified
    return ["Description: " ++ orNone v.description, "Accounts: " ++ Text.ofNat accounts.length,
        "Created: " ++ created, "Modified: " ++ modified]
      ++ titled "Accounts in this vault:"
        (accounts.map fun id => indent ++ bullet ++ s.accountName id)

/-- The lines about one account. -/
def accountDetail (s : Snapshot) (id vaultId : Text) (reveal : Bool) :
    Except Failure (List Text) :=
  match s.account? id with
  | none => .ok [deleted]
  | some a => do
    let modified ← s.momentText a.modified
    return ["Username: " ++ a.username, "Password: " ++ (if reveal then a.password else mask),
        "URL: " ++ orNone a.url, "Vault: " ++ s.vaultName vaultId]
      ++ (if a.notes.isEmpty then [] else ["Notes: " ++ a.notes])
      ++ ["Modified: " ++ modified]

/-- A number of things that were found. -/
def foundTitle (noun : Text) (count : Nat) : Text := noun ++ " (" ++ Text.ofNat count ++ "):"

/-- The line of an account that was found. -/
def foundAccount (s : Snapshot) (id : Text) : Text :=
  match s.account? id with
  | none => indent ++ deleted
  | some a => indent ++ a.name ++ " @" ++ a.username

/-- The lines of what was found. -/
def searchResults (s : Snapshot) (vaults accounts : List Text) : List Text :=
  let vaultLines : List Text :=
    if vaults.isEmpty then []
    else foundTitle "Vaults" vaults.length
      :: vaults.map fun id => indent ++ ((s.vault? id).map (·.name)).getD deleted
  let accountLines : List Text :=
    if accounts.isEmpty then []
    else foundTitle "Accounts" accounts.length :: accounts.map s.foundAccount
  if vaultLines.isEmpty || accountLines.isEmpty then vaultLines ++ accountLines
  else vaultLines ++ [[]] ++ accountLines

/-- The line of an account that changed lately. -/
def recentAccount (s : Snapshot) (id : Text) : Except Failure Text :=
  match s.account? id with
  | none => .ok (indent ++ bullet ++ deleted)
  | some a => do return indent ++ bullet ++ a.name ++ " - " ++ (← s.dateText a.modified)

/-- The lines of a payload. A field may hold line feeds, so there may be more lines in the
end. -/
def payloadLines (s : Snapshot) : Payload → Except Failure (List Text)
  | .vaultList ids => rows s.vaultRow ids
  | .accountList ids => rows (fun number id => .ok (s.accountRow number id)) ids
  | .vaultDetail id accounts => s.vaultDetail id accounts
  | .accountDetail id vaultId reveal => s.accountDetail id vaultId reveal
  | .searchResults vaults accounts => .ok (s.searchResults vaults accounts)
  | .stats vaults accounts recent => do
    let recentLines ← recent.mapM s.recentAccount
    return ["Total Vaults: " ++ Text.ofInt vaults, "Total Accounts: " ++ Text.ofInt accounts]
      ++ titled "Recent Activity:" recentLines

/-- The records of an entry. -/
def payloadText (s : Snapshot) (p : Payload) : Except Failure Text := do
  return Text.unlines (← s.payloadLines p)

def sign : EntryKind → Text
  | .success => [CodePoint.ofNat 0x2713]
  | .error => [CodePoint.ofNat 0x2717]
  | .info => "i"
  | .prompt => "?"

/-- A line below the first one; an empty one stays empty. -/
def below (line : Text) : Text := if line.isEmpty then [] else indent ++ line

/-- An entry with the records that it names. -/
def entryText (s : Snapshot) (e : Entry) : Except Failure Text := do
  let body : Text ← match e.payload with
    | none => pure []
    | some p => s.payloadText p
  let message := e.message.lines
  let bodyLines := if body.isEmpty then [] else body.lines
  return Text.unlines
    ((sign e.kind ++ " " ++ message.headD []) :: (message.drop 1 ++ bodyLines).map below)

end Snapshot

namespace Session

/-- The records as they are now. -/
def snapshot (zone : Zone) : Act Failure Session Snapshot := do
  let vaults ← vaultsWith "id"
  let accounts ← accountsWith "id"
  return { vaults, accounts, zone }

/-- An entry as it is shown now, in a zone. Only one that names records looks at the store. -/
def showEntry (zone : Zone) (e : Entry) : Act Failure Session Text := do
  match e.payload with
  | none => Act.settle (Snapshot.entryText ⟨[], [], zone⟩ e)
  | some _ => Act.settle ((← snapshot zone).entryText e)

end Session

end VaultConsole
