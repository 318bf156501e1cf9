import VaultConsole.Failure
import VaultConsole.Record.Basic

/-!
# Records in documents

A record is kept as an object. What is read back need not be what was written: a text field may
hold any value and then has the text that shows it, and a field that may be left out counts as
empty whenever its value is false, zero or empty.

* `Vault.toJson`, `Account.toJson`: a record as an object.
* `Vault.ofJson`, `Account.ofJson`: the record of an object.
-/

namespace VaultConsole

namespace Json

/-- The keys of a list that an object lacks, in order. -/
def missingKeys (required : List Text) (members : Table Text Json) : List Text :=
  Text.sort (required.filter fun key => !Table.has key members)

/-- A field that has to be there, as a text. -/
def textField (members : Table Text Json) (key : Text) : Text :=
  ((Table.get? key members).map display).getD []

/-- A field that may be left out, as a text. -/
def optionalField (members : Table Text Json) (key : Text) : Text :=
  match Table.get? key members with
  | some value => if value.isTruthy then value.display else []
  | none => []

/-- A field that holds a timestamp. -/
def timestampField (members : Table Text Json) (key : Text) : Except Failure Timestamp :=
  match Table.get? key members with
  | some (.text t) =>
    match Timestamp.parse t with
    | .ok stamp => .ok stamp
    | .error problem => .error (.badTimestamp problem)
  | _ => .error (.notTimestampText key)

/-- The members of an object; any other value has no `operation`. -/
def membersFor (operation : Text) : Json → Except Failure (Table Text Json)
  | object members => .ok members
  | value => .error (.noField value.kindName operation)

end Json

def Vault.requiredKeys : List Text := ["id", "name", "created_at", "modified_at"]

def Account.requiredKeys : List Text :=
  ["id", "vault_id", "name", "username", "password", "created_at", "modified_at"]

def Vault.toJson (v : Vault) : Json :=
  .object
    [("id", .text v.id), ("name", .text v.name), ("description", .text v.description),
      ("created_at", .text v.created.isoText), ("modified_at", .text v.modified.isoText)]

def Vault.ofJson (value : Json) : Except Failure Vault := do
  let members ← value.membersFor "keys"
  match Json.missingKeys requiredKeys members with
  | [] =>
    let created ← Json.timestampField members "created_at"
    let modified ← Json.timestampField members "modified_at"
    return {
      id := Json.textField members "id", name := Json.textField members "name"
      description := Json.optionalField members "description", created, modified }
  | missing => .error (.recordLacks "Vault" missing)

def Account.toJson (a : Account) : Json :=
  .object
    [("id", .text a.id), ("vault_id", .text a.vaultId), ("name", .text a.name),
      ("username", .text a.username), ("password", .text a.password), ("url", .text a.url),
      ("notes", .text a.notes), ("created_at", .text a.created.isoText),
      ("modified_at", .text a.modified.isoText)]

def Account.ofJson (value : Json) : Except Failure Account := do
  let members ← value.membersFor "keys"
  match Json.missingKeys requiredKeys members with
  | [] =>
    let created ← Json.timestampField members "created_at"
    let modified ← Json.timestampField members "modified_at"
    return {
      id := Json.textField members "id", vaultId := Json.textField members "vault_id"
      name := Json.textField members "name", username := Json.textField members "username"
      password := Json.textField members "password", url := Json.optionalField members "url"
      notes := Json.optionalField members "notes", created, modified }
  | missing => .error (.recordLacks "Account" missing)

end VaultConsole
