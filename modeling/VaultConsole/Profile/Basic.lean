import VaultConsole.Number.Reading
import VaultConsole.Record.Document

/-!
# Profiles

A profile says who uses the program, where the data file is, where run logs go if they are
written, and how long effects wait.

* `Profile`: the type.
* `Profile.ofJson`: the profile of an object.
* `Profile.check`: whether a document is fit to be a profile.
-/

namespace VaultConsole

/-- The settings of a user. -/
structure Profile where
  username : Text
  dataPath : Text
  logsDir : Option Text
  actionDelay : Binary64
  deriving DecidableEq

namespace Profile

/-- The usual delay of effects, in seconds. -/
def usualDelay : Binary64 := Binary64.ofDecimal false 5 (-1)

/-- A value as a number of seconds. -/
def seconds : Json → Except Failure Binary64
  | .real x => .ok x
  | .bool b => .ok (Binary64.ofRatio false (if b then 1 else 0) 1)
  | .int i =>
    match Binary64.ofInt? i with
    | some x => .ok x
    | none => .error .numberTooLarge
  | .text t =>
    match Binary64.parse? t with
    | some x => .ok x
    | none => .error (.notNumberText t)
  | value => .error (.notNumber value.kindName)

def textOf (members : Table Text Json) (key : Text) : Except Failure Text :=
  match Table.get? key members with
  | some value => .ok value.display
  | none => .error (.lacksKey key)

def ofJson (value : Json) : Except Failure Profile := do
  let members ← value.membersFor "get"
  let username ← textOf members "username"
  let dataPath ← textOf members "data_path"
  let logsDir : Option Text :=
    match Table.get? ("logs_dir" : Text) members with
    | none | some .null => none
    | some value => some value.display
  let actionDelay ←
    match Table.get? ("action_delay" : Text) members with
    | none => pure usualDelay
    | some value => seconds value
  return { username, dataPath, logsDir, actionDelay }

def toJson (p : Profile) : Json :=
  .object
    [("username", .text p.username), ("data_path", .text p.dataPath),
      ("logs_dir", match p.logsDir with
        | some dir => .text dir
        | none => .null),
      ("action_delay", .real p.actionDelay)]

/-- A field holds a text that is not empty. -/
def checkText (members : Table Text Json) (key : Text) : Except Failure Unit :=
  match Table.get? key members with
  | some (.text t) => if t.isEmpty then .error (.profileFieldEmpty key) else .ok ()
  | _ => .error (.profileFieldEmpty key)

/-- A delay is a number that is not negative. -/
def checkDelay : Json → Except Failure Unit
  | .int i => if i < 0 then .error .delayNegative else .ok ()
  | .real x => if x.isNegative then .error .delayNegative else .ok ()
  | _ => .error .delayNotNumber

/-- A document is fit to be a profile. Its members are given back. -/
def check (value : Json) : Except Failure (Table Text Json) :=
  match value with
  | .object members => do
    let required : List Text := ["username", "data_path"]
    match required.filter fun key => !Table.has key members with
    | [] =>
      checkText members "username"
      checkText members "data_path"
      match Table.get? ("logs_dir" : Text) members with
      | none | some .null => pure ()
      | some _ => checkText members "logs_dir"
      match Table.get? ("action_delay" : Text) members with
      | none => pure ()
      | some delay => checkDelay delay
      return members
    | missing => .error (.profileLacks missing)
  | _ => .error .profileNotObject

end Profile

end VaultConsole
