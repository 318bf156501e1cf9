import VaultConsole.Event.Block
import VaultConsole.Json.Limits

/-!
# Calls that log an event

Whoever logs an event names it and gives fields of any kind. What a document has no form for is logged by
its text, so every value has a form that is fit for a log. The call makes a record, whose message is the
document of the event on one line, unless the document cannot be written.

* `LogValue.safe`: a value in the form that is fit for a log.
* `LogCall`: a call; its fields are named once each.
* `LogCall.record?`: the record that a call makes.
* `LogRecord.texts`: what one formatter makes of records.
-/

namespace VaultConsole

/-- A value that a field of an event is given. -/
inductive LogValue
  | null
  | bool (b : Bool)
  | int (i : Int)
  | real (x : Binary64)
  | text (t : Text)
  /-- A path, or a thing of any other kind, with the text that it is shown by. -/
  | other (words : Text)
  /-- The items of a list, or those of a set as they come out of it. -/
  | sequence (items : List LogValue)
  /-- Values by the texts of their keys, of which several may have one text. -/
  | dictionary (members : List (Text × LogValue))

namespace LogValue

def isNull : LogValue → Bool
  | null => true
  | _ => false

mutual

/-- A value in the form that is fit for a log. -/
def safe : LogValue → Json
  | null => .null
  | bool b => .bool b
  | int i => .int i
  | real x => .real x
  | text t => .text t
  | other words => .text words
  | sequence items => .array (safeItems items)
  | dictionary members => .object (Table.ofPairs (safeMembers members))

def safeItems : List LogValue → List Json
  | [] => []
  | item :: rest => safe item :: safeItems rest

def safeMembers : List (Text × LogValue) → List (Text × Json)
  | [] => []
  | (key, value) :: rest => (key, safe value) :: safeMembers rest

end

end LogValue

/-- A call that logs an event. -/
structure LogCall where
  /-- The name of the level. -/
  level : Text
  name : Text
  moment : Timestamp
  fields : Table Text LogValue
  /-- How many arrays and objects may be inside each other where the call is made. -/
  room : Nat
  nodup : (Table.keys fields).Nodup
  /-- The call has arguments of these names that are no fields. -/
  unreserved : ∀ key ∈ Table.keys fields, key ≠ Text.ofString "event" ∧ key ≠ Text.ofString "level"
  /-- The reader has as much room at least. -/
  room_le : room ≤ Json.depthLimit

namespace LogCall

def safeFields (c : LogCall) : Table Text Json := c.fields.map fun p => (p.1, p.2.safe)

/-- The event as an object. How grave it is does not show there. -/
def document (c : LogCall) : Json :=
  Event.toJson { severity := .info, name := c.name, moment := c.moment, fields := c.safeFields }

def isWritten (c : LogCall) : Bool := (Json.obstacle? c.room c.document).isNone

/-- The record of a call, which no failure goes with. -/
def record (source : Text) (c : LogCall) : LogRecord := ⟨source, c.level, c.document.compact, none⟩

/-- The record that a call makes, if its document can be written. -/
def record? (source : Text) (c : LogCall) : Option LogRecord :=
  if c.isWritten then some (c.record source) else none

end LogCall

/-- What one formatter makes of records, one after another. The first text that it makes has no line in
front. -/
def LogRecord.texts : (isFirst : Bool) → List LogRecord → List (Except Failure Text)
  | _, [] => []
  | isFirst, r :: rest =>
    let shown := r.text isFirst
    shown :: texts (isFirst && !shown.isOk) rest

end VaultConsole
