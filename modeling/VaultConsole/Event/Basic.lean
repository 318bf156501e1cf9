import VaultConsole.Json.Writer
import VaultConsole.Time.Timestamp

/-!
# Events

An event says what happened: its name, when, how grave it is, and fields. It is emitted as one
object whose first members are the time and the name.

* `Event.toJson`, `Event.line`: the object, and its text on one line.
* `Event.withoutSecrets`: the flags of a line, fit for a log.
-/

namespace VaultConsole

/-- How grave a thing is that is worth a line in a log. -/
inductive Severity
  | info
  | warning
  | error
  deriving DecidableEq

def Severity.name : Severity → Text
  | info => "INFO"
  | warning => "WARNING"
  | error => "ERROR"

/-- Something that happened. -/
structure Event where
  severity : Severity
  name : Text
  moment : Timestamp
  fields : Table Text Json

namespace Event

/-- An event as an object. A field may take the place of the time. -/
def toJson (e : Event) : Json :=
  .object (Table.merge [("ts", .text e.moment.isoText), ("event", .text e.name)] e.fields)

/-- An event on one line. -/
def line (e : Event) : Text := e.toJson.compact

/-- What stands in the place of a secret. -/
def redacted : Text := "[REDACTED]"

/-- The flags whose values are secret. -/
def secretNames : List Text := ["password"]

/-- Flags with their secret values covered. -/
def withoutSecrets (flags : Table Text Text) : Table Text Text :=
  flags.map fun (name, value) => (name, if name ∈ secretNames then redacted else value)

/-- Flags as a field of an event. -/
def flagsField (flags : Table Text Text) : Json :=
  .object ((withoutSecrets flags).map fun (name, value) => (name, .text value))

end Event

end VaultConsole
