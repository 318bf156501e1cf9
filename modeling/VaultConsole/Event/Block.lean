import VaultConsole.Event.Basic
import VaultConsole.Failure
import VaultConsole.Json.Reader

/-!
# Blocks of a run log

A run log shows each record as a block: a head line with the name of the event, then a line for
each key that has a value. The keys of an event that has a preferred order come first, the
others follow in alphabetical order. A line feed inside a value is shown as `\n`, so a value
cannot end its line. Blocks are divided by one empty line.

* `LogRecord`: what is to be shown.
* `LogRecord.block`: its block.
* `LogRecord.text`: its block with the line in front that divides it from the one before.
-/

namespace VaultConsole

/-- A record of a log. -/
structure LogRecord where
  source : Text
  level : Text
  message : Text
  /-- The failure that goes with it: its kind and its words. -/
  failure : Option (Text × Text)

namespace LogRecord

/-- The keys that come first when no event says otherwise. -/
def usualKeys : List Text := ["ts", "level"]

/-- The keys that come first in the block of an event. -/
def preferredKeys (event : Text) : List Text :=
  if event = "app_start" then
    ["ts", "level", "variant", "profile_file", "data_file", "log_file"]
  else if event = "app_stop" then ["ts", "level", "reason", "uptime_ms"]
  else if event = "command_exec" then
    ["ts", "level", "verb", "sub_verb", "flags", "result_kind", "elapsed_ms"]
  else if event = "command_error" then
    ["ts", "level", "verb", "sub_verb", "flags", "error_type", "error"]
  else if event = "confirmation" then ["ts", "level", "decision", "operation", "target_id"]
  else usualKeys

/-- The keys that have a value, in the order in which they are shown. -/
def shownKeys (event : Text) (data : Table Text Json) : List Text :=
  let hasValue (key : Text) : Bool :=
    match Table.get? key data with
    | none | some .null => false
    | some _ => true
  let preferred := preferredKeys event
  preferred.filter hasValue
    ++ Text.sort ((Table.keys data).filter fun key => !preferred.contains key && hasValue key)

/-- A value on one line. -/
def valueText (value : Json) : Text := Text.replace Text.newline "\\n" value.display

/-- What a message holds if it is an object: whatever begins and ends with braces is tried. -/
def objectOf? (message : Text) : Except Failure (Option (Table Text Json)) :=
  if message.head? = some (CodePoint.ofChar '\x7b')
      ∧ message.getLast? = some (CodePoint.ofChar '\x7d') then
    match Json.parse message with
    | .ok (.object members) => .ok (some members)
    | .ok _ => .ok none
    | .error (.flawed _) => .ok none
    | .error (.tooManyDigits count) => .error (.tooManyDigits count)
    | .error (.tooDeep isObject) => .error (.tooDeep isObject)
  else .ok none

/-- The keys and values of a record. -/
def data (r : LogRecord) : Except Failure (Table Text Json) := do
  let base : Table Text Json := [("level", .text r.level), ("logger", .text r.source)]
  match ← objectOf? r.message with
  | some members => return Table.merge base members
  | none =>
    return Table.merge base [("event", .text r.source), ("message", .text r.message)]

/-- The failure of a record, by its kind and its words; the program's own kinds have the name of
the program in front. -/
def failureLine (kind words : Text) : Text :=
  let isOwn := (Failure.Kind.ofName kind).isExpected
  let name : Text := if isOwn then "vaultterm.errors." ++ kind else kind
  if words.isEmpty then name else name ++ ": " ++ words

/-- The block of a record. -/
def block (r : LogRecord) : Except Failure Text := do
  let data ← r.data
  let key : Text := "event"
  let event := ((Table.get? key data).map Json.display).getD r.source
  let data := Table.erase key data
  let head : Text := "=== " ++ event ++ " ==="
  let body := (shownKeys event data).map fun key =>
    key ++ ": " ++ valueText ((Table.get? key data).getD .null)
  let trailer : List Text :=
    match r.failure with
    | none => []
    | some (kind, words) => [("traceback:" : Text), failureLine kind words]
  return Text.unlines ([head] ++ body ++ trailer)

/-- The text of a record in its log. -/
def text (isFirst : Bool) (r : LogRecord) : Except Failure Text := do
  let body ← r.block
  return if isFirst then body else Text.newline :: body

end LogRecord

end VaultConsole
