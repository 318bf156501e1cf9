import VaultConsole.Json.Basic
import VaultConsole.Number.Shortest
import VaultConsole.Text.Quoted

/-!
# Values in messages

Where a field that should hold a text holds another value, the value is shown instead. A text
shows itself; inside a collection it is quoted.

* `Json.quoted`: a value inside a collection.
* `Json.display`: a value on its own.
-/

namespace VaultConsole.Json

mutual

/-- A value as it appears inside a collection. -/
def quoted : Json → Text
  | null => "None"
  | bool b => if b then "True" else "False"
  | int i => Text.ofInt i
  | real x => x.text
  | text t => t.quoted
  | array items => ("[" : Text) ++ quotedItems items ++ "]"
  | object members => ("\x7b" : Text) ++ quotedMembers members ++ "\x7d"

/-- Items with commas between them. -/
def quotedItems : List Json → Text
  | [] => []
  | [item] => quoted item
  | item :: next :: rest => quoted item ++ ", " ++ quotedItems (next :: rest)

/-- Members with commas between them. -/
def quotedMembers : List (Text × Json) → Text
  | [] => []
  | [(key, value)] => key.quoted ++ ": " ++ quoted value
  | (key, value) :: next :: rest =>
    key.quoted ++ ": " ++ quoted value ++ ", " ++ quotedMembers (next :: rest)

end

/-- A value as it appears on its own. -/
def display : Json → Text
  | text t => t
  | value => quoted value

/-- What kind of value it is, as a message about a wrong one says. -/
def kindName : Json → Text
  | null => "NoneType"
  | bool _ => "bool"
  | int _ => "int"
  | real _ => "float"
  | text _ => "str"
  | array _ => "list"
  | object _ => "dict"

end VaultConsole.Json
