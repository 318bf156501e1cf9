import VaultConsole.Table
import VaultConsole.Number.Binary64
import VaultConsole.Text.Basic

/-!
# Documents

The values of a JSON document. Whole numbers and numbers with a fraction or an exponent are
different values, whole numbers have no bound, and the members of an object keep their order.

* `Json`: the type.
* `Json.isTruthy`: the values that count as present where a field may be left out.
-/

namespace VaultConsole

/-- A value in a document. -/
inductive Json
  | null
  | bool (b : Bool)
  | int (i : Int)
  | real (x : Binary64)
  | text (t : Text)
  | array (items : List Json)
  | object (members : List (Text × Json))

namespace Json

instance : Inhabited Json := ⟨.null⟩

/-- False, nothing, zero and whatever is empty do not count as present. -/
def isTruthy : Json → Bool
  | null => false
  | bool b => b
  | int i => i != 0
  | real x => !x.isZero
  | text t => !t.isEmpty
  | array items => !items.isEmpty
  | object members => !members.isEmpty

def member? (key : Text) : Json → Option Json
  | object members => Table.get? key members
  | _ => none

def texts (ts : List Text) : Json := array (ts.map text)

end Json

end VaultConsole
