import VaultConsole.Json.Reader

/-!
# Limits of documents

Two things keep a document from being written for a log, or from being read: a whole number with too many
digits, and an array or object inside too many others.

* `Json.obstacle?`: the first obstacle in a document.
-/

namespace VaultConsole.Json

/-- What keeps a document from being written or read. -/
inductive Obstacle
  | tooManyDigits (count : Nat)
  | tooDeep (isObject : Bool)
  deriving DecidableEq

/-- The first obstacle in a document, where so many arrays and objects may be inside each other. -/
def obstacle? : (depth : Nat) → Json → Option Obstacle
  | _, int i =>
    if (Text.ofNat i.natAbs).length > digitLimit then some (.tooManyDigits (Text.ofNat i.natAbs).length)
    else none
  | 0, array _ => some (.tooDeep false)
  | 0, object _ => some (.tooDeep true)
  | depth + 1, array items => items.findSome? (obstacle? depth)
  | depth + 1, object members => members.findSome? fun member => obstacle? depth member.2
  | _, _ => none

end VaultConsole.Json
