import VaultConsole.Entry.Basic
import VaultConsole.Failure
import VaultConsole.Text.Blank
import VaultConsole.Text.Lower

/-!
# The confirmation gate

A deletion is held until the user confirms or cancels it. There is room for one.

* `Gate.arm`: holds a deletion.
* `Gate.resolve`: what a line means for the deletion that is held.
-/

namespace VaultConsole

/-- What a line means for a deletion that is held. -/
inductive Decision
  | confirm
  | cancel
  | reject
  deriving DecidableEq

def Decision.name : Decision → Text
  | confirm => "confirm"
  | cancel => "cancel"
  | reject => "reject"

/-- The decision that a line stands for: a word of consent, a word of refusal, or none. -/
def Decision.ofLine (line : Text) : Decision :=
  let token := (Text.strip line).lower
  if token = "yes" ∨ token = "confirm" then .confirm
  else if token = "cancel" ∨ token = "no" then .cancel
  else .reject

/-- Room for one deletion. -/
structure Gate where
  pending : Option Deletion
  deriving DecidableEq

namespace Gate

def idle : Gate := ⟨none⟩

def isAwaiting (g : Gate) : Bool := g.pending.isSome

/-- Holds a deletion. -/
def arm (deletion : Deletion) (g : Gate) : Except Failure Gate :=
  match g.pending with
  | some held => .error (.alreadyAwaiting held.targetName)
  | none => .ok ⟨some deletion⟩

/-- What a line decides. A rejected line leaves the deletion where it is. -/
def resolve (line : Text) (g : Gate) : Except Failure ((Decision × Deletion) × Gate) :=
  match g.pending with
  | none => .error .nothingAwaiting
  | some held =>
    match Decision.ofLine line with
    | .reject => .ok ((.reject, held), g)
    | decision => .ok ((decision, held), idle)

end Gate

end VaultConsole
