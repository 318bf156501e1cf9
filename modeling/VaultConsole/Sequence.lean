/-!
# Places in a sequence

A place may be counted from the end, by a negative number: -1 is the last item.

* `Sequence.get`: the item at a place, or why there is none.
* `Sequence.before`, `Sequence.since`: a sequence cut at a place.
-/

namespace VaultConsole.Sequence

variable {α : Type}

/-- How many items stand before a place. Places beyond an end count as that end. -/
def index (place : Int) (items : List α) : Nat :=
  if place < 0 then (items.length + place).toNat else min place.toNat items.length

/-- The item at a place, if there is one. -/
def get? (place : Int) (items : List α) : Option α :=
  let i := if place < 0 then items.length + place else place
  if i < 0 then none else items[i.toNat]?

/-- Why there is no item at a place. -/
inductive NoItem
  /-- The place is before the first item or after the last one. -/
  | outside
  /-- The place does not fit into the word that a machine counts places with. -/
  | uncountable
  deriving DecidableEq

/-- Whether a place fits into a signed word of 64 bits. -/
def isCountable (place : Int) : Bool :=
  -9223372036854775808 ≤ place && place ≤ 9223372036854775807

/-- The item at a place. Whether the place can be counted is asked first. -/
def get (place : Int) (items : List α) : Except NoItem α :=
  if isCountable place then
    match get? place items with
    | some item => .ok item
    | none => .error .outside
  else .error .uncountable

def before (place : Int) (items : List α) : List α := items.take (index place items)

def since (place : Int) (items : List α) : List α := items.drop (index place items)

end VaultConsole.Sequence
