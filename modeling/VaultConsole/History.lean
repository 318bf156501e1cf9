import VaultConsole.Text.Basic

/-!
# History

The lines that were submitted, oldest first, with a cursor for recalling them. Without a cursor
the place is behind the newest line.

* `History.record`: a new line.
* `History.previous`, `History.next`: a step back and a step forward.
* `History.position`: the place of the cursor as a number.
-/

namespace VaultConsole

/-- Submitted lines and a cursor. -/
structure History where
  entries : List Text
  cursor : Option Nat
  deriving DecidableEq

namespace History

def empty : History := ⟨[], none⟩

/-- The place of the cursor; without one, behind the newest line. -/
def position (h : History) : Nat := h.cursor.getD h.entries.length

/-- Adds a line and drops the cursor. -/
def record (line : Text) (h : History) : History := ⟨h.entries ++ [line], none⟩

def resetCursor (h : History) : History := { h with cursor := none }

/-- Steps back to the line before, or stays at the oldest. Without lines there is none. -/
def previous (h : History) : Option Text × History :=
  if h.entries.isEmpty then (none, h)
  else
    let place := h.position - 1
    (h.entries[place]?, { h with cursor := some place })

/-- Steps forward to the next line; behind the newest stands the empty line. Without a cursor
there is no step. -/
def next (h : History) : Option Text × History :=
  match h.cursor with
  | none => (none, h)
  | some place =>
    if place + 1 < h.entries.length then
      (h.entries[place + 1]?, { h with cursor := some (place + 1) })
    else (some [], { h with cursor := none })

end History

end VaultConsole
