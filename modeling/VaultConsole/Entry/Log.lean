import VaultConsole.Entry.Basic
import VaultConsole.Sequence

/-!
# The result log

The entries that were answered, in the order in which they are shown. Entries are added at the
end, and all are dropped at once.
-/

namespace VaultConsole

/-- Answered entries, oldest first. -/
structure EntryLog where
  entries : List Entry
  deriving DecidableEq

namespace EntryLog

def empty : EntryLog := ⟨[]⟩

def size (log : EntryLog) : Nat := log.entries.length

def append (entry : Entry) (log : EntryLog) : EntryLog := ⟨log.entries ++ [entry]⟩

def extend (entries : List Entry) (log : EntryLog) : EntryLog := ⟨log.entries ++ entries⟩

/-- The entry at a place. -/
def get (place : Int) (log : EntryLog) : Except Sequence.NoItem Entry :=
  Sequence.get place log.entries

def last? (log : EntryLog) : Option Entry := log.entries.getLast?

/-- The entries from a place on. -/
def since (place : Int) (log : EntryLog) : List Entry := Sequence.since place log.entries

end EntryLog

end VaultConsole
