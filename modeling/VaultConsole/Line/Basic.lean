import VaultConsole.Failure
import VaultConsole.Line.Flags
import VaultConsole.Text.Lower

/-!
# Lines

A command line is cut into its verb, what follows the verb as one text, the second word, and
the flags. The verb and the second word are in lower case.

* `Line`: a line in its parts.
* `Line.parse`: the parts of a text; a blank text has none.
* `Line.flag?`, `Line.hasSwitch`: asking for a flag.
* `Line.requireFlags`: flags that have to be there.
-/

namespace VaultConsole

/-- A command line in its parts. -/
structure Line where
  raw : Text
  verb : Text
  subVerb : Text
  remainder : Text
  flags : Flags
  deriving DecidableEq

namespace Line

/-- The parts of a text. -/
def parse (t : Text) : Option Line :=
  let raw := t.strip
  if raw.isEmpty then none
  else
    let (first, rest) := Text.firstWord raw
    let remainder := rest.strip
    some
      { raw, verb := first.lower, subVerb := (Text.firstWord remainder).1.lower, remainder
        flags := Flags.parse raw }

/-- The value of a flag, if there is one and it is not empty. -/
def flag? (name : Text) (l : Line) : Option Text :=
  match Table.get? name l.flags.values with
  | some value => if value.isEmpty then none else some value
  | none => none

/-- The value of a flag; empty if there is none. -/
def flag (name : Text) (l : Line) : Text := (l.flag? name).getD []

/-- Whether a flag is there, with or without a value. -/
def hasSwitch (name : Text) (l : Line) : Bool :=
  name ∈ l.flags.switches || Table.has name l.flags.values

/-- The value of a flag that has to be there; `form` is the form that the line should have. -/
def requireFlag (form name : Text) (l : Line) : Except Failure Text :=
  match l.flag? name with
  | some value => .ok value
  | none => .error (.usage form)

/-- The values of flags that have to be there. -/
def requireFlags (form : Text) (names : List Text) (l : Line) : Except Failure (List Text) :=
  names.mapM fun name => l.requireFlag form name

end Line

end VaultConsole
