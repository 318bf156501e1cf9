import VaultConsole.Table
import VaultConsole.Text.Blank
import VaultConsole.Text.Quoted
import VaultConsole.Text.Word

/-!
# Flags

A flag stands at the beginning of a line or after a blank: two hyphens and a name. Its value
follows after blanks, between double quotes or bare up to the next blank; a bare value begins
neither with a quote nor with two hyphens. A flag without a value is a switch. Of several flags
with one name the last one counts.

* `Flags`: what a line has.
* `Flags.parse`: the flags of a line.
* `Flags.Token`: one flag as it was written; `Flags.scan`: all of them in order.
-/

namespace VaultConsole

/-- The flags of a line: those with a value, in the order in which their names came first, and
the switches. -/
structure Flags where
  values : Table Text Text
  switches : List Text
  deriving DecidableEq

namespace Flags

/-- One flag as it was written. -/
structure Token where
  name : Text
  value : Option Text
  deriving DecidableEq

/-- The two hyphens in front of a name. -/
def mark : Text := "--"

/-- What a value leaves: the value, and the text after it. -/
def quotedValue? (t : Text) : Option (Text × Text) :=
  match t with
  | [] => none
  | c :: rest =>
    if c = Text.doubleQuote then
      match rest.span (· ≠ Text.doubleQuote) with
      | (_, []) => none
      | (value, _ :: tail) => some (value, tail)
    else none

/-- A value without quotes. -/
def bareValue? (t : Text) : Option (Text × Text) :=
  match t with
  | [] => none
  | c :: _ =>
    if c = Text.doubleQuote ∨ c.isBlank = true ∨ mark.isPrefixOf t = true then none
    else some (Text.firstWord t)

/-- The value that follows a name, and the text after it. At least one blank stands between. -/
def value? (t : Text) : Option (Text × Text) :=
  match t with
  | [] => none
  | c :: _ =>
    if c.isBlank then
      let rest := Text.stripLeft t
      (quotedValue? rest).or (bareValue? rest)
    else none

/-- The flag that a text begins with, and the text after it. -/
def flag? (t : Text) : Option (Token × Text) :=
  if mark.isPrefixOf t then
    match (t.drop mark.length).span CodePoint.isWord with
    | ([], _) => none
    | (name, rest) =>
      match value? rest with
      | some (value, tail) => some (⟨name, some value⟩, tail)
      | none => some (⟨name, none⟩, rest)
  else none

/-- The flags of a text in order. `free` tells whether a flag can begin here: at the beginning
of the line and after a blank. No flag ends with a blank, so none begins right after another.
Every step shortens the text, so its length bounds the steps. -/
def scanFrom : (fuel : Nat) → (free : Bool) → Text → List Token
  | 0, _, _ => []
  | _, _, [] => []
  | fuel + 1, free, c :: rest =>
    match if free then flag? (c :: rest) else none with
    | some (token, tail) => token :: scanFrom fuel false tail
    | none => scanFrom fuel c.isBlank rest

/-- The flags of a line in order. -/
def scan (line : Text) : List Token := scanFrom line.length true line

/-- A further flag: it takes the place of those with its name. -/
def add (flags : Flags) (token : Token) : Flags :=
  match token.value with
  | some value =>
    { values := Table.put token.name value flags.values
      switches := flags.switches.filter (· ≠ token.name) }
  | none =>
    { flags with
      switches :=
        if token.name ∈ flags.switches then flags.switches else flags.switches ++ [token.name] }

/-- The flags of a line. -/
def parse (line : Text) : Flags := (scan line).foldl add ⟨[], []⟩

end Flags

end VaultConsole
