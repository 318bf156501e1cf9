import VaultConsole.Text.Basic

/-!
# Paths

A path is a number of leading slashes and the names between slashes. Empty names and `.` are
dropped when a path is read; `..` stays, since it means the parent of whatever stands before it.

* `Path.parse`, `Path.text`: reading and writing.
* `Path.append`, `Path.parent`: one path below another, and the directory of a path.
* `Path.resolve`: the path without `..`.
* `Path.IsCanonical`: the form that `resolve` gives.
-/

namespace VaultConsole

/-- A path of a file or a directory. -/
structure Path where
  /-- How many slashes it begins with: none if it is relative, one, or the two that are kept. -/
  slashes : Nat
  names : List Text
  deriving DecidableEq

namespace Path

def slash : CodePoint := CodePoint.ofChar '/'

/-- The name of the directory itself. -/
def here : Text := "."

/-- The name of the parent. -/
def above : Text := ".."

def isName (name : Text) : Bool := !name.isEmpty && name != here

/-- The path that a text names. Of three or more leading slashes one counts. -/
def parse (t : Text) : Path :=
  let leading := (t.takeWhile (· = slash)).length
  { slashes := if leading = 0 then 0 else if leading = 2 then 2 else 1
    names := (Text.splitOn slash t).filter isName }

/-- The written form of a path. A relative path without names is `.`. -/
def text (p : Path) : Text :=
  if p.slashes = 0 ∧ p.names = [] then here
  else List.replicate p.slashes slash ++ Text.joinWith [slash] p.names

def isAbsolute (p : Path) : Bool := p.slashes != 0

/-- The path of the containing directory; the root contains itself. -/
def parent (p : Path) : Path := { p with names := p.names.dropLast }

/-- The second path seen from the first. An absolute path is the same from everywhere. -/
def append (p q : Path) : Path := if q.isAbsolute then q else { p with names := p.names ++ q.names }

/-- Takes back a name for every `..`; there is nothing above the root. -/
def resolveOnto : List Text → List Text → List Text
  | done, [] => done
  | done, name :: rest =>
    if name = above then resolveOnto done.dropLast rest else resolveOnto (done ++ [name]) rest

/-- The absolute path of the same place, without `..` and with one leading slash. -/
def resolve (p : Path) : Path := { slashes := 1, names := resolveOnto [] p.names }

/-- A name that stands for itself. -/
def IsPlain (name : Text) : Prop := name ≠ [] ∧ name ≠ here ∧ name ≠ above ∧ slash ∉ name

/-- An absolute path of plain names: each place has one such path. -/
def IsCanonical (p : Path) : Prop := p.slashes = 1 ∧ ∀ name ∈ p.names, IsPlain name

end Path

end VaultConsole
