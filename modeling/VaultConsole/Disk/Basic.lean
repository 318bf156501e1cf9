import VaultConsole.Act
import VaultConsole.Disk.Name
import VaultConsole.Disk.Path
import VaultConsole.Table

/-!
# The disk

Files and directories below one root. A path is walked name by name, every name but the last
must be a directory, and `..` leads back.

* `Disk`, `Disk.Node`: the type and what is at a place.
* `Disk.walk`: the place of a path.
* `Disk.holds`, `Disk.read`, `Disk.write`, `Disk.append`, `Disk.makeDirectories`: what
  programs do with paths.
* `Disk.Problem`: why they cannot.
-/

namespace VaultConsole

namespace Disk

/-- The names from the root down to a place. -/
abbrev Place := List Name

/-- What is at a place. -/
inductive Node
  | directory
  | file (bytes : List UInt8)
  deriving DecidableEq

/-- Why a system refuses a path. -/
inductive Refusal
  | noEntry
  | alreadyThere
  | notDirectory
  | isDirectory
  | nameTooLong
  deriving DecidableEq

def Refusal.number : Refusal → Nat
  | noEntry => 2
  | alreadyThere => 17
  | notDirectory => 20
  | isDirectory => 21
  | nameTooLong => 36

def Refusal.words : Refusal → Text
  | noEntry => "No such file or directory"
  | alreadyThere => "File exists"
  | notDirectory => "Not a directory"
  | isDirectory => "Is a directory"
  | nameTooLong => "File name too long"

/-- Why something cannot be done with a path. -/
inductive Problem
  /-- The system refuses it. -/
  | refused (refusal : Refusal) (path : Text)
  /-- The path holds the code point zero, which ends a path for the system. -/
  | zeroInPath
  /-- The path has no encoding. -/
  | unencodable (problem : Text.Utf8.EncodeProblem)
  /-- The disk has no room for all that is written. -/
  | full
  deriving DecidableEq

end Disk

/-- What is at each place. The root is a directory and needs no entry. -/
abbrev Disk := Table Disk.Place Disk.Node

namespace Disk

def node? (disk : Disk) (place : Place) : Option Node :=
  if place = [] then some .directory else Table.get? place disk

/-- The most bytes of a name. -/
def nameLimit : Nat := 255

/-- The most bytes of a path. -/
def pathLimit : Nat := 4095

/-- The place of names below a place. The last name need not be there. A name is looked at once
the directory that it is in was found. -/
def walkFrom (disk : Disk) (place : Place) : List Text → Except Refusal Place
  | [] => .ok place
  | name :: rest =>
    match node? disk place with
    | none => .error .noEntry
    | some (.file _) => .error .notDirectory
    | some .directory =>
      if name = Path.above then walkFrom disk place.dropLast rest
      else
        let name := Name.ofText name
        if nameLimit < name.length then .error .nameTooLong
        else walkFrom disk (place ++ [name]) rest

/-- What keeps the system from being asked about a path at all. -/
def unaskable? (path : Path) : Option Problem :=
  match Name.problem? path.text with
  | some problem => some (.unencodable problem)
  | none => if path.text.any (·.val == 0) then some .zeroInPath else none

/-- The place of a path. -/
def walk (disk : Disk) (path : Path) : Except Problem Place :=
  match unaskable? path with
  | some problem => .error problem
  | none =>
    if pathLimit < (Name.ofText path.text).length then .error (.refused .nameTooLong path.text)
    else
      match walkFrom disk [] path.names with
      | .error refusal => .error (.refused refusal path.text)
      | .ok place => .ok place

/-- Whether there is something at a path. A path that cannot be asked about has nothing, but one
that is too long is refused. -/
def holds (disk : Disk) (path : Path) : Except Problem Bool :=
  match walk disk path with
  | .error (.refused .nameTooLong p) => .error (.refused .nameTooLong p)
  | .error _ => .ok false
  | .ok place => .ok (node? disk place).isSome

def isDirectory (disk : Disk) (path : Path) : Bool :=
  match walk disk path with
  | .error _ => false
  | .ok place => node? disk place == some .directory

def read (disk : Disk) (path : Path) : Except Problem (List UInt8) := do
  let place ← walk disk path
  match node? disk place with
  | none => .error (.refused .noEntry path.text)
  | some .directory => .error (.refused .isDirectory path.text)
  | some (.file bytes) => .ok bytes

/-- The place of a file that is to be written: its directory is there, and it is none itself. -/
def writable (disk : Disk) (path : Path) : Except Problem Place := do
  let place ← walk disk path
  match node? disk place with
  | some .directory => .error (.refused .isDirectory path.text)
  | some (.file _) => .ok place
  | none =>
    match node? disk place.dropLast with
    | some .directory => .ok place
    | some (.file _) => .error (.refused .notDirectory path.text)
    | none => .error (.refused .noEntry path.text)

/-- Replaces the bytes of a file, or makes it. -/
def write (bytes : List UInt8) (disk : Disk) (path : Path) : Except Problem Disk := do
  let place ← writable disk path
  .ok (Table.put place (.file bytes) disk)

/-- Adds bytes at the end of a file, or makes it. -/
def append (bytes : List UInt8) (disk : Disk) (path : Path) : Except Problem Disk := do
  let place ← writable disk path
  match node? disk place with
  | some (.file old) => .ok (Table.put place (.file (old ++ bytes)) disk)
  | _ => .ok (Table.put place (.file bytes) disk)

/-- Makes one directory whose parent is there. -/
def makeDirectory (disk : Disk) (path : Path) : Except Problem Disk := do
  let place ← walk disk path
  match node? disk place with
  | some _ => .error (.refused .alreadyThere path.text)
  | none => .ok (Table.put place .directory disk)

/-- Makes one directory, or leaves the one that is there. -/
def makeOwnDirectory (disk : Disk) (path : Path) : Except Problem Disk :=
  match makeDirectory disk path with
  | .ok disk => .ok disk
  | .error (.refused refusal p) =>
    -- a missing level above is refused as such, since it can be made
    if refusal ≠ .noEntry && isDirectory disk path then .ok disk else .error (.refused refusal p)
  | .error problem => .error problem

/-- Makes a directory of which `levels` levels may be missing. On a failure the disk is what it
was made before. -/
def makeLevels : (levels : Nat) → Disk → Path → Except Problem Unit × Disk
  | 0, disk, path =>
    match makeOwnDirectory disk path with
    | .ok disk => (.ok (), disk)
    | .error problem => (.error problem, disk)
  | levels + 1, disk, path =>
    match makeOwnDirectory disk path with
    | .ok disk => (.ok (), disk)
    | .error (.refused .noEntry p) =>
      if path.names.isEmpty then (.error (.refused .noEntry p), disk)
      else
        match makeLevels levels disk path.parent with
        | (.error problem, disk) => (.error problem, disk)
        | (.ok _, disk) =>
          match makeOwnDirectory disk path with
          | .ok disk => (.ok (), disk)
          | .error problem => (.error problem, disk)
    | .error problem => (.error problem, disk)

/-- Makes a directory and all that are missing above it. -/
def makeDirectories (disk : Disk) (path : Path) : Except Problem Unit × Disk :=
  makeLevels path.names.length disk path

end Disk

end VaultConsole
