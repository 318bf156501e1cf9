import VaultConsole.Profile.Basic
import VaultConsole.Profile.Paths
import VaultConsole.World

/-!
# Profile files

A profile is kept in a file. Its paths are read as seen from the directory of that file.

* `Profile.load`: the profile of a file.
* `Profile.create`: a new file, with usual settings.
-/

namespace VaultConsole.Profile

/-- The members of a profile, with absolute paths. -/
def mapMembers (s : Surroundings) (dir : Text) (members : Table Text Json) :
    Except Failure (Table Text Json) := do
  let spelling (key : Text) : Text := ((Table.get? key members).map Json.display).getD []
  let dataPath ← s.mapPath (spelling "data_path") (some dir)
  let members := Table.put ("data_path" : Text) (.text dataPath) members
  match Table.get? ("logs_dir" : Text) members with
  | none | some .null => return members
  | some _ =>
    let logsDir ← s.mapPath (spelling "logs_dir") (some dir)
    return Table.put ("logs_dir" : Text) (.text logsDir) members

def ofMembers (s : Surroundings) (path : Path) (members : Table Text Json) :
    Except Failure Profile := do
  ofJson (.object (← mapMembers s path.parent.text members))

def load (s : Surroundings) (spelling : Text) (w : World) : Except Failure Profile := do
  let path := Path.parse (← s.mapPath spelling none)
  if !(← w.holds path) then .error (.profileMissing path.text)
  else
    let text ← w.readText path
    match Json.parse text with
    | .error (.flawed spot) => .error (.profileNotJson spot)
    | .error (.tooManyDigits count) => .error (.tooManyDigits count)
    | .error (.tooDeep isObject) => .error (.tooDeep isObject)
    | .ok value => ofMembers s path (← check value)

/-- The members of a new profile. -/
def usualMembers (username : Text) : Table Text Json :=
  [("username", .text username), ("data_path", .text "./vault.json"),
    ("logs_dir", .text "./logs"), ("action_delay", .real usualDelay)]

/-- A new profile file. Without a name it is for the user of the program. -/
def create (s : Surroundings) (spelling : Text) (username : Option Text) :
    Act Failure World Profile := do
  let path := Path.parse (← Act.settle (s.mapPath spelling none))
  if ← Act.settle (← Act.look (World.holds path)) then Act.fail (.profileExists path.text)
  let name := (username.filter (!·.isEmpty)).getD s.user
  let members := usualMembers name
  Act.rename .ofDisk (World.makeDirectories path.parent)
  Act.rename .ofDisk (World.writeDocument path (.object members))
  Act.settle (ofMembers s path members)

end VaultConsole.Profile
