import VaultConsole.Failure

/-!
# Paths in profiles

A path in a profile may begin at the user's home, by `~`, or at the directory of the program, by
`@`. A relative path is seen from the directory of the profile. Whatever the spelling, the
result is absolute and has no `..`.

* `Surroundings`: where the homes and the program are.
* `Surroundings.mapPath`: the absolute path of a spelling.
-/

namespace VaultConsole

/-- Where things are that a profile may refer to. -/
structure Surroundings where
  home : Text
  user : Text
  /-- The homes of others, by name. -/
  homes : Table Text Text
  /-- The directory of the program. -/
  program : Path

namespace Surroundings

def tilde : CodePoint := CodePoint.ofChar '~'

def homeOf (s : Surroundings) (name : Text) : Except Failure Text :=
  if name.isEmpty then .ok s.home
  else
    match Disk.Name.problem? name with
    | some problem => .error (.unencodable problem)
    | none =>
      match Table.get? name s.homes with
      | some home => .ok home
      | none => .error .noHome

/-- A relative path that begins with a tilde begins at a home instead. -/
def expandHome (s : Surroundings) (p : Path) : Except Failure Path :=
  if p.isAbsolute then .ok p
  else
    match p.names with
    | (c :: name) :: rest =>
      if c = tilde then do
        let home := Path.parse (← s.homeOf name)
        return { home with names := home.names ++ rest }
      else .ok p
    | _ => .ok p

/-- The names of a place that are left when every `..` took one back. The system is asked about
each name on the way. -/
def resolveNames (done : List Text) : List Text → Except Failure (List Text)
  | [] => .ok done
  | name :: rest =>
    if name = Path.above then resolveNames done.dropLast rest
    else
      let place : Path := { slashes := 1, names := done ++ [name] }
      match Disk.unaskable? place with
      | some problem => .error (.ofDisk problem)
      | none => resolveNames place.names rest

/-- The absolute path of a place. -/
def resolve (p : Path) : Except Failure Text := do
  let names ← resolveNames [] p.names
  return ({ slashes := 1, names } : Path).text

def programSign : CodePoint := CodePoint.ofChar '@'

/-- What follows the sign of the program's directory, if a spelling begins with it. -/
def belowProgram? : Text → Option Text
  | [c] => if c = programSign then some [] else none
  | c :: d :: rest => if c = programSign ∧ d = Path.slash then some rest else none
  | [] => none

/-- The absolute path of a spelling, seen from the directory of a profile if there is one. -/
def mapPath (s : Surroundings) (spelling : Text) (profileDir : Option Text) :
    Except Failure Text :=
  if spelling.any (·.val == 0) then .error .zeroInProfilePath
  else
    match belowProgram? spelling with
    | some rest => resolve (s.program.append (Path.parse rest))
    | none => do
      let p ← s.expandHome (Path.parse spelling)
      if p.isAbsolute then resolve p
      else
        match profileDir with
        | some dir => resolve ((Path.parse dir).append p)
        | none => .error .relativeProfilePath

end Surroundings

end VaultConsole
