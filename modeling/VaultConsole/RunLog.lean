import VaultConsole.World

/-!
# Run logs

Every run has a log of its own, named for the second in which it starts, by the clocks of the
machine. Where that name is taken a number follows it, the least that is free.

* `RunLog.freshPath`: a path at which nothing is.
* `RunLog.attach`: the world with a run log.
-/

namespace VaultConsole.RunLog

/-- The moment of a log, as it stands in its name. -/
def momentText (t : Timestamp) : Text :=
  let w : Timestamp.Wall :=
    ⟨t.year, t.month, t.day, t.hour, t.minute, t.second, t.micro⟩
  w.dateText ++ "_" ++ w.timeText "-"

/-- The name of the log of a moment, with a number if that is positive. -/
def fileName (t : Timestamp) (number : Nat) : Text :=
  let suffix : Text := if number = 0 then [] else "_" ++ Text.ofNat number
  "vaultterm_" ++ momentText t ++ suffix ++ ".log"

/-- The path of the log of a moment in a directory. -/
def candidate (directory : Path) (t : Timestamp) (number : Nat) : Path :=
  { directory with names := directory.names ++ [fileName t number] }

/-- The least number from one on at which nothing is, if there is one among so many. -/
def firstFree (disk : Disk) (directory : Path) (t : Timestamp) :
    (tries : Nat) → (number : Nat) → Except Disk.Problem Nat
  | 0, number => .ok number
  | tries + 1, number => do
    if ← disk.holds (candidate directory t number) then
      firstFree disk directory t tries (number + 1)
    else return number

/-- A path in a directory at which nothing is; the directory is made if it is missing. A disk
with `n` things on it leaves one of `n + 1` names free. -/
def freshPath (directory : Path) : Act Failure World Path := do
  Act.rename .ofDisk (World.makeDirectories directory)
  let w ← Act.state
  let now ← Act.settle w.wallNow
  let number := firstFree w.disk directory now (w.disk.length + 1) 0
  return candidate directory now (← Act.settle (number.mapError .ofDisk))

/-- Opens a run log: its file is made, and events go there from now on. -/
def attach (path : Path) : Act Failure World Unit := do
  Act.rename .ofDisk (World.makeDirectories path.parent)
  let w ← Act.state
  let disk ← Act.settle ((w.disk.append [] path).mapError .ofDisk)
  Act.change fun w => { w with disk, runLog := some ⟨path, true⟩ }

end VaultConsole.RunLog
