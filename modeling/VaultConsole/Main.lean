import Std.Time.Zoned
import VaultConsole.Launch

/-!
# The program

The library works on a world that it is given: this module makes such a world of the machine,
asks the library line by line, and makes real what a line has left in its world, namely what the
screen shows, which files there are, and how much time has gone by. A question is answered in
between: the line is taken up to the question, the user answers, and the line is taken again
with that answer.

* `machine`: what a run is given.
* `fetch`, `settle`: from the machine to the world, and from the world to the machine.
* `turn`, `converse`: one line, and lines until the dialogue has ended.
* `main`: the program.
-/

namespace VaultConsole.Live

/-- A text as the machine gets it. What is no character becomes a question mark. -/
def written (t : Text) : String :=
  String.ofList (t.map fun c => if c.isSurrogate then '?' else Char.ofNat c.val)

/-! ## The machine -/

/-- The instant that it really is, in microseconds since the beginning of 1970. -/
def realInstant : IO Int := do
  return (← Std.Time.Timestamp.now).toNanosecondsSinceUnixEpoch.val / 1000

/-- The zone of the machine, or that of the universal clock if it is not known. -/
def realZone : IO Zone := do
  try
    let rules ← Std.Time.Database.defaultGetLocalZoneRules
    return .ofAhead fun second =>
      (rules.timezoneAt (.ofSecondsSinceUnixEpoch (.ofInt second))).offset.second.val
  catch _ => return .universal

/-- The first setting of the environment that is there and not empty. -/
def setting? : List String → IO (Option Text)
  | [] => return none
  | name :: rest => do
    match ← IO.getEnv name with
    | some value => if value.isEmpty then setting? rest else return some (Text.ofString value)
    | none => setting? rest

/-- The lines of a file; none if it cannot be read. -/
def linesOf (file : String) : IO (List Text) := do
  let lines ← try IO.FS.lines file catch _ => pure #[]
  return lines.toList.map Text.ofString

/-- A user whom the machine knows. -/
structure User where
  name : Text
  number : Text
  home : Text

def realUsers : IO (List User) := do
  return (← linesOf "/etc/passwd").filterMap fun line =>
    match Text.splitOn ':' line with
    | name :: _ :: number :: _ :: _ :: home :: _ => some { name, number, home }
    | _ => none

/-- The number of the user who runs the program. -/
def ownNumber? : IO (Option Text) := do
  return (← linesOf "/proc/self/status").findSome? fun line =>
    match Text.splitOn '\t' line with
    | word :: number :: _ => if word = "Uid:" then some number else none
    | _ => none

/-- The name of the user who runs the program: what the environment says, or else what the
machine knows. -/
def ownName (users : List User) : IO Text := do
  match ← setting? ["LOGNAME", "USER", "LNAME", "USERNAME"] with
  | some name => return name
  | none =>
    let number? ← ownNumber?
    return ((users.find? fun u => some u.number = number?).map (·.name)).getD []

/-- What a run is given. Nothing can be copied, since no clipboard is known here. -/
def machine : IO Occasion := do
  let users ← realUsers
  let homes := Table.ofPairs (users.map fun u => (u.name, u.home))
  let user ← ownName users
  let home := (← setting? ["HOME"]).getD ((Table.get? user homes).getD "/")
  let program := ((← IO.appPath).parent.map (·.toString)).getD "/"
  return {
    surroundings := { home, user, homes, program := Path.parse (Text.ofString program) }
    clipboard := ⟨[], some (.clipboardBroken "no clipboard is known")⟩
    consents := [], inputs := [] }

/-! ## From the machine to the world -/

/-- A place as the machine names it. -/
def systemPath (place : Disk.Place) : String :=
  written ({ slashes := 1, names := place.map Disk.Name.text } : Path).text

/-- What really is at a place. -/
def realNode? (place : Disk.Place) : IO (Option Disk.Node) := do
  try return some (.file (← IO.FS.readBinFile (systemPath place)).toList)
  catch
    | .noFileOrDirectory .. => return none
    | .inappropriateType .. => return some .directory
    | problem => throw problem

/-- A disk with all that really is on the way from a place down along names. -/
def fetchFrom (place : Disk.Place) (disk : Disk) : List Text → IO Disk
  | [] => return disk
  | name :: rest => do
    let place := place ++ [Disk.Name.ofText name]
    match ← realNode? place with
    | none => return disk
    | some node => fetchFrom place (Table.put place node disk) rest

/-- A disk with all that really is on a path. -/
def fetch (disk : Disk) (path : Path) : IO Disk := fetchFrom [] disk path.resolve.names

/-- A disk with all run logs that already have the name of a moment. -/
partial def fetchRunLogs (directory : Path) (t : Timestamp) (disk : Disk) (number : Nat) :
    IO Disk := do
  let path := RunLog.candidate directory t number
  let disk ← fetch disk path
  match disk.holds path with
  | .ok true => fetchRunLogs directory t disk (number + 1)
  | _ => return disk

/-- The world of a session: the files of its profile, and identifiers that no earlier session
can have given out. -/
def realWorld (o : Occasion) (spelling : Text) : IO World := do
  let w := (World.fresh (← realInstant) []).inZone (← realZone)
  let w := { w with issued := w.clock.start.toNat }
  match o.surroundings.mapPath spelling none with
  | .error _ => return w
  | .ok place =>
    let path := Path.parse place
    let disk ← fetch w.disk path
    let usual ← fetch disk (path.parent.append (Path.parse "vault.json"))
    match Profile.load o.surroundings spelling { w with disk } with
    | .error _ => return { w with disk := usual }
    | .ok profile =>
      let disk ← fetch disk (Path.parse profile.dataPath)
      match profile.logsDir, w.wallNow with
      | some dir, .ok now => return { w with disk := ← fetchRunLogs (Path.parse dir) now disk 0 }
      | _, _ => return { w with disk }

/-! ## From the world to the machine -/

/-- How many microseconds the clock of a world is ahead of the instant that it really is. A clock
that shows no time is not ahead. -/
def ahead (w : World) : IO Int := do
  match w.clock.instant with
  | .ok instant => return instant - (← realInstant)
  | .error _ => return 0

/-- How much of a world is real by now. -/
structure Settled where
  /-- How much of the screen is shown. -/
  shown : Nat
  /-- What the real disk holds. -/
  disk : Disk

/-- Shows something. A question was already shown when it was asked. -/
def display (output : IO.FS.Stream) : Shown → IO Unit
  | .line text => output.putStrLn (written text)
  | .cleared => output.putStr "\x1b[2J\x1b[H"
  | .question _ => return

/-- Makes the real disk hold what a disk holds. -/
def keep (before after : Disk) : IO Unit :=
  after.forM fun (place, node) => do
    if before.node? place ≠ some node then
      match node with
      | .directory => IO.FS.createDirAll (systemPath place)
      | .file bytes => IO.FS.writeBinFile (systemPath place) ⟨bytes.toArray⟩

/-- Makes the rest of a world real. A clock that is fast is waited for. -/
def settle (s : Settled) (w : World) : IO Settled := do
  let output ← IO.getStdout
  (w.screen.drop s.shown).forM (display output)
  output.flush
  keep s.disk w.disk
  IO.sleep ((← ahead w) / 1000).toNat.toUInt32
  return { shown := w.screen.length, disk := w.disk }

/-! ## A session -/

/-- The rest of a line of input; nothing if the user is gone. -/
def answer? (words : Text) : IO (Option Text) := do
  let output ← IO.getStdout
  output.putStr (written words)
  output.flush
  let line ← (← IO.getStdin).getLine
  if line.isEmpty then return none
  return some ((Text.ofString line).filter (· ≠ Text.newline))

/-- What the user says to a question, and how long that takes. -/
def consent (question : Text) : IO Consent := do
  let asked ← IO.monoNanosNow
  let words ← answer? (question ++ " (y/n) ")
  let verdict : Verdict :=
    match words with
    | some (c :: _) => if c = 'y' ∨ c = 'Y' then .yes else .no
    | _ => .no
  return { verdict, lasts := Delay.ofMicroseconds (((← IO.monoNanosNow) - asked) / 1000) }

/-- A session at the terminal, and how it is told what the user says to questions. -/
structure Talk (σ : Type) where
  partner : Partner σ
  withConsents : List Consent → σ → σ

variable {σ : Type}

/-- Lets the clock go on to the instant that it really is. -/
def catchUp (t : Talk σ) (d : Dialogue σ) : IO (Dialogue σ) := do
  let seconds := Delay.ofMicroseconds (max 0 (-(← ahead (t.partner.world d.state))))
  return { d with state := t.partner.inWorld (·.pass seconds) d.state }

/-- The first question among what was shown. -/
def question? (items : List Shown) : Option Text :=
  items.findSome? fun
    | .question text => some text
    | _ => none

/-- One line of the user. -/
def turn (t : Talk σ) (s : Settled) (d : Dialogue σ) : IO (Bool × Dialogue σ) := do
  let (toolbar, d) := Dialogue.inState t.partner.toolbar (← catchUp t d)
  match toolbar with
  | .ok (c :: rest) => IO.println (written (c :: rest))
  | _ => pure ()
  let line ← answer? t.partner.prompt
  let d ← catchUp t { d with inputs := (line.map Input.enters).toList, prompts := [] }
  let take (consents : List Consent) : Bool × Dialogue σ :=
    Dialogue.step t.partner { d with state := t.withConsents consents d.state }
  let (goesOn, after) := take []
  match question? ((t.partner.world after.state).screen.drop s.shown) with
  | none => return (goesOn, after)
  | some question => return take [← consent question]

/-- Lines until the dialogue has ended. Says what broke it off, if something did. -/
partial def converse (t : Talk σ) (s : Settled) (d : Dialogue σ) :
    IO (Settled × Option Failure × World) := do
  let s ← settle s (t.partner.world d.state)
  if !t.partner.isRunning d.state then return (s, d.broken, t.partner.world d.state)
  match ← turn t s d with
  | (true, d) => converse t s d
  | (false, d) => return (← settle s (t.partner.world d.state), d.broken, t.partner.world d.state)

/-- Holds a session, and says how it ended. -/
def hold (o : Occasion) (r : Launch.Ready) (s : Settled) (w : World) :
    IO (Settled × Except Failure Unit × World) := do
  let (_, w) := Launch.announce r w
  let (s, broken, after) ←
    if r.isQuick then
      converse ⟨Terminal.quick, fun consents b => { b with consents }⟩ s
        (Launch.quickDialogue o r w)
    else converse ⟨Launch.fullPartner r, fun _ i => i⟩ s (Launch.fullDialogue o r w)
  match broken with
  | some failure => return (s, .error failure, after)
  | none => return (s, Launch.conclude r w.clock.elapsed after)

/-- Makes real what a run has left, and gives its exit code. -/
def finish (s : Settled) (result : Except Failure Nat) (l : Launch) : IO UInt32 := do
  discard (settle s l.world)
  IO.eprint (written l.complaints)
  match result with
  | .ok code => return code.toUInt32
  | .error failure =>
    IO.eprintln (written (failure.kind.name ++ ": " ++ failure.message))
    return 1

/-- A run with the words of the command line. -/
def run (words : List Text) : IO UInt32 := do
  let o ← machine
  match Request.read words with
  | .ok (.start (some spelling) isQuick isUnlogged) =>
    let w ← realWorld o spelling
    let s : Settled := { shown := 0, disk := w.disk }
    match Launch.prepare o spelling isQuick isUnlogged (.start w) with
    | (.ok (.ok ready), l) =>
      let (s, result, world) ← hold o ready s l.world
      finish s (result.map fun _ => 0) { l with world }
    | (.ok (.error code), l) => finish s (.ok code) l
    | (.error failure, l) => finish s (.error failure) l
  | .ok (.create (some spelling) _) =>
    let w ← realWorld o spelling
    let (result, l) := Launch.run o words (.start w)
    finish { shown := 0, disk := w.disk } result l
  | _ =>
    let (result, l) := Launch.run o words (.start (World.fresh 0 []))
    finish { shown := 0, disk := [] } result l

end VaultConsole.Live

def main (args : List String) : IO UInt32 :=
  VaultConsole.Live.run (args.map VaultConsole.Text.ofString)
