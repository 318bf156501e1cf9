import VaultConsole.Event.Block
import VaultConsole.Time.Clock
import VaultConsole.Time.Delay

/-!
# The world

What a session works in and leaves traces in: a clock, the supply of identifiers, the disk, the
run log, the events that were emitted, the calls that were made to parts outside, and what was
shown on the screen.

* `World`, `Call`, `Page`, `Shown`: the types.
* `World.emit`: an event, with the time that the clock shows.
* `World.freshId`: an identifier that was not given out before.
* `World.print`: a line on the screen.
-/

namespace VaultConsole

/-- The pages that a host can show. -/
inductive Page
  | vaults
  | accounts
  | profile
  | overview
  deriving DecidableEq

namespace Page

/-- All pages, in the order in which they are named. -/
def all : List Page := [vaults, accounts, profile, overview]

def name : Page → Text
  | vaults => "vaults"
  | accounts => "accounts"
  | profile => "profile"
  | overview => "overview"

def ofName? (name : Text) : Option Page := all.find? (·.name = name)

end Page

/-- What was asked of a part outside. -/
inductive Call
  | navigate (page : Page)
  | exit
  | copy (text : Text)
  | schedule (delay : Delay)
  | confirm (question : Text)
  | sleep (delay : Delay)
  deriving DecidableEq

/-- What the screen got. -/
inductive Shown
  | line (text : Text)
  | cleared
  /-- A question that the user has to answer at once. -/
  | question (text : Text)
  deriving DecidableEq

/-- A run log: its file, and whether it is still empty. -/
structure RunLog where
  path : Path
  isFirst : Bool
  deriving DecidableEq

/-- What a session works in. Lists have their newest item last. -/
structure World where
  clock : Clock
  /-- How many identifiers were given out. -/
  issued : Nat
  disk : Disk
  /-- How many bytes a document may have that is written, where the disk is nearly full. -/
  room : Option Nat
  runLog : Option RunLog
  events : List Event
  calls : List Call
  screen : List Shown

namespace World

/-- A world at an instant, with a disk and no traces, in the zone of the universal clock. -/
def fresh (start : Int) (disk : Disk) : World :=
  { clock := .started start .universal, issued := 0, disk, room := none, runLog := none, events := []
    calls := [], screen := [] }

/-- The world in another zone. -/
def inZone (zone : Zone) (w : World) : World :=
  { w with clock := { w.clock with zone, shown := zone } }

def now (w : World) : Except Failure Timestamp := w.clock.now.mapError .noTime

/-- The time in the zone of the machine, as run logs are named by it. -/
def wallNow (w : World) : Except Failure Timestamp := w.clock.wallNow.mapError .noTime

/-- The time in the zone of the machine, as events are dated by it. -/
def localNow (w : World) : Except Failure Timestamp := w.clock.localNow.mapError .noTime

/-- The name of the log that events go to. -/
def logName : Text := "vaultterm"

/-- Writes an event into the run log. A text that has no encoding is left out. -/
def writeRunLog (e : Event) (w : World) : World :=
  match w.runLog with
  | none => w
  | some log =>
    match LogRecord.text log.isFirst ⟨logName, e.severity.name, e.line, none⟩ with
    | .error _ => w
    | .ok text =>
      -- from here on the log counts as begun, also where the text does not get there
      let w := { w with runLog := some { log with isFirst := false } }
      match Text.Utf8.encode (text ++ [Text.newline]) with
      | .error _ => w
      | .ok bytes =>
        match w.disk.append bytes log.path with
        | .ok disk => { w with disk }
        | .error _ => w

/-- The world with an event more, which the run log gets too. -/
def record (e : Event) (w : World) : World := writeRunLog e { w with events := w.events ++ [e] }

/-- Emits an event, unless the clock shows no time. -/
def emit (severity : Severity) (name : Text) (fields : Table Text Json) :
    Act Failure World Unit := fun w =>
  match w.localNow with
  | .ok moment => (.ok (), w.record { severity, name, moment, fields })
  | .error failure => (.error failure, w)

def note (call : Call) (w : World) : World := { w with calls := w.calls ++ [call] }

def display (item : Shown) (w : World) : World := { w with screen := w.screen ++ [item] }

def print (line : Text) (w : World) : World := w.display (.line line)

/-- Lets seconds pass. -/
def pass (seconds : Binary64) (w : World) : World := { w with clock := w.clock.advance seconds }

/-- An identifier that was not given out before. -/
def freshId (w : World) : Text := "new-" ++ Text.ofNat (w.issued + 1)

/-- The world after its next identifier was given out. -/
def issue (w : World) : World := { w with issued := w.issued + 1 }

/-- Whether there is something at a path. -/
def holds (path : Path) (w : World) : Except Failure Bool := (w.disk.holds path).mapError .ofDisk

/-- Makes a directory and all that are missing above it. -/
def makeDirectories (path : Path) : Act Disk.Problem World Unit := fun w =>
  let (result, disk) := w.disk.makeDirectories path
  (result, { w with disk })

/-- The bytes that there is room for. -/
def fitting (bytes : List UInt8) (w : World) : List UInt8 :=
  match w.room with
  | none => bytes
  | some room => bytes.take room

/-- Whether there is room for less than the bytes. -/
def isShort (bytes : List UInt8) (w : World) : Bool := w.room.any (· < bytes.length)

/-- Replaces the bytes of a file. The file is emptied first, and on a full disk it keeps the bytes
that there is room for. -/
def writeFile (path : Path) (bytes : List UInt8) : Act Disk.Problem World Unit := fun w =>
  match w.disk.write (w.fitting bytes) path with
  | .error problem => (.error problem, w)
  | .ok disk => (if w.isShort bytes then .error .full else .ok (), { w with disk })

/-- The bytes that the pieces of a document have up to the first piece without an encoding, and
what is wrong with that piece. -/
def encodePieces : List Text → List UInt8 × Option Text.Utf8.EncodeProblem
  | [] => ([], none)
  | piece :: rest =>
    match Text.Utf8.encode piece with
    | .error problem => ([], some problem)
    | .ok bytes =>
      let (more, problem) := encodePieces rest
      (bytes ++ more, problem)

/-- Writes a document over a file. The file is emptied first, and it keeps the pieces before the
first one that has no encoding. -/
def writeDocument (path : Path) (value : Json) : Act Disk.Problem World Unit := do
  let (bytes, problem) := encodePieces (value.tokens Json.fileLayout)
  writeFile path bytes
  match problem with
  | none => return
  | some problem => Act.fail (.unencodable problem)

/-- The text of a file, as it is. -/
def readWhole (path : Path) (w : World) : Except Failure Text :=
  match w.disk.read path with
  | .error problem => .error (.ofDisk problem)
  | .ok bytes => (Text.Utf8.decode bytes).mapError .undecodable

/-- The text of a file, with line feeds at the ends of its lines. -/
def readText (path : Path) (w : World) : Except Failure Text :=
  Text.unifyNewlines <$> w.readWhole path

end World

end VaultConsole
