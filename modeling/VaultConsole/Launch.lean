import VaultConsole.CommandLine.Request
import VaultConsole.Profile.File
import VaultConsole.RunLog
import VaultConsole.Terminal.Full
import VaultConsole.Terminal.Quick

/-!
# A run of the program

From the words of the command line to the exit code. A new profile gets a data file beside it at
once. A session reads its profile, opens its run log, reads its data, and then goes on at the
terminal. What a user can mend is told in a line and gives the exit code 1; every other failure
is one of the run itself.

* `Occasion`: what a run is given besides words.
* `Launch`: what a run has done so far.
* `Launch.create`: a new profile.
* `Launch.prepare`, `Launch.hold`: what comes before a session, and the session.
* `Launch.run`: a whole run.
-/

namespace VaultConsole

/-- What a run is given besides words. -/
structure Occasion where
  surroundings : Surroundings
  clipboard : Behaviour
  /-- The answers of the user to questions. -/
  consents : List Consent
  /-- What the user is going to do at the terminal. -/
  inputs : List Input

/-- What a run has done so far. -/
structure Launch where
  world : World
  /-- What was printed as errors. -/
  complaints : Text
  /-- What the user was still going to do when the terminal was left. -/
  unused : List Input
  prompts : List Text
  glances : List Glance

namespace Launch

def start (world : World) : Launch :=
  { world, complaints := [], unused := [], prompts := [], glances := [] }

/-- Acts on the world. -/
def inWorld {α : Type} (act : Act Failure World α) : Act Failure Launch α :=
  Act.within (·.world) (fun world l => { l with world }) act

def print (line : Text) : Act Failure Launch Unit :=
  Act.change fun l => { l with world := l.world.print line }

/-- Tells what the user can mend. -/
def giveUp (line : Text) : Act Failure Launch Nat := do
  print line
  return 1

/-! ## A new profile -/

/-- A new profile with its data file, which keeps the records that it has. -/
def createFiles (o : Occasion) (spelling : Text) (username : Option Text) :
    Act Failure World Profile := do
  let profile ← Profile.create o.surroundings spelling username
  let store ← Store.load (Path.parse profile.dataPath)
  let _ ← Act.within (fun world => (⟨world, store⟩ : Depot)) (fun d _ => d.world) Depot.save
  return profile

/-- Creates a profile and says where everything is. -/
def create (o : Occasion) (spelling : Text) (username : Option Text) : Act Failure Launch Nat := do
  match ← Act.attempt (inWorld (createFiles o spelling username)) with
  | .error failure =>
    if failure.kind.isExpected || failure.kind.isOfSystem then
      giveUp ("Error creating profile: " ++ failure.message)
    else Act.fail failure
  | .ok profile =>
    print ("Profile created: " ++ spelling)
    print ("Username: " ++ profile.username)
    print ("Data file: " ++ profile.dataPath)
    print ("Logs directory: " ++ profile.logsDir.getD [])
    print []
    print ("Start the app with: vaultterm --profile " ++ spelling)
    return 0

/-! ## A session -/

/-- A session that can be held: its profile, where its run log is, its store, and whether it is
for the quick bar. -/
structure Ready where
  /-- The path of the profile, as it was given. -/
  spelling : Text
  profile : Profile
  log : Option Path
  store : Store
  isQuick : Bool

/-- Opens the run log of a profile, if it has one and that is wanted. -/
def openRunLog (profile : Profile) (isUnlogged : Bool) : Act Failure World (Option Path) := do
  match profile.logsDir with
  | none => return none
  | some dir =>
    if isUnlogged then return none
    else
      let path ← RunLog.freshPath (Path.parse dir)
      RunLog.attach path
      return some path

/-- Reads all that a session needs, or gives an exit code. -/
def prepare (o : Occasion) (spelling : Text) (isQuick isUnlogged : Bool) :
    Act Failure Launch (Except Nat Ready) := do
  match Profile.load o.surroundings spelling (← Act.look (·.world)) with
  | .error failure =>
    if failure.kind = .fileMissing then .error <$> giveUp failure.message
    else if failure.isExpected then .error <$> giveUp ("Error loading profile: " ++ failure.message)
    else Act.fail failure
  | .ok profile =>
    let log ← inWorld (openRunLog profile isUnlogged)
    match ← Act.attempt (inWorld (Store.load (Path.parse profile.dataPath))) with
    | .error failure =>
      if failure.isExpected then .error <$> giveUp ("Error loading data: " ++ failure.message)
      else Act.fail failure
    | .ok store => return .ok { spelling, profile, log, store, isQuick }

/-- Logs that a session begins. -/
def announce (r : Ready) : Act Failure World Unit :=
  let logFile : Json := match r.log with
    | some path => .text path.text
    | none => .null
  World.emit .info "app_start"
    [("variant", .text (if r.isQuick then "quick" else "full")), ("profile_file", .text r.spelling),
      ("data_file", .text r.profile.dataPath), ("log_file", logFile)]

/-- Seconds in whole milliseconds, a half to the even neighbour. -/
def wholeMilliseconds (seconds : Binary64) : Except Failure Int :=
  (seconds.times 1000).nearestWhole.mapError .noWhole

/-- Logs that a session ends which began when the clock had been running for `started`. -/
def conclude (r : Ready) (started : Binary64) : Act Failure World Unit := do
  let uptime ← Act.settle (wholeMilliseconds ((← Act.look (·.clock.elapsed)).sub started))
  World.emit .info "app_stop"
    [("reason", .text (if r.isQuick then "overview" else "exit")), ("uptime_ms", .int uptime)]

def fullPartner (r : Ready) : Partner Interpreter := Terminal.full r.profile.username

/-- The dialogue of a session with the interpreter, at its beginning in a world. -/
def fullDialogue (o : Occasion) (r : Ready) (w : World) : Dialogue Interpreter :=
  Terminal.startFull (fullPartner r)
    (Terminal.fullSession ⟨w, r.store⟩ o.clipboard (.real r.profile.actionDelay)) o.inputs

/-- The dialogue of a session with the quick bar, at its beginning in a world. -/
def quickDialogue (o : Occasion) (r : Ready) (w : World) : Dialogue QuickBar :=
  Terminal.startQuick Terminal.quick (Terminal.quickSession ⟨w, r.store⟩ o.clipboard)
    o.consents o.inputs

/-- Takes over what a dialogue has done, and how it was broken off if it was. -/
def takeOver {σ : Type} (p : Partner σ) (d : Dialogue σ) : Act Failure Launch Unit := do
  Act.change fun l =>
    { l with
      world := p.world d.state, unused := d.inputs, prompts := l.prompts ++ d.prompts
      glances := l.glances ++ d.glances }
  match d.broken with
  | some failure => Act.fail failure
  | none => return

/-- Talks with the user until the terminal is left. -/
def converse (o : Occasion) (r : Ready) : Act Failure Launch Unit := do
  let w ← Act.look (·.world)
  if r.isQuick then
    takeOver Terminal.quick ((quickDialogue o r w).run Terminal.quick)
  else
    takeOver (fullPartner r) ((fullDialogue o r w).run (fullPartner r))

/-- Holds a session, between an event at its beginning and one at its end. -/
def hold (o : Occasion) (r : Ready) : Act Failure Launch Unit := do
  inWorld (announce r)
  let started ← Act.look (·.world.clock.elapsed)
  converse o r
  inWorld (conclude r started)

/-- Prepares a session and holds it. -/
def begin (o : Occasion) (spelling : Text) (isQuick isUnlogged : Bool) :
    Act Failure Launch Nat := do
  match ← prepare o spelling isQuick isUnlogged with
  | .error code => return code
  | .ok ready =>
    hold o ready
    return 0

/-! ## Either -/

/-- Tells why there is no request. -/
def tell (halt : Halt) (l : Launch) : Launch :=
  match halt with
  | .help text => { l with world := l.world.print text }
  | .problem .. => { l with complaints := l.complaints ++ halt.complaint }

/-- The path of a profile, which has to be there. -/
def requirePath (path : Option Text) : Act Failure Launch Text := do
  match path with
  | some spelling => return spelling
  | none => Act.fail (.noField "list" "startswith")

/-- Carries out a request and gives the exit code. -/
def carryOut (o : Occasion) : Request → Act Failure Launch Nat
  | .create path username => do create o (← requirePath path) username
  | .start path isQuick isUnlogged => do begin o (← requirePath path) isQuick isUnlogged

/-- A run with the words of the command line. -/
def run (o : Occasion) (words : List Text) : Act Failure Launch Nat := do
  match Request.read words with
  | .ok request => carryOut o request
  | .error halt =>
    Act.change (tell halt)
    return halt.code

end Launch

end VaultConsole
