import VaultConsole.Interpreter
import VaultConsole.Render
import VaultConsole.Terminal.Dialogue

/-!
# The full terminal

The interpreter at the terminal. Entries are printed as they come in, effects follow after the
delay of the session, the keys walk through the history and take over suggestions, and the
toolbar lists the suggestions for what is typed.

* `Terminal.fullSession`: a session whose pages and exit are those of the terminal.
* `Terminal.full`: the interpreter as a partner.
* `Terminal.startFull`: the dialogue at its beginning.
-/

namespace VaultConsole.Terminal

/-- A session whose pages are printed and whose exit ends the dialogue. Effects are queued. -/
def fullSession (depot : Depot) (clipboard : Behaviour) (delay : Delay) : Session :=
  { Session.bare depot with
    navigator := some (.screen false), exit := some .loop, clipboard := some clipboard
    scheduler := .queued, actionDelay := delay }

def inWorldOf (f : World → World) (i : Interpreter) : Interpreter :=
  let s := i.session
  { i with session := { s with depot := { s.depot with world := f s.depot.world } } }

def print (line : Text) : Act Failure Interpreter Unit := Act.change (inWorldOf (·.print line))

/-- Prints an entry with an empty line below it. -/
def printEntry (e : Entry) : Act Failure Interpreter Unit := do
  let zone ← Act.look (·.session.depot.world.clock.shown)
  print (← Interpreter.inSession (Session.showEntry zone e))
  print []

/-- Lets a delay go by. -/
def sleep (delay : Delay) : Act Failure Interpreter Unit := do
  Act.change (inWorldOf (·.note (.sleep delay)))
  match delay.seconds? with
  | some seconds => Act.change (inWorldOf (·.pass seconds))
  | none => Act.fail .numberTooLarge

/-- Answers a line on the screen, then carries out its effects. -/
def takeFull (line : Text) : Act Failure Interpreter Unit := do
  let entries ← Interpreter.submit line
  let isEmptied ← Act.look fun i => !line.isBlank && i.log.size = 0
  if isEmptied then Act.change (inWorldOf (·.display .cleared))
  for e in entries do
    printEntry e
  Interpreter.runScheduled sleep

/-- What a key puts into the editor. -/
def pressedFull (key : Key) (i : Interpreter) : Option Text × Interpreter :=
  let i := match key with
    | .up => i.recallPrevious
    | .down => i.recallNext
    | .tab => i.complete
  (some i.buffer, i)

/-- The suggestions in one row, if there are any. -/
def suggestionBar (suggestions : List Text) : Text :=
  if suggestions.isEmpty then [] else " Suggestions: " ++ Text.joinWith "  |  " suggestions

/-- The name of the program, as it stands in prompts. -/
def hostName : Text := "vaultterm"

def promptOf (username : Text) : Text := username ++ "@" ++ hostName ++ " $ "

/-- The interpreter as a partner. -/
def full (username : Text) : Partner Interpreter :=
  { prompt := promptOf username
    showsEditor := true
    edited := Interpreter.setBuffer
    pressed := pressedFull
    toolbar := Act.look fun i => suggestionBar i.suggestions
    take := takeFull
    isRunning := fun i => i.session.running
    world := fun i => i.session.depot.world
    inWorld := inWorldOf }

/-- The words at the beginning. -/
def welcome : Text := "Welcome to vaultterm. Type \"help\" to get started."

/-- The dialogue with the interpreter at its beginning. -/
def startFull (p : Partner Interpreter) (session : Session) (inputs : List Input) :
    Dialogue Interpreter :=
  ((Dialogue.start (Interpreter.start session) inputs).print p welcome).print p []

end VaultConsole.Terminal
