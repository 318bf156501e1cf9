import VaultConsole.QuickBar
import VaultConsole.Render
import VaultConsole.Terminal.Dialogue

/-!
# The quick terminal

The quick bar at the terminal. Nothing is printed but the pages; the toolbar shows the feedback
in one row. The way back to the overview ends the dialogue.

* `Terminal.quickSession`: a session whose pages are those of the terminal.
* `Terminal.quick`: the quick bar as a partner.
* `Terminal.startQuick`: the dialogue at its beginning.
-/

namespace VaultConsole.Terminal

/-- A session whose pages are printed. The overview ends the dialogue. -/
def quickSession (depot : Depot) (clipboard : Behaviour) : Session :=
  { Session.bare depot with
    navigator := some (.screen true), clipboard := some clipboard }

/-- The feedback in one row, if it is still shown. -/
def feedbackBar : Act Failure QuickBar Text := do
  let feedback ← (fun b => let (entry, b) := b.poll; (.ok entry, b) :
    Act Failure QuickBar (Option Entry))
  match feedback with
  | none => return []
  | some e =>
    let zone ← Act.look (·.session.depot.world.clock.shown)
    let text ← QuickBar.inSession (Session.showEntry zone e)
    return " " ++ Text.replace Text.newline " " text

/-- Answers a line. -/
def takeQuick (line : Text) : Act Failure QuickBar Unit := discard (QuickBar.submit line)

def inWorldOfBar (f : World → World) (b : QuickBar) : QuickBar :=
  let s := b.session
  { b with session := { s with depot := { s.depot with world := f s.depot.world } } }

/-- The quick bar as a partner. It gives no key a meaning. -/
def quick : Partner QuickBar :=
  { prompt := ": "
    showsEditor := false
    edited := fun _ b => b
    pressed := fun _ b => (none, b)
    toolbar := feedbackBar
    take := takeQuick
    isRunning := fun b => b.session.running
    world := fun b => b.session.depot.world
    inWorld := inWorldOfBar }

/-- The dialogue with the quick bar at its beginning. -/
def startQuick (p : Partner QuickBar) (session : Session) (consents : List Consent)
    (inputs : List Input) : Dialogue QuickBar :=
  let b := QuickBar.start session QuickBar.usualLifetime consents
  (Dialogue.start b inputs).print p QuickBar.help

end VaultConsole.Terminal
