import VaultConsole.Failure
import VaultConsole.World

/-!
# Dialogues

At the terminal a program asks for lines and a user answers with what is typed: whole lines,
texts in the line editor, keys, pauses, and now and then a failure of the terminal. A `Partner`
is the program's side of this; everything about lines, the editor and its toolbar is common to
all partners.

* `Input`: what the user does.
* `Partner`: what a program makes of it.
* `Dialogue.ask`, `Dialogue.step`: one line, and what the program makes of it.
* `Dialogue.run`: lines until the program has ended, the user is gone or the dialogue is broken off.
-/

namespace VaultConsole

/-- The keys that a program may give a meaning while a line is typed. -/
inductive Key
  | up
  | down
  | tab
  deriving DecidableEq

/-- What the user does at a prompt. -/
inductive Input
  /-- Gives a line that did not pass through the editor. -/
  | enters (line : Text)
  /-- Gives the text of the editor as the line. -/
  | accepts
  /-- The terminal fails. -/
  | fails (failure : Failure)
  /-- The editor gets another text. -/
  | types (text : Text)
  | presses (key : Key)
  /-- Seconds go by. -/
  | waits (seconds : Binary64)

/-- What is seen while a line is typed. -/
structure Glance where
  /-- The text in the editor, where the program shows it. -/
  editor : Option Text
  toolbar : Text

/-- A program with states `σ` that is driven by a dialogue. -/
structure Partner (σ : Type) where
  prompt : Text
  /-- Whether the text in the editor is shown. -/
  showsEditor : Bool
  edited : Text → σ → σ
  /-- A key is pressed; it may put a text into the editor. -/
  pressed : Key → σ → Option Text × σ
  /-- What stands below the line. -/
  toolbar : Act Failure σ Text
  take : Text → Act Failure σ Unit
  /-- Whether further lines are asked for. -/
  isRunning : σ → Bool
  /-- The world in which the program runs. -/
  world : σ → World
  /-- Changes the world in which the program runs. -/
  inWorld : (World → World) → σ → σ

/-- A program, and the user's side: what the user is going to do, the line editor, and what the
user was shown so far. -/
structure Dialogue (σ : Type) where
  state : σ
  inputs : List Input
  editor : Text
  prompts : List Text
  glances : List Glance
  /-- What the dialogue was broken off by, if it was. -/
  broken : Option Failure

namespace Dialogue

variable {σ : Type}

/-- A dialogue at its beginning. -/
def start (state : σ) (inputs : List Input) : Dialogue σ :=
  { state, inputs, editor := [], prompts := [], glances := [], broken := none }

def inState {α : Type} (act : Act Failure σ α) : Act Failure (Dialogue σ) α :=
  Act.within (·.state) (fun state d => { d with state }) act

def print (p : Partner σ) (line : Text) (d : Dialogue σ) : Dialogue σ :=
  { d with state := p.inWorld (·.print line) d.state }

/-- The editor gets a text. The program hears of it if that is a change. -/
def edit (p : Partner σ) (text : Text) (d : Dialogue σ) : Dialogue σ :=
  if d.editor = text then d else { d with editor := text, state := p.edited text d.state }

/-- Carries out what the user does between the beginning and the end of a line. -/
def handle (p : Partner σ) (input : Input) (d : Dialogue σ) : Dialogue σ :=
  match input with
  | .types text => d.edit p text
  | .presses key =>
    let (text, state) := p.pressed key d.state
    let d := { d with state }
    match text with
    | some text => d.edit p text
    | none => d
  | .waits seconds => { d with state := p.inWorld (·.pass seconds) d.state }
  | _ => d

/-- The user looks at the editor and the toolbar. -/
def glance (p : Partner σ) : Act Failure (Dialogue σ) Unit := do
  let toolbar ← inState p.toolbar
  Act.change fun d =>
    let editor := if p.showsEditor then some d.editor else none
    { d with glances := d.glances ++ [⟨editor, toolbar⟩] }

/-- The line that inputs amount to. The inputs that it does not need are left. -/
def readLine (p : Partner σ) : List Input → Act Failure (Dialogue σ) Text
  | [] => do
    Act.change fun d => { d with inputs := [] }
    Act.fail (.endOfInput [])
  | input :: rest => do
    Act.change fun d => { d with inputs := rest }
    match input with
    | .enters line => return line
    | .accepts => Act.look (·.editor)
    | .fails failure => Act.fail failure
    | input =>
      Act.change (·.handle p input)
      glance p
      readLine p rest

/-- Asks for a line. The editor is emptied before, of which the program does not hear. -/
def ask (p : Partner σ) : Act Failure (Dialogue σ) Text := do
  Act.change fun d => { d with editor := [], prompts := d.prompts ++ [p.prompt] }
  readLine p (← Act.look (·.inputs))

/-- Asks for a line and gives it to the program. -/
def exchange (p : Partner σ) : Act Failure (Dialogue σ) Unit := do
  let line ← ask p
  inState (p.take line)

/-- Tells of a failure. One whose words cannot be made breaks the dialogue off. -/
def report (p : Partner σ) (failure : Failure) (d : Dialogue σ) : Dialogue σ :=
  match failure.kind with
  | .endOfInput | .interrupt => d.print p []
  | _ =>
    match failure.words with
    | .ok words => d.print p ("ERROR: " ++ words)
    | .error cause => { d with broken := some cause }

/-- One line, and whether there is another one after it. The end of the input ends a dialogue, and
so does what breaks it off; of every other failure the user is told. -/
def step (p : Partner σ) (d : Dialogue σ) : Bool × Dialogue σ :=
  match exchange p d with
  | (.ok _, d) => (true, d)
  | (.error failure, d) =>
    let d := d.report p failure
    (failure.kind != .endOfInput && d.broken.isNone, d)

/-- At most so many lines. -/
def converse (p : Partner σ) : (lines : Nat) → Dialogue σ → Dialogue σ
  | 0, d => d
  | lines + 1, d =>
    if p.isRunning d.state then
      match step p d with
      | (true, d) => converse p lines d
      | (false, d) => d
    else d

/-- Lines until the program has ended, the user is gone or the dialogue is broken off. Every line
takes an input, and without inputs the user is gone. -/
def run (p : Partner σ) (d : Dialogue σ) : Dialogue σ := converse p (d.inputs.length + 1) d

end Dialogue

end VaultConsole
