import VaultConsole.Command.Dispatch
import VaultConsole.Course
import VaultConsole.Entry.Log
import VaultConsole.History
import VaultConsole.Suggestion

/-!
# The interpreter

The interpreter takes one line at a time and answers in its result log. While a deletion waits,
a line answers the gate; otherwise it is a command. A failure becomes an entry, but for those that end
the line where it stands: an interruption by the user, and all that goes wrong when something is logged
or told. The clock may show no time, the words of a failure may be impossible to make, and so may be
what an event says of an identifier.

A part outside may submit lines while a line is being answered, so what is done for a line is a
course. Each reaction of a part outside happens once, so their number bounds how deep lines can be
nested, and `submit` counts it down.

* `Interpreter.course`: what is done for a line; `Interpreter.submit`: one line.
* `Interpreter.setBuffer`, `recallPrevious`, `recallNext`, `complete`: the line that is being
  typed.
* `Interpreter.runScheduled`: the effects that the scheduler holds.
-/

namespace VaultConsole

/-- A session with its result log, its history, and the line that is being typed. -/
structure Interpreter where
  session : Session
  log : EntryLog
  history : History
  buffer : Text
  suggestions : List Text

namespace Interpreter

def start (session : Session) : Interpreter :=
  { session := { session with gate := some .idle }, log := .empty, history := .empty
    buffer := [], suggestions := [] }

/-- Acts on the session. -/
def inSession {α : Type} (act : Act Failure Session α) : Act Failure Interpreter α :=
  Act.within (·.session) (fun session i => { i with session }) act

def emit (severity : Severity) (name : Text) (fields : Table Text Json) :
    Act Failure Interpreter Unit :=
  inSession (Session.emit severity name fields)

def answer (entry : Entry) : Act Failure Interpreter Unit :=
  Act.change fun i => { i with log := i.log.append entry }

/-- Remembers a line. -/
def remember (line : Text) : Act Failure Interpreter Unit :=
  Act.change fun i => { i with history := i.history.record line }

/-! ## The line that is being typed -/

/-- Another text is being typed. -/
def setBuffer (text : Text) (i : Interpreter) : Interpreter :=
  { i with buffer := text, suggestions := Suggestion.list text }

/-- A text of the history is taken over, if there is one. -/
def recallBy (step : History → Option Text × History) (i : Interpreter) : Interpreter :=
  let (text, history) := step i.history
  let i := { i with history }
  match text with
  | some text => i.setBuffer text
  | none => i

def recallPrevious (i : Interpreter) : Interpreter := i.recallBy History.previous

def recallNext (i : Interpreter) : Interpreter := i.recallBy History.next

/-- Takes over the first suggestion, if there is one. -/
def complete (i : Interpreter) : Interpreter :=
  { i with buffer := i.suggestions.headD i.buffer, suggestions := [] }

/-! ## Answers of the gate -/

def reminder : Text := "Please type \"yes\" or \"confirm\" to proceed, or \"cancel\" to abort."

/-- What an event says about a failure. -/
def failureFields (failure : Failure) : Table Text Json :=
  [("error_type", .text failure.kind.name), ("error", .text failure.message)]

/-- Carries out a confirmed deletion. -/
def carryOutDeletion (d : Deletion) : Act Failure Interpreter Unit := do
  match ← Failure.attempt (inSession (Session.executeDeletion d)) with
  | .ok entry => answer entry
  | .error failure =>
    let _ ← Act.settle failure.words
    if !failure.isExpected then
      let verb : Table Text Json := [("verb", .text d.kind.operationName)]
      emit .error "command_error" (verb ++ failureFields failure)
    answer (.error failure.told)

/-- Does what a line decides about a deletion that waited. -/
def follow (line : Text) (d : Deletion) : Decision → Act Failure Interpreter Unit
  | .reject => answer (.error reminder)
  | .cancel => do
    remember line
    answer (.info "Operation cancelled.")
  | .confirm => do
    remember line
    carryOutDeletion d

/-- Logs what was decided about a deletion. -/
def logDecision (d : Deletion) (decision : Decision) : Act Failure Interpreter Unit := do
  -- an event has its time before anything is said in it
  let _ ← Act.settle (← Act.look (·.session.depot.world.localNow))
  let target ← Act.settle (← Act.look (·.session.depot.store.labelOf d.targetId))
  emit .info "confirmation"
    [("decision", .text decision.name), ("operation", .text d.kind.operationName),
      ("target_id", target)]

/-- Answers a line while a deletion waits. -/
def answerGate (line : Text) : Act Failure Interpreter Unit := do
  match (← Act.look (·.session.gate)).map (Gate.resolve line) with
  | some (.ok ((decision, d), gate)) =>
    -- a deletion that was decided about leaves the gate first, so it is carried out once
    Act.change fun i => { i with session := { i.session with gate := some gate } }
    logDecision d decision
    follow line d decision
  | _ => return

/-! ## Commands -/

/-- Copies the secret of an account. Yields what the account is after that. -/
def copySecret (account : Account) : Course Interpreter Account :=
  Course.copySecret inSession account

/-- The entry of a reply. A secret is copied on the way. -/
def entryOf : Reply → Course Interpreter (Option Entry)
  | .entry entry => return some entry
  | .cleared => return none
  | .secret account echo => do return some (Session.secretEntry echo (← copySecret account))

/-- Carries out a command and gives its entry; without one the log is emptied. -/
def execute (l : Line) : Course Interpreter (Option Entry) := do
  entryOf (← inSession (Session.execute l))

/-- Calls the part that an effect is for. -/
def carryOut (effect : Effect) : Course Interpreter Unit := do
  Course.undergo (← inSession (Session.touch effect))

/-- Goes along with a move of the scheduler. -/
def make (effect : Effect) : Move → Course Interpreter Unit
  | .submit line => Course.call line
  | .carryOut => carryOut effect
  | .hold => inSession (Session.enqueue effect)

/-- Gives an effect to the scheduler. -/
def schedule (effect : Effect) : Course Interpreter Unit := do
  let handling ← inSession Session.takeHandling
  handling.moves.forM (make effect)
  Course.ending handling.failure

/-- Gives the effects that wait to the scheduler. The first failure drops the rest. -/
def handOver : Course Interpreter Unit := do
  (← inSession Session.takeDeferred).forM schedule

def lineFields (l : Line) : Table Text Json :=
  [("verb", .text l.verb), ("sub_verb", .text l.subVerb),
    ("flags", Event.flagsField l.flags.values)]

/-- Logs a failed command and answers with what went wrong. -/
def report (l : Line) (failure : Failure) : Act Failure Interpreter Unit := do
  let _ ← Act.settle failure.words
  let severity : Severity := if failure.isExpected then .warning else .error
  emit severity "command_error" (lineFields l ++ failureFields failure)
  answer (.error failure.told)

/-- Seconds as milliseconds with one decimal. -/
def milliseconds (seconds : Binary64) : Binary64 :=
  let x := seconds.times 1000
  match x.units with
  | .error _ => x
  | .ok n =>
    Binary64.ofDecimal x.hasMinus (Binary64.roundToEven (n.natAbs * 10) Binary64.unitsOfOne) (-1)

/-- Logs a command that was carried out. -/
def logCommand (l : Line) (entry : Option Entry) (started : Binary64) :
    Act Failure Interpreter Unit := do
  let kind : Json := match entry with
    | some entry => .text entry.kind.name
    | none => .null
  let elapsed := (← Act.look (·.session.elapsed)).sub started
  let what : Table Text Json :=
    [("result_kind", kind), ("elapsed_ms", .real (milliseconds elapsed))]
  emit .info "command_exec" (lineFields l ++ what)

/-- Answers a line with what a command yielded. -/
def conclude : Option Entry → Act Failure Interpreter Unit
  | some entry => answer entry
  | none => Act.change fun i => { i with log := .empty }

/-- Gives up the command of a line. -/
def giveUp (l : Line) (failure : Failure) : Act Failure Interpreter Unit := do
  inSession (Act.change Session.dropDeferred)
  report l failure

/-- Carries out the command of a line, then the effects of it. -/
def dispatch (l : Line) : Course Interpreter Unit := do
  let started ← inSession (Act.look Session.elapsed)
  match ← Course.attemptUnlessInterrupted (execute l) with
  | .error failure => giveUp l failure
  | .ok entry =>
    conclude entry
    logCommand l entry started
    -- an effect that fails does not take back what the command has done
    match ← Course.attemptUnlessInterrupted handOver with
    | .ok _ => return
    | .error failure => report l failure

/-- What is done for a line that is not blank, once it was announced. -/
def process (line : Text) : Course Interpreter Unit := do
  if ← inSession (Act.look Session.isAwaiting) then answerGate line
  else
    match Line.parse line with
    | some l =>
      remember line
      dispatch l
    | none => return

/-- Announces a line, which is no longer being typed. Yields how many entries there were before. -/
def announce (line : Text) : Act Failure Interpreter Nat := do
  let start ← Act.look (·.log.size)
  answer (.info ("> " ++ line))
  Act.change fun i => { i with buffer := [], suggestions := [] }
  return start

def entriesSince (start : Nat) : Act Failure Interpreter (List Entry) :=
  Act.look (·.log.since start)

/-- What is done for a line. Yields the entries that came in. -/
def course (line : Text) : Course Interpreter (List Entry) := do
  let line := line.strip
  if line.isEmpty then return []
  else
    let start ← announce line
    process line
    entriesSince start

/-- One line, with further lines nested up to a depth. -/
def submitNested : (depth : Nat) → Text → Act Failure Interpreter (List Entry)
  | 0, line => (course line).run fun _ => return
  | depth + 1, line => (course line).run fun line => discard (submitNested depth line)

/-- One line. Yields the entries that came in. -/
def submit (line : Text) : Act Failure Interpreter (List Entry) := do
  -- every reaction that submits lines is used up by that, so there are levels enough
  submitNested (← Act.look (·.session.pendingReactions)) line

def submitBuffer : Act Failure Interpreter (List Entry) := do submit (← Act.look (·.buffer))

/-- The effects that the scheduler holds, each after `wait`. The first failure drops the rest. -/
def scheduledCourse (wait : Delay → Act Failure Interpreter Unit) : Course Interpreter Unit := do
  (← inSession Session.takeScheduled).forM fun (delay, effect) => do
    wait delay
    carryOut effect

/-- Carries out the effects that the scheduler holds, each after `wait`. -/
def runScheduled (wait : Delay → Act Failure Interpreter Unit) : Act Failure Interpreter Unit :=
  (scheduledCourse wait).run fun line => discard (submit line)

end Interpreter

end VaultConsole
