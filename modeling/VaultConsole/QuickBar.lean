import VaultConsole.Interpreter

/-!
# The quick bar

A single line for a few commands, without log, history, suggestions or gate. What a line answers
is shown as feedback for a while. A deletion asks the user at once, who takes some time to answer, and is
carried out on a yes.
An interruption by the user ends a line where it stands, without feedback, and so does a failure
whose words cannot be made.

* `QuickBar.submit`: one line.
* `QuickBar.poll`: the feedback, if it is still shown.
-/

namespace VaultConsole

/-- What the user says to a question. -/
inductive Verdict
  | yes
  | no
  | fails (failure : Failure)

/-- What the user is going to say to a question, and how many seconds go by until then. -/
structure Consent where
  verdict : Verdict
  lasts : Binary64

/-- An answer that comes at once. -/
def Consent.prompt (verdict : Verdict) : Consent := { verdict, lasts := .zero false }

/-- A session with its feedback and what the user is going to say. -/
structure QuickBar where
  session : Session
  /-- The answers of the user to come; after them, no at once. -/
  consents : List Consent
  lifetime : Delay
  /-- The feedback, and how long the clock had been running when it came. -/
  feedback : Option (Entry × Binary64)

namespace QuickBar

/-- A quick bar at its beginning: without a gate or a way to exit, and without delay. -/
def start (session : Session) (lifetime : Delay) (consents : List Consent) : QuickBar :=
  { session := { session with exit := none, gate := none, scheduler := .immediate }
    consents, lifetime, feedback := none }

/-- The usual lifetime of feedback, in seconds. -/
def usualLifetime : Delay := .whole 3

def elapsed (b : QuickBar) : Binary64 := b.session.elapsed

/-- The feedback, if it is still shown; else it is dropped. -/
def poll (b : QuickBar) : Option Entry × QuickBar :=
  match b.feedback with
  | none => (none, b)
  | some (entry, shown) =>
    if b.lifetime.isOver (b.elapsed.sub shown) then (none, { b with feedback := none })
    else (some entry, b)

def inSession {α : Type} (act : Act Failure Session α) : Act Failure QuickBar α :=
  Act.within (·.session) (fun session b => { b with session }) act

def emit (severity : Severity) (name : Text) (fields : Table Text Json) :
    Act Failure QuickBar Unit :=
  inSession (Session.emit severity name fields)

/-- What is asked before a deletion. -/
def question (d : Deletion) : Text :=
  "Delete " ++ d.kind.word ++ " " ++ Failure.named d.targetName ++ "? This action cannot be undone."

/-- What the user is going to say next. -/
def consent (b : QuickBar) : Consent := b.consents.headD (.prompt .no)

def ask (question : Text) : Act Failure QuickBar Bool := do
  inSession (Session.inWorld fun w => (w.note (.confirm question)).display (.question question))
  let consent ← Act.look consent
  let consents ← Act.look (·.consents)
  Act.change fun b => { b with consents := consents.drop 1 }
  inSession (Session.inWorld (·.pass consent.lasts))
  match consent.verdict with
  | .yes => return true
  | .no => return false
  | .fails failure => Act.fail failure

/-- Carries out a deletion if the user agrees. -/
def deleteNow (d : Deletion) : Act Failure QuickBar (Option Entry) := do
  if ← ask (question d) then return some (← inSession (Session.executeDeletion d))
  else return none

def vaultActions : List VaultAction := [.create, .delete]

def accountActions : List AccountAction := [.create, .delete, .password]

/-- What the bar answers to a request for help. -/
def help : Text := "Available commands: exit, open [page], vault [action], account [action]"

/-- Announces the way back to the overview. -/
def returnToOverview : Act Failure Session Entry := do
  Session.requireNavigator
  Session.defer (.navigate .overview)
  return .info "Returning to overview..."

def executeVault (l : Line) : Act Failure QuickBar (Option Entry) := do
  match ← Act.settle (VaultAction.select vaultActions l.subVerb) with
  | .delete => deleteNow (← inSession (Session.vaultDeletionOf l))
  | _ => return some (← inSession (Session.executeVaultCreate l))

/-- Copies the secret of an account. Yields what the account is after that. -/
def copySecret (account : Account) : Course QuickBar Account := Course.copySecret inSession account

def executeAccount (l : Line) : Course QuickBar (Option Entry) := do
  match ← Course.done (AccountAction.select accountActions l.subVerb) with
  | .delete => deleteNow (← inSession (Session.accountDeletionOf l))
  | .password => do
    let account ← inSession (Session.secretAccountOf l)
    return some (Session.secretEntry false (← copySecret account))
  | _ => return some (← inSession (Session.executeAccountCreate l))

def execute (l : Line) : Course QuickBar (Option Entry) := do
  match Verb.ofToken? l.verb with
  | some .help => return some (.info help)
  | some .exit => return some (← inSession returnToOverview)
  | some .openPage => return some (← inSession (Session.openPage l.subVerb))
  | some .vault => executeVault l
  | some .account => executeAccount l
  | _ => Course.done (.error (.unknownVerb l.verb))

def carryOut (effect : Effect) : Course QuickBar Unit := do
  Course.undergo (← inSession (Session.touch effect))

/-- Calls the parts that the effects which wait are for. The first failure drops the rest. -/
def handOver : Course QuickBar Unit := do (← inSession Session.takeDeferred).forM carryOut

/-- The first field of every event of the bar. -/
def variantField : Table Text Json := [("variant", .text "quick")]

def logCommand (l : Line) (entry : Option Entry) : Act Failure QuickBar Unit :=
  let kind : Json := match entry with
    | some entry => .text entry.kind.name
    | none => .null
  let what : Table Text Json := [("result_kind", kind)]
  emit .info "command_exec" (variantField ++ Interpreter.lineFields l ++ what)

/-- Logs a failure. Of a line that failed unexpectedly only the verb is logged. -/
def logFailure (l : Line) (failure : Failure) : Act Failure QuickBar Unit :=
  let what := Interpreter.failureFields failure
  if failure.isExpected then
    emit .warning "command_error" (variantField ++ Interpreter.lineFields l ++ what)
  else
    let verb : Table Text Json := [("verb", .text l.verb)]
    emit .error "command_error" (variantField ++ verb ++ what)

/-- Carries out a line and the effects of it. -/
def perform (l : Line) : Course QuickBar (Option Entry) := do
  let entry ← execute l
  logCommand l entry
  handOver
  return entry

/-- Logs a failed line and yields what it is answered. -/
def report (l : Line) (failure : Failure) : Act Failure QuickBar Entry := do
  inSession (Act.change Session.dropDeferred)
  let _ ← Act.settle failure.words
  logFailure l failure
  return .error failure.told

/-- Shows an entry from now on. -/
def present (entry : Entry) : Act Failure QuickBar Unit :=
  Act.change fun b => { b with feedback := some (entry, b.elapsed) }

/-- Answers a line that is not blank. Yields its entry. -/
def answer (l : Line) : Course QuickBar (Option Entry) := do
  match ← Course.attemptUnlessInterrupted (perform l) with
  | .ok entry => return entry
  | .error failure => return some (← report l failure)

/-- What is done for a line. Yields its entry. -/
def course (line : Text) : Course QuickBar (Option Entry) := do
  match Line.parse line with
  | none => return none
  | some l =>
    let entry ← answer l
    if let some entry := entry then present entry
    return entry

/-- One line, with further lines nested up to a depth. -/
def submitNested : (depth : Nat) → Text → Act Failure QuickBar (Option Entry)
  | 0, line => (course line).run fun _ => return
  | depth + 1, line => (course line).run fun line => discard (submitNested depth line)

/-- One line. Yields its entry. -/
def submit (line : Text) : Act Failure QuickBar (Option Entry) := do
  submitNested (← Act.look (·.session.pendingReactions)) line

end QuickBar

end VaultConsole
