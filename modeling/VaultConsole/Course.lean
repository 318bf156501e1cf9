import VaultConsole.Session.Basic

/-!
# Courses

A course is what is done for a line: acts of its own, and in between, parts outside that submit
further lines. What becomes of such a line is left open, so a course can be carried out, and the
lines that are submitted on the way can be followed.

* `Course`: the type.
* `Course.proceed`: what comes after a course, however it ends; by this courses are a monad.
* `Course.run`: the act that a course comes to when it is known what is done with further lines.
* `Course.undergo`, `Course.copySecret`: what parts outside do along a course.
-/

namespace VaultConsole

/-- What is done for a line, from states `σ` to a value or a failure. -/
inductive Course (σ α : Type) : Type 1
  | done (result : Except Failure α)
  /-- An act of its own comes first. -/
  | own {β : Type} (act : Act Failure σ β) (next : Except Failure β → Course σ α)
  /-- A part outside submits a line first. -/
  | submit (line : Text) (next : Except Failure Unit → Course σ α)

namespace Course

variable {σ α β : Type}

/-- What comes after a course, however it ends. -/
def proceed (c : Course σ α) (next : Except Failure α → Course σ β) : Course σ β :=
  match c with
  | done result => next result
  | own act rest => own act fun result => (rest result).proceed next
  | submit line rest => submit line fun result => (rest result).proceed next

/-- What comes after a course that succeeds. -/
def onward (next : α → Course σ β) : Except Failure α → Course σ β
  | .ok value => next value
  | .error failure => done (.error failure)

instance : Monad (Course σ) where
  pure value := done (.ok value)
  bind c next := c.proceed (onward next)

/-- A course of one act. -/
def ofAct (act : Act Failure σ α) : Course σ α := own act done

instance : MonadLift (Act Failure σ) (Course σ) where
  monadLift := ofAct

/-- A course in which a part outside submits a line and does nothing else. -/
def call (line : Text) : Course σ Unit := submit line done

/-- The outcome of a course as a value; this course itself does not fail. -/
def attempt (c : Course σ α) : Course σ (Except Failure α) := c.proceed fun result => done (.ok result)

/-- The outcome of a course as a value, interruptions apart. -/
def attemptUnlessInterrupted (c : Course σ α) : Course σ (Except Failure α) :=
  c.proceed fun
    | .ok value => done (.ok (.ok value))
    | .error failure =>
      if failure.isInterruption then done (.error failure) else done (.ok (.error failure))

/-- The act that a course comes to, where `answer` is what is done with further lines. -/
def run (answer : Text → Act Failure σ Unit) : Course σ α → Act Failure σ α
  | done result => Act.settle result
  | own act next => fun s =>
    let (result, s) := act s
    run answer (next result) s
  | submit line next => fun s =>
    let (result, s) := answer line s
    run answer (next result) s

/-- The end of a call of a part outside. -/
def ending : Option Failure → Course σ Unit
  | some failure => done (.error failure)
  | none => done (.ok ())

/-- Goes along with a reaction: its lines are submitted, then it fails if it does. -/
def undergo (reaction : Reaction) : Course σ Unit := do
  reaction.resubmits.forM call
  ending reaction.failure

/-- Copies the secret of an account, where `inSession` acts on the session. Yields what the account
is after that. -/
def copySecret (inSession : {β : Type} → Act Failure Session β → Act Failure σ β)
    (account : Account) : Course σ Account := do
  inSession (Session.hold account)
  let copied ← attempt do undergo (← inSession (Session.copy account.password))
  let account ← inSession (Session.release account)
  done copied
  return account

end Course

end VaultConsole
