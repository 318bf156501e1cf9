/-!
# Acts

An act reads and changes a state and ends with a value or with a failure. A failure keeps what
was changed before it: a line that fails has still been logged, and a file that could not be
written to its end has still been opened.

* `Act`: the type.
* `Act.within`: an act on a part of the state.
* `Act.attempt`, `Act.attemptUnless`: the outcome of an act as a value, always or but for some
  failures.
-/

namespace VaultConsole

/-- An act on a state `σ` that fails with `ε` or yields an `α`; either way there is a new state. -/
abbrev Act (ε σ : Type) (α : Type) := ExceptT ε (StateM σ) α

namespace Act

variable {ε ε' σ τ α : Type}

def outcome (act : Act ε σ α) (s : σ) : Except ε α × σ := act s

/-- An act on a part of the state leaves the rest as it is. -/
def within (part : σ → τ) (write : τ → σ → σ) (act : Act ε τ α) : Act ε σ α := fun s =>
  let (result, t) := act (part s)
  (result, write t s)

/-- The outcome of an act as a value; this act itself does not fail. -/
def attempt (act : Act ε σ α) : Act ε σ (Except ε α) := fun s =>
  let (result, s) := act s
  (.ok result, s)

/-- The outcome of an act as a value, but for failures that pass: those are this act's too. -/
def attemptUnless (passes : ε → Bool) (act : Act ε σ α) : Act ε σ (Except ε α) := fun s =>
  match act s with
  | (.ok value, s) => (.ok (.ok value), s)
  | (.error e, s) => if passes e then (.error e, s) else (.ok (.error e), s)

/-- An act whose failures are named anew. -/
def rename (f : ε → ε') (act : Act ε σ α) : Act ε' σ α := fun s =>
  let (result, s) := act s
  (result.mapError f, s)

/-- Looks at the state. -/
def look (f : σ → α) : Act ε σ α := fun s => (.ok (f s), s)

def state : Act ε σ σ := fun s => (.ok s, s)

def change (f : σ → σ) : Act ε σ Unit := fun s => (.ok (), f s)

def fail (e : ε) : Act ε σ α := fun s => (.error e, s)

/-- What is already decided. -/
def settle (result : Except ε α) : Act ε σ α := fun s => (result, s)

end Act

end VaultConsole
