import VaultConsole.Command.Dispatch
import VaultConsole.Proofs.Act

/-!
# What commands answer with

A command that succeeds answers with an entry that is no failure: failures are told by the interpreter
alone. And of all commands only the one that shows an account shows its secret, where that is asked for.

* `Entry.IsBare`: answers that name no records.
* `Entry.Answers`, `Reply.Answers`: such answers.
* `Session.answers_execute`: **what a command answers with**; `Session.bare_executeDeletion`: what a
  deletion does.
-/

namespace VaultConsole

open Act (Yields)

/-- An answer that is no failure and names no records. -/
structure Entry.IsBare (e : Entry) : Prop where
  kind : e.kind ≠ .error
  payload : e.payload = none

/-- An answer of a command is no failure. Where it shows an account, the secret is unveiled or not as is
given here. -/
structure Entry.Answers (reveal : Bool) (e : Entry) : Prop where
  kind : e.kind ≠ .error
  details : ∀ account vault reveal',
    e.payload = some (.accountDetail account vault reveal') → reveal' = reveal

theorem Entry.IsBare.answers {e : Entry} (h : e.IsBare) (reveal : Bool) : e.Answers reveal := by
  refine ⟨h.kind, fun account vault reveal' hdetail => ?_⟩
  rw [h.payload] at hdetail
  cases hdetail

/-- The entry of a reply is such an answer, if there is one. -/
def Reply.Answers (reveal : Bool) (reply : Reply) : Prop := ∀ e, reply = .entry e → e.Answers reveal

namespace Session

/-! ## Commands that name no records -/

theorem bare_openPage (name : Text) : (openPage name).Yields Entry.IsBare := by
  refine .bind fun _ => ?_
  split
  · exact .fail _
  · exact .bind fun _ => .pure ⟨nofun, rfl⟩

theorem bare_requestExit : requestExit.Yields Entry.IsBare :=
  .bind fun _ => .bind fun _ => .pure ⟨nofun, rfl⟩

theorem bare_createVault (name description : Text) : (createVault name description).Yields Entry.IsBare :=
  .bind fun _ => .pure ⟨nofun, rfl⟩

/-- An update is carried out or there is nothing to update; then it is answered. -/
theorem bare_ofUpdate {c : Prop} [Decidable c] {act : Act Failure Session (Answer Bool)} {failure : Failure}
    {message : Text} :
    Yields Entry.IsBare
      (if c then do
        if !(← act).isYes then Act.fail failure
        return .success message
      else return .success message : Act Failure Session Entry) :=
  .ite (.bind fun _ => .ite (.bind fun _ => .pure ⟨nofun, rfl⟩) (.pure ⟨nofun, rfl⟩)) (.pure ⟨nofun, rfl⟩)

theorem bare_updateVault (name : Text) (newName description : Option Text) :
    (updateVault name newName description).Yields Entry.IsBare := .bind fun _ => bare_ofUpdate

theorem bare_askToDelete (d : Deletion) : (askToDelete d).Yields Entry.IsBare := by
  refine .bind fun gate => ?_
  split
  · exact .fail _
  · exact .bind fun _ => .bind fun _ => .pure ⟨nofun, rfl⟩

theorem bare_createAccount (vaultName name username password url notes : Text) :
    (createAccount vaultName name username password url notes).Yields Entry.IsBare :=
  .bind fun _ => .bind fun _ => .pure ⟨nofun, rfl⟩

theorem bare_updateAccount (name : Text) (newName username password url notes : Option Text) :
    (updateAccount name newName username password url notes).Yields Entry.IsBare :=
  .bind fun _ => bare_ofUpdate

theorem bare_executeDeletion (d : Deletion) : (executeDeletion d).Yields Entry.IsBare :=
  .bind fun _ => .ite (.bind fun _ => .pure ⟨nofun, rfl⟩) (.pure ⟨nofun, rfl⟩)

theorem bare_executeAccountCreate (l : Line) : (executeAccountCreate l).Yields Entry.IsBare :=
  .bind fun vault => .bind fun name => .bind fun username => .bind fun password =>
    bare_createAccount vault name username password _ _

theorem bare_executeHelp (l : Line) : (executeHelp l).Yields Entry.IsBare :=
  .ite (.pure ⟨nofun, rfl⟩) (.bind fun _ => .pure ⟨nofun, rfl⟩)

/-! ## Commands that name records -/

variable {reveal : Bool}

theorem answers_of_bare {act : Act Failure Session Entry} (h : act.Yields Entry.IsBare) :
    act.Yields (Entry.Answers reveal) := fun s e he => (h s e he).answers reveal

theorem answers_listVaults : listVaults.Yields (Entry.Answers reveal) :=
  .bind fun _ => .ite (.pure ⟨nofun, nofun⟩) (.bind fun _ => .bind fun _ => .pure ⟨nofun, nofun⟩)

theorem answers_showVault (name : Text) : (showVault name).Yields (Entry.Answers reveal) :=
  .bind fun _ => .bind fun _ => .pure ⟨nofun, nofun⟩

theorem answers_listAccounts (vaultName : Option Text) :
    (listAccounts vaultName).Yields (Entry.Answers reveal) := by
  unfold listAccounts
  simp only
  split
  · exact .bind fun _ => .bind fun _ => .ite (.pure ⟨nofun, nofun⟩) (.pure ⟨nofun, nofun⟩)
  · exact .bind fun _ => .ite (.pure ⟨nofun, nofun⟩) (.pure ⟨nofun, nofun⟩)

/-- An account is shown as it is asked for. -/
theorem answers_showAccount (name : Text) :
    (showAccount name reveal).Yields (Entry.Answers reveal) := by
  refine .bind fun account => .pure ⟨nofun, ?_⟩
  rintro _ _ _ ⟨⟩
  rfl

theorem answers_search (query : Text) : (search query).Yields (Entry.Answers reveal) :=
  .ite (.bind fun _ => .bind fun _ => .bind fun _ => .ite (.pure ⟨nofun, nofun⟩) (.pure ⟨nofun, nofun⟩))
    (.bind fun _ => .bind fun _ => .ite (.pure ⟨nofun, nofun⟩) (.pure ⟨nofun, nofun⟩))

theorem answers_stats : stats.Yields (Entry.Answers reveal) :=
  .bind fun _ => .bind fun _ => .bind fun _ => .bind fun _ => .bind fun _ => .pure ⟨nofun, nofun⟩

/-! ## Lines -/

theorem answers_answering {act : Act Failure Session Entry} (h : act.Yields (Entry.Answers reveal)) :
    (answering act).Yields (Reply.Answers reveal) :=
  .bind_of h fun e he => .pure (by rintro _ ⟨⟩; exact he)

theorem answers_executeVault (l : Line) (action : VaultAction) :
    (executeVault l action).Yields (Entry.Answers reveal) := by
  cases action with
  | list => exact answers_listVaults
  | create => exact answers_of_bare (.bind fun name => bare_createVault name _)
  | update => exact answers_of_bare (.bind fun name => bare_updateVault name _ _)
  | delete => exact answers_of_bare (.bind fun d => bare_askToDelete d)
  | detail => exact .bind fun name => answers_showVault name

/-- Of the actions on accounts, showing one looks whether the secret is to be unveiled. -/
theorem answers_executeAccount (l : Line) (action : AccountAction) :
    (executeAccount l action).Yields (Reply.Answers (l.hasSwitch "reveal")) := by
  cases action with
  | list => exact answers_answering (answers_listAccounts _)
  | create => exact answers_answering (answers_of_bare (bare_executeAccountCreate l))
  | update =>
    exact answers_answering (answers_of_bare (.bind fun name => bare_updateAccount name _ _ _ _ _))
  | delete => exact answers_answering (answers_of_bare (.bind fun d => bare_askToDelete d))
  | detail => exact answers_answering (.bind fun name => answers_showAccount name)
  | password => exact .bind fun account => .pure nofun

/-- **A command answers with no failure, and shows an account unveiled just if the line reports the name
`reveal`.** -/
theorem answers_execute (l : Line) : (execute l).Yields (Reply.Answers (l.hasSwitch "reveal")) := by
  refine .bind fun verb => ?_
  cases verb with
  | help => exact answers_answering (answers_of_bare (bare_executeHelp l))
  | clear => exact .pure nofun
  | exit => exact answers_answering (answers_of_bare bare_requestExit)
  | openPage => exact answers_answering (answers_of_bare (bare_openPage l.subVerb))
  | vault => exact .bind fun action => answers_answering (answers_executeVault l action)
  | account => exact .bind fun action => answers_executeAccount l action
  | search => exact answers_answering (answers_search _)
  | stats => exact answers_answering answers_stats

end Session

end VaultConsole
