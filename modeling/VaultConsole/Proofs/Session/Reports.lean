import VaultConsole.Proofs.Interpreter.Nesting

/-!
# What a session leaves unreported

A failure of a command is reported in the log, by an event of its own name. The interpreter does that.
Nothing that is done with the store, and nothing that is done with a session for a line, emits such an
event: the store tells only that it went back to what was saved.

* `World.reports`: the reports of failures in the log.
* `Depot.Tacit`, `Depot.tacit_createVault` to `Depot.tacit_deleteAccount`: operations report nothing.
* `Session.Tacit`, `Session.tacit_execute`: **nor do commands**; `Session.tacit_touch`,
  `Session.tacit_copy`: nor do calls of parts outside.
-/

namespace VaultConsole

namespace World

/-- The name of the events that report a failure. -/
def reportName : Text := "command_error"

/-- The reports of failures, in order. -/
def reports (w : World) : List Event := w.events.filter (·.name = reportName)

theorem events_record (e : Event) (w : World) : (w.record e).events = w.events ++ [e] := by
  unfold record writeRunLog
  split
  · rfl
  · split
    · rfl
    · simp only
      split
      · rfl
      · split <;> rfl

theorem reports_record (e : Event) (w : World) :
    (w.record e).reports = w.reports ++ if e.name = reportName then [e] else [] := by
  rw [reports, events_record, List.filter_append, ← reports]
  by_cases h : e.name = reportName <;> simp [h]

/-- The reports are the same. -/
def Tacit (w w' : World) : Prop := w'.reports = w.reports

instance : Std.Refl Tacit := ⟨fun _ => rfl⟩

instance : IsTrans World Tacit := ⟨fun _ _ _ h h' => h'.trans h⟩

theorem tacit_emit {name : Text} (h : name ≠ reportName) (severity : Severity)
    (fields : Table Text Json) : (emit severity name fields).Keeps Tacit := by
  intro w
  unfold emit
  split
  · exact (reports_record _ w).trans (by rw [if_neg h, List.append_nil])
  · rfl

theorem tacit_writeDocument (path : Path) (value : Json) : (writeDocument path value).Keeps Tacit := by
  have hwrite : ∀ bytes, (writeFile path bytes).Keeps Tacit := by
    intro bytes w
    unfold writeFile
    split <;> rfl
  refine (hwrite _).bind fun _ => ?_
  split
  · exact .pure _
  · exact .fail _

end World

namespace Depot

/-- The reports are the same. -/
def Tacit (d d' : Depot) : Prop := d.world.Tacit d'.world

instance : Std.Refl Tacit := ⟨fun d => Std.Refl.refl d.world⟩

instance : IsTrans Depot Tacit := ⟨fun _ _ _ h h' => trans_of World.Tacit h h'⟩

variable {α : Type}

theorem tacit_unlessFaulty (operation : Operation) {act : Act Failure Depot α} (h : act.Keeps Tacit) :
    (unlessFaulty operation act).Keeps Tacit := by
  refine (Act.Keeps.look _).bind fun fault => ?_
  split
  · exact .fail _
  · exact .pure _
  · exact h.map _

theorem tacit_inWorld {act : Act Failure World α} (h : act.Keeps World.Tacit) :
    (inWorld act).Keeps Tacit := h.within fun _ _ hw => hw

/-- A change of the store. -/
theorem tacit_change (f : Depot → Store) :
    (Act.change fun d => { d with store := f d } : Act Failure Depot Unit).Keeps Tacit := fun _ => rfl

theorem tacit_setRecords (records : Records) : (setRecords records).Keeps Tacit := tacit_change _

theorem tacit_letGo (stays : Account → Bool) : (letGo stays).Keeps Tacit := tacit_change _

theorem tacit_writeDocument (path : Path) (document : Json) :
    (writeDocument path document).Keeps Tacit := by
  have hdirectories : (World.makeDirectories path.parent).Keeps World.Tacit := fun _ => rfl
  exact tacit_inWorld fun w =>
    (hdirectories.bind fun _ => World.tacit_writeDocument path document) w

theorem tacit_save : save.Keeps Tacit := by
  refine tacit_unlessFaulty _ ((Act.Keeps.look _).bind fun keeping => ?_)
  cases keeping with
  | memory => exact .fail _
  | file path saved =>
    refine (tacit_unlessFaulty _ (.look _)).bind fun answer => ?_
    exact (tacit_writeDocument _ _).bind fun _ => tacit_change _

theorem tacit_restore (saved : Json) : (restore saved).Keeps Tacit := by
  refine (Act.Keeps.settle _).bind fun vaults => (Act.Keeps.look _).bind fun records => ?_
  refine (tacit_setRecords _).bind fun _ => (Act.Keeps.settle _).bind fun accounts => ?_
  exact (tacit_letGo _).bind fun _ => (Act.Keeps.look _).bind fun records => tacit_setRecords _

/-- Going back to what was saved is told, but by an event of another name. -/
theorem tacit_rollBack (path : Path) (saved : Json) : (rollBack path saved).Keeps Tacit :=
  tacit_unlessFaulty _ ((tacit_restore saved).bind fun _ =>
    tacit_inWorld (World.tacit_emit (by decide) _ _))

theorem tacit_settle : settle.Keeps Tacit := by
  refine tacit_unlessFaulty _ ((Act.Keeps.look _).bind fun keeping => ?_)
  cases keeping with
  | memory => exact .pure _
  | file path saved =>
    refine tacit_save.attempt.bind fun result => ?_
    cases result with
    | ok _ => exact .pure _
    | error failure =>
      exact .ite ((tacit_rollBack path saved).bind fun _ => .fail _) (.fail _)

theorem tacit_stamp : stamp.Keeps Tacit := by
  refine (Act.Keeps.look _).bind fun world => (Act.Keeps.settle _).bind fun now => ?_
  exact Act.Keeps.bind (fun _ => rfl) fun _ => .pure _

theorem tacit_createVault (draft : VaultDraft) : (createVault draft).Keeps Tacit := by
  refine tacit_unlessFaulty _ (tacit_stamp.bind fun stamp => (Act.Keeps.look _).bind fun records => ?_)
  exact (tacit_setRecords _).bind fun _ => tacit_settle.bind fun _ => .pure _

theorem tacit_createAccount (draft : AccountDraft) : (createAccount draft).Keeps Tacit := by
  refine tacit_unlessFaulty _ ((Act.Keeps.look _).bind fun records => ?_)
  have hmake : (do
      let stamped ← stamp
      let account := draft.record stamped.1 stamped.2
      setRecords (records.addAccount account)
      let _ ← settle
      return account : Act Failure Depot Account).Keeps Tacit :=
    tacit_stamp.bind fun stamp => (tacit_setRecords _).bind fun _ => tacit_settle.bind fun _ => .pure _
  exact .ite ((Act.Keeps.fail _).bind fun _ => hmake) hmake

theorem tacit_replace (changed : Option Records) : (replace changed).Keeps Tacit := by
  cases changed with
  | none => exact .pure _
  | some records => exact (tacit_setRecords records).bind fun _ => tacit_settle.bind fun _ => .pure _

theorem tacit_leaveUndated (failure : Failure) (changed : Option Records) :
    (leaveUndated failure changed).Keeps Tacit := by
  cases changed with
  | none => exact .pure _
  | some records => exact (tacit_setRecords records).bind fun _ => .fail _

theorem tacit_remove (stays : Account → Bool) (changed : Option Records) :
    (remove stays changed).Keeps Tacit :=
  .ite ((tacit_letGo stays).bind fun _ => tacit_replace changed) (tacit_replace changed)

theorem tacit_updateVault (id : Text) (updates : Table Text Text) :
    (updateVault id updates).Keeps Tacit := by
  refine tacit_unlessFaulty _ ((Act.Keeps.settle _).bind fun fields => (Act.Keeps.look _).bind fun d => ?_)
  split
  · exact tacit_replace _
  · exact tacit_leaveUndated _ _

theorem tacit_updateAccount (id : Text) (updates : Table Text Text) :
    (updateAccount id updates).Keeps Tacit := by
  refine tacit_unlessFaulty _ ((Act.Keeps.settle _).bind fun fields => (Act.Keeps.look _).bind fun d => ?_)
  split
  · exact tacit_replace _
  · exact tacit_leaveUndated _ _

theorem tacit_deleteVault (id : Text) : (deleteVault id).Keeps Tacit :=
  tacit_unlessFaulty _ ((Act.Keeps.look _).bind fun _ => tacit_remove _ _)

theorem tacit_deleteAccount (id : Text) : (deleteAccount id).Keeps Tacit :=
  tacit_unlessFaulty _ ((Act.Keeps.look _).bind fun _ => tacit_remove _ _)

end Depot

namespace Session

/-- The reports of failures in the log. -/
def reports (s : Session) : List Event := s.depot.world.reports

/-- The reports are the same. -/
def Tacit (s s' : Session) : Prop := s.depot.Tacit s'.depot

instance : Std.Refl Tacit := ⟨fun s => Std.Refl.refl s.depot⟩

instance : IsTrans Session Tacit := ⟨fun _ _ _ h h' => trans_of Depot.Tacit h h'⟩

variable {α : Type}

theorem tacit_inDepot {act : Act Failure Depot α} (h : act.Keeps Depot.Tacit) :
    (inDepot act).Keeps Tacit := h.within fun _ _ hd => hd

theorem tacit_emit {name : Text} (h : name ≠ World.reportName) (severity : Severity)
    (fields : Table Text Json) : (emit severity name fields).Keeps Tacit :=
  tacit_inDepot (Depot.tacit_inWorld (World.tacit_emit h severity fields))

/-! ## Commands -/

theorem tacit_openPage (name : Text) : (openPage name).Keeps Tacit := by
  refine keeps_requireNavigator.bind fun _ => ?_
  split
  · exact .fail _
  · exact Act.Keeps.bind (fun _ => rfl) fun _ => .pure _

theorem tacit_requestExit : requestExit.Keeps Tacit :=
  keeps_requireExit.bind fun _ => Act.Keeps.bind (fun _ => rfl) fun _ => .pure _

theorem tacit_listVaults : listVaults.Keeps Tacit :=
  keeps_listVaultsIn.bind fun _ => .ite (.pure _)
    ((Act.Keeps.settle _).bind fun _ => (Act.Keeps.settle _).bind fun _ => .pure _)

theorem tacit_createVault (name description : Text) : (createVault name description).Keeps Tacit :=
  (tacit_inDepot (Depot.tacit_createVault _)).bind fun _ => .pure _

/-- An update is carried out or there is nothing to update. -/
theorem tacit_ofUpdate {c : Prop} [Decidable c] {act : Act Failure Session (Answer Bool)}
    {failure : Failure} {entry : Entry} (h : act.Keeps Tacit) :
    (if c then do
      if !(← act).isYes then Act.fail failure
      return entry
    else return entry : Act Failure Session Entry).Keeps Tacit :=
  .ite (h.bind fun _ => .ite ((Act.Keeps.fail _).bind fun _ => .pure _) (.pure _)) (.pure _)

theorem tacit_updateVault (name : Text) (newName description : Option Text) :
    (updateVault name newName description).Keeps Tacit :=
  (keeps_findVault name).bind fun _ => tacit_ofUpdate (tacit_inDepot (Depot.tacit_updateVault _ _))

theorem tacit_listAccounts (vaultName : Option Text) : (listAccounts vaultName).Keeps Tacit := by
  unfold listAccounts
  simp only
  split
  · exact (keeps_findVault _).bind fun _ => (keeps_accountsIn _).bind fun _ => .ite (.pure _) (.pure _)
  · exact (keeps_accountsWith _).bind fun _ => .ite (.pure _) (.pure _)

theorem tacit_createAccount (vaultName name username password url notes : Text) :
    (createAccount vaultName name username password url notes).Keeps Tacit :=
  (keeps_findVault vaultName).bind fun _ =>
    (tacit_inDepot (Depot.tacit_createAccount _)).bind fun _ => .pure _

theorem tacit_updateAccount (name : Text) (newName username password url notes : Option Text) :
    (updateAccount name newName username password url notes).Keeps Tacit :=
  (keeps_findAccount name).bind fun _ => tacit_ofUpdate (tacit_inDepot (Depot.tacit_updateAccount _ _))

theorem tacit_askToDelete (d : Deletion) : (askToDelete d).Keeps Tacit := by
  refine (Act.Keeps.look _).bind fun gate => ?_
  split
  · exact .fail _
  · exact (Act.Keeps.settle _).bind fun _ => Act.Keeps.bind (fun _ => rfl) fun _ => .pure _

theorem tacit_executeDeletion (d : Deletion) : (executeDeletion d).Keeps Tacit := by
  refine Act.Keeps.bind ?_ fun _ => .ite ((Act.Keeps.fail _).bind fun _ => .pure _) (.pure _)
  cases d.kind with
  | vault => exact tacit_inDepot (Depot.tacit_deleteVault _)
  | account => exact tacit_inDepot (Depot.tacit_deleteAccount _)

theorem tacit_search (query : Text) : (search query).Keeps Tacit := by
  refine .ite ((Act.Keeps.fail _).bind fun _ => ?_) ?_
  all_goals exact (keeps_vaultsWith _).bind fun _ => (keeps_accountsWith _).bind fun _ => by simp

theorem tacit_stats : stats.Keeps Tacit :=
  keeps_listVaultsIn.bind fun _ => keeps_listAccountsIn.bind fun _ => (Act.Keeps.settle _).bind fun _ =>
    (Act.Keeps.settle _).bind fun _ => (Act.Keeps.settle _).bind fun _ => .pure _

theorem tacit_answering {act : Act Failure Session Entry} (h : act.Keeps Tacit) :
    (answering act).Keeps Tacit := h.bind fun _ => .pure _

theorem tacit_required (manual : Manual) (name : Text) (l : Line) :
    (required manual name l).Keeps Tacit := .settle _

theorem tacit_executeVault (l : Line) (action : VaultAction) : (executeVault l action).Keeps Tacit := by
  cases action with
  | list => exact tacit_listVaults
  | create => exact (tacit_required _ _ l).bind fun _ => tacit_createVault _ _
  | update => exact (tacit_required _ _ l).bind fun _ => tacit_updateVault _ _ _
  | delete => exact (keeps_deletionOf l .vault).bind fun _ => tacit_askToDelete _
  | detail =>
    exact (tacit_required _ _ l).bind fun _ => (keeps_findVault _).bind fun _ =>
      (keeps_accountsIn _).bind fun _ => .pure _

theorem tacit_executeAccount (l : Line) (action : AccountAction) :
    (executeAccount l action).Keeps Tacit := by
  cases action with
  | list => exact tacit_answering (tacit_listAccounts _)
  | create =>
    refine tacit_answering ((tacit_required _ _ l).bind fun _ => (tacit_required _ _ l).bind fun _ => ?_)
    exact (tacit_required _ _ l).bind fun _ => (tacit_required _ _ l).bind fun _ =>
      tacit_createAccount _ _ _ _ _ _
  | update =>
    exact tacit_answering ((tacit_required _ _ l).bind fun _ => tacit_updateAccount _ _ _ _ _ _)
  | delete => exact tacit_answering ((keeps_deletionOf l .account).bind fun _ => tacit_askToDelete _)
  | detail =>
    exact tacit_answering ((tacit_required _ _ l).bind fun _ => (keeps_findAccount _).bind fun _ =>
      .pure _)
  | password =>
    refine Act.Keeps.bind ?_ fun _ => .pure _
    exact (tacit_required _ _ l).bind fun _ => keeps_requireClipboard.bind fun _ => keeps_findAccount _

/-- **A command reports nothing.** -/
theorem tacit_execute (l : Line) : (execute l).Keeps Tacit := by
  refine (Act.Keeps.settle _).bind fun verb => ?_
  cases verb with
  | help =>
    exact tacit_answering (.ite (.pure _) ((Act.Keeps.settle _).bind fun _ => .pure _))
  | clear => exact .pure _
  | exit => exact tacit_answering tacit_requestExit
  | openPage => exact tacit_answering (tacit_openPage _)
  | vault => exact (Act.Keeps.settle _).bind fun action => tacit_answering (tacit_executeVault l action)
  | account => exact (Act.Keeps.settle _).bind fun action => tacit_executeAccount l action
  | search => exact tacit_answering (tacit_search _)
  | stats => exact tacit_answering tacit_stats

/-! ## Parts outside -/

theorem tacit_note (call : Call) : (inWorld (·.note call)).Keeps Tacit := fun _ => rfl

theorem tacit_print (line : Text) : (inWorld (·.print line)).Keeps Tacit := fun _ => rfl

theorem tacit_touch (effect : Effect) : (touch effect).Keeps Tacit := by
  have hstop : (Act.change fun s => { s with running := false } : Act Failure Session Unit).Keeps Tacit :=
    fun _ => rfl
  cases effect with
  | navigate page =>
    refine (Act.Keeps.look _).bind fun navigator => ?_
    split
    · exact .pure _
    · refine (tacit_note _).bind fun _ => ?_
      exact Act.Keeps.bind (fun _ => rfl) fun _ => .pure _
    · refine Act.Keeps.bind ?_ fun _ => .pure _
      exact (keeps_pageSummary page).bind fun summary => (tacit_print summary).bind fun _ =>
        .ite hstop (.pure _)
  | exit =>
    refine (Act.Keeps.look _).bind fun exit => ?_
    split
    · exact .pure _
    · refine (tacit_note _).bind fun _ => ?_
      exact Act.Keeps.bind (fun _ => rfl) fun _ => .pure _
    · exact hstop.bind fun _ => .pure _

theorem tacit_copy (text : Text) : (copy text).Keeps Tacit := by
  refine (Act.Keeps.look _).bind fun clipboard => ?_
  split
  · exact .pure _
  · refine (tacit_note _).bind fun _ => ?_
    exact Act.Keeps.bind (fun _ => rfl) fun _ => .pure _

theorem tacit_enqueue (effect : Effect) : (enqueue effect).Keeps Tacit := by
  refine (Act.Keeps.look _).bind fun delay => (tacit_note _).bind fun _ => ?_
  exact fun _ => rfl

end Session

end VaultConsole
