import VaultConsole.Proofs.Store.Saving

/-!
# What a change does

The six operations that change a store go one way: a plan is made from the records and the world
alone, and if it changes the records these are put in place and the change is settled. Settling
does nothing for a store in memory; for one with a data file it saves, and goes back if the
system refused that.

* `Mutation`, `Mutation.run`: the operations as data.
* `Mutation.plan`: what an operation is going to do.
* `Mutation.run_eq`: **an operation carries out its plan and settles it.**
* `Depot.settle_file`: what settling does to a store with a data file.
-/

namespace VaultConsole

/-- An operation that may change a store. -/
inductive Mutation
  | createVault (draft : VaultDraft)
  | createAccount (draft : AccountDraft)
  | updateVault (id : Text) (updates : Table Text Text)
  | updateAccount (id : Text) (updates : Table Text Text)
  | deleteVault (id : Text)
  | deleteAccount (id : Text)

/-- What an operation answers: the record that was made, or whether there was a record. -/
inductive Outcome
  | vault (vault : Vault)
  | account (account : Account)
  | found (isThere : Bool)
  deriving DecidableEq

/-- What an operation is going to do. -/
inductive Plan
  /-- It fails before anything changes. -/
  | refused (failure : Failure)
  /-- It changes the records and fails then, since no time can be given to the change. -/
  | undated (failure : Failure) (records : Records)
  /-- There is nothing to change. -/
  | idle (outcome : Outcome)
  /-- It changes the records. -/
  | change (outcome : Outcome) (records : Records)

/-- The plan of an operation on a record that may be missing. -/
def Plan.ofChanged : Option Records → Plan
  | none => .idle (.found false)
  | some records => .change (.found true) records

/-- An own answer by another name. -/
def Answer.map {α β : Type} (f : α → β) : Answer α → Answer β
  | .own value => .own (f value)
  | .foreign value => .foreign value

namespace Mutation

/-- Does an operation. -/
def run : Mutation → Act Failure Depot (Answer Outcome)
  | createVault draft => Answer.map .vault <$> Depot.createVault draft
  | createAccount draft => Answer.map .account <$> Depot.createAccount draft
  | updateVault id updates => Answer.map .found <$> Depot.updateVault id updates
  | updateAccount id updates => Answer.map .found <$> Depot.updateAccount id updates
  | deleteVault id => Answer.map .found <$> Depot.deleteVault id
  | deleteAccount id => Answer.map .found <$> Depot.deleteAccount id

/-- The plan of an update of fields: `dated` changes them at a time, `undated` without one. -/
def planUpdate {φ : Type} (w : World) (fields : Except Failure (List (φ × Text)))
    (dated : List (φ × Text) → Timestamp → Option Records)
    (undated : List (φ × Text) → Option Records) : Plan :=
  match fields with
  | .error failure => .refused failure
  | .ok fields =>
    match w.now with
    | .ok now => .ofChanged (dated fields now)
    | .error failure =>
      match undated fields with
      | none => .idle (.found false)
      | some records => .undated failure records

/-- What an operation is going to do with records in a world. -/
def plan (w : World) (r : Records) : Mutation → Plan
  | createVault draft =>
    match w.now with
    | .error failure => .refused failure
    | .ok now =>
      .change (.vault (draft.record w.freshId now)) (r.addVault (draft.record w.freshId now))
  | createAccount draft =>
    if r.hasVault draft.vaultId then
      match w.now with
      | .error failure => .refused failure
      | .ok now =>
        .change (.account (draft.record w.freshId now)) (r.addAccount (draft.record w.freshId now))
    else .refused (.unknownVaultId draft.vaultId)
  | updateVault id updates =>
    planUpdate w (Records.fieldsOf VaultField.ofKey? updates) (r.updateVault id · ·)
      (r.changeVault id <| Vault.writeAll ·)
  | updateAccount id updates =>
    planUpdate w (Records.fieldsOf AccountField.ofKey? updates) (r.updateAccount id · ·)
      (r.changeAccount id <| Account.writeAll ·)
  | deleteVault id => .ofChanged (r.deleteVault id)
  | deleteAccount id => .ofChanged (r.deleteAccount id)

/-- A depot with changed records, before they are settled. Making a record uses up an identifier,
and accounts that are taken away are let go. -/
def staged (r : Records) (d : Depot) : Mutation → Depot
  | createVault _ | createAccount _ =>
    { world := d.world.issue, store := { d.store with records := r } }
  | updateVault .. | updateAccount .. => { d with store := { d.store with records := r } }
  | deleteVault id => { d with store := { d.store.letGo (·.vaultId != id) with records := r } }
  | deleteAccount id => { d with store := { d.store.letGo (·.id != id) with records := r } }

end Mutation

/-- Of all operations only saving may be out of order, by failing. -/
def OnlySaveFails (faults : Table Operation Fault) : Prop :=
  (∀ operation, operation ≠ .save → Table.get? operation faults = none) ∧
    ∀ fault, Table.get? .save faults = some fault → ∃ failure, fault = .fails failure

namespace Store

variable {operation : Operation} {s : Store}

/-- A listing in order has the records of the store. -/
theorem listed_of_none (h : Table.get? operation s.faults = none) : s.listed operation = s.records := by
  unfold listed
  rw [h]

/-- Unless it stands for something else, an event says an identifier as it is. -/
theorem labelOf_of_none (h : Table.get? .identify s.faults = none) (id : Text) :
    s.labelOf id = .ok (.text id) := by
  unfold labelOf
  rw [h]

end Store

namespace Depot

variable {α : Type}

/-- An operation fails as it is made to, gives a value that was put in the place of its own, or answers
for itself. -/
theorem unlessFaulty_cases (operation : Operation) (act : Act Failure Depot α) (d : Depot) :
    (∃ failure, Table.get? operation d.store.faults = some (.fails failure) ∧
      unlessFaulty operation act d = (.error failure, d)) ∨
    (∃ value, unlessFaulty operation act d = (.ok (.foreign value), d)) ∨
      unlessFaulty operation act d = (Answer.own <$> act : Act Failure Depot (Answer α)) d := by
  unfold unlessFaulty
  rw [Act.run_bind, Act.run_look, Act.after_ok]
  cases hfault : Table.get? operation d.store.faults with
  | none => exact .inr (.inr rfl)
  | some fault =>
    cases fault with
    | fails failure => exact .inl ⟨failure, rfl, rfl⟩
    | answers value => exact .inr (.inl ⟨value, rfl⟩)
    | lists records => exact .inr (.inr rfl)
    | labels values => exact .inr (.inr rfl)

/-- An operation in order answers for itself. -/
theorem unlessFaulty_eq {operation : Operation} {d : Depot}
    (h : Table.get? operation d.store.faults = none) (act : Act Failure Depot α) :
    unlessFaulty operation act d = (Answer.own <$> act : Act Failure Depot (Answer α)) d := by
  unfold unlessFaulty
  simp only [Act.run_bind, Act.run_look, h, Act.after_ok]
  rw [Act.run_map]

/-- A depot with other records. -/
def withRecords (r : Records) (d : Depot) : Depot := { d with store := { d.store with records := r } }

/-- Settles a change and answers then. -/
def settling (answer : α) : Act Failure Depot α := do
  let _ ← settle
  return answer

theorem stamp_bind (next : Text × Timestamp → Act Failure Depot α) (d : Depot) :
    (stamp >>= next) d =
      match d.world.now with
      | .ok now => next (d.world.freshId, now) { d with world := d.world.issue }
      | .error failure => (.error failure, d) := by
  unfold stamp
  simp only [Act.run_bind, Act.run_look, Act.run_settle, Act.after_ok]
  cases d.world.now <;> rfl

theorem replace_eq (changed : Option Records) (d : Depot) :
    replace changed d =
      match changed with
      | none => (.ok false, d)
      | some r => settling true (d.withRecords r) := by
  cases changed <;> rfl

theorem remove_eq (stays : Account → Bool) (changed : Option Records) (d : Depot) :
    remove stays changed d =
      match changed with
      | none => (.ok false, d)
      | some r => settling true { d with store := { d.store.letGo stays with records := r } } := by
  cases changed <;> rfl

theorem leaveUndated_eq (failure : Failure) (changed : Option Records) (d : Depot) :
    leaveUndated failure changed d =
      match changed with
      | none => (.ok false, d)
      | some r => (.error failure, d.withRecords r) := by
  cases changed <;> rfl

end Depot

namespace Mutation

/-- An operation according to its plan. -/
def carryOut (m : Mutation) (d : Depot) : Plan → Except Failure Outcome × Depot
  | .refused failure => (.error failure, d)
  | .undated failure r => (.error failure, m.staged r d)
  | .idle outcome => (.ok outcome, d)
  | .change outcome r => Depot.settling outcome (m.staged r d)

/-- The answer of an operation that is in order. -/
def own (r : Except Failure Outcome × Depot) : Except Failure (Answer Outcome) × Depot :=
  Act.after (fun outcome => pure (.own outcome)) r

theorem map_unlessFaulty {α : Type} {operation : Operation} {d : Depot}
    (h : Table.get? operation d.store.faults = none) (name : α → Outcome)
    (act : Act Failure Depot α) :
    (Answer.map name <$> Depot.unlessFaulty operation act : Act Failure Depot (Answer Outcome)) d =
      own (Act.after (fun a => pure (name a)) (act d)) := by
  rw [own, Act.run_map, Depot.unlessFaulty_eq h, Act.run_map, Act.after_after, Act.after_after]
  rcases act d with ⟨_ | _, d'⟩ <;> rfl

theorem after_settling {α : Type} (name : α → Outcome) (answer : α) (d : Depot) :
    Act.after (fun a => pure (name a)) (Depot.settling answer d) =
      Depot.settling (name answer) d := by
  unfold Depot.settling
  rw [Act.run_bind, Act.run_bind, Act.after_after]
  rfl

/-- A planned removal or replacement, as it is carried out. -/
theorem after_changed (m : Mutation) {d : Depot} (changed : Option Records) :
    Act.after (fun isThere => pure (Outcome.found isThere))
        (match changed with
          | none => (.ok false, d)
          | some r => Depot.settling true (m.staged r d)) =
      m.carryOut d (Plan.ofChanged changed) := by
  cases changed with
  | none => rfl
  | some r => exact after_settling .found true (m.staged r d)

/-- An update, as it is carried out: the time is asked for when the fields are known. -/
theorem after_update {φ : Type} (m : Mutation) {d : Depot}
    (fields : Except Failure (List (φ × Text)))
    (dated : Records → List (φ × Text) → Timestamp → Option Records)
    (undated : Records → List (φ × Text) → Option Records)
    (hstaged : ∀ r, m.staged r d = d.withRecords r) :
    Act.after (fun isThere => pure (Outcome.found isThere))
        ((do
          let fields ← Act.settle fields
          let d ← Act.state
          match d.world.now with
          | .ok now => Depot.replace (dated d.store.records fields now)
          | .error failure => Depot.leaveUndated failure (undated d.store.records fields) :
            Act Failure Depot Bool) d) =
      m.carryOut d (planUpdate d.world fields (dated d.store.records) (undated d.store.records)) := by
  simp only [Act.run_bind, Act.run_settle, planUpdate]
  cases fields with
  | error failure => rfl
  | ok fields =>
    simp only [Act.after_ok, Act.run_bind, Act.run_state]
    cases d.world.now with
    | ok now =>
      simp only
      cases dated d.store.records fields now with
      | none => rfl
      | some r =>
        rw [Depot.replace_eq, Plan.ofChanged, carryOut, hstaged]
        exact after_settling .found true (d.withRecords r)
    | error failure =>
      simp only
      cases undated d.store.records fields with
      | none => rfl
      | some r =>
        rw [Depot.leaveUndated_eq]
        simp only [carryOut, hstaged, Act.after_error]

/-- **An operation carries out its plan and settles it**, if all that is out of order is saving. -/
theorem run_eq (m : Mutation) {d : Depot} (h : OnlySaveFails d.store.faults) :
    m.run d = own (m.carryOut d (m.plan d.world d.store.records)) := by
  -- the operations differ in what they do before they settle: that is their plan
  cases m with
  | createVault draft =>
    rw [run, Depot.createVault, map_unlessFaulty (h.1 _ (by decide)), Depot.stamp_bind, plan]
    cases d.world.now with
    | error failure => rfl
    | ok now => exact congrArg own (after_settling .vault _ _)
  | createAccount draft =>
    rw [run, Depot.createAccount, map_unlessFaulty (h.1 _ (by decide)), plan]
    simp only [Act.run_bind, Act.run_look, Act.after_ok]
    by_cases hv : d.store.records.hasVault draft.vaultId = true
    · simp only [hv, Bool.not_true, Bool.false_eq_true, if_false, if_true]
      rw [Depot.stamp_bind]
      cases d.world.now with
      | error failure => rfl
      | ok now => exact congrArg own (after_settling .account _ _)
    · simp only [Bool.not_eq_true] at hv
      simp only [hv, Bool.not_false, Bool.false_eq_true, if_false, if_true]
      rfl
  | updateVault id updates =>
    rw [run, Depot.updateVault, map_unlessFaulty (h.1 _ (by decide)), plan]
    exact congrArg own (after_update (updateVault id updates) _ (·.updateVault id · ·)
      (·.changeVault id <| Vault.writeAll ·) fun _ => rfl)
  | updateAccount id updates =>
    rw [run, Depot.updateAccount, map_unlessFaulty (h.1 _ (by decide)), plan]
    exact congrArg own (after_update (updateAccount id updates) _ (·.updateAccount id · ·)
      (·.changeAccount id <| Account.writeAll ·) fun _ => rfl)
  | deleteVault id =>
    rw [run, Depot.deleteVault, map_unlessFaulty (h.1 _ (by decide)), Act.run_bind, plan]
    simp only [Act.run_look, Act.after_ok, Depot.remove_eq]
    exact congrArg own (after_changed (deleteVault id) _)
  | deleteAccount id =>
    rw [run, Depot.deleteAccount, map_unlessFaulty (h.1 _ (by decide)), Act.run_bind, plan]
    simp only [Act.run_look, Act.after_ok, Depot.remove_eq]
    exact congrArg own (after_changed (deleteAccount id) _)

end Mutation

end VaultConsole
