import VaultConsole.Proofs.Store.Mutation

/-!
# How a change ends

A store with a data file is in step while the document that the file last received is that of
the records. A change of such a store ends in one of four ways: it is kept, in memory and in the
file; it is taken back since storage failed, and the store is in step again; it is taken back but
the clock shows no time for the log; or saving failed in another way, and then the change stays
in memory while the file is what it was, or is cut off before a text without an encoding.

* `Store.InStep`: the records and the data file go together.
* `Depot.Settled`, `Depot.settled_settle`: **the four ways in which a change ends.**
* `Mutation.ending_run`: what an operation does to a store that is in step.
-/

namespace VaultConsole

namespace World

/-- The run log and a data file are different files, before and after the directory of the data
file is made. -/
def LogApart (path : Path) (w : World) : Prop :=
  ∀ log, w.runLog = some log → ∀ disk, disk = w.disk ∨ disk = Depot.prepared path w.disk →
    ∀ place, disk.walk log.path = .ok place → disk.walk path ≠ .ok place

/-- An event may add to the run log, and changes nothing else on the disk. -/
theorem disk_record (e : Event) (w : World) :
    (w.record e).disk = w.disk ∨
      ∃ log bytes, w.runLog = some log ∧ w.disk.append bytes log.path = .ok (w.record e).disk := by
  unfold record writeRunLog
  simp only
  cases hlog : w.runLog with
  | none => exact .inl rfl
  | some log =>
    simp only
    split
    · exact .inl rfl
    · split
      · exact .inl rfl
      · next bytes _ =>
        cases ha : w.disk.append bytes log.path with
        | error problem => exact .inl rfl
        | ok disk => exact .inr ⟨log, bytes, rfl, ha⟩

/-- The disks that a failed save can leave: as it was, with the directory of the data file, or
with a part of the document in it. -/
def Reached (path : Path) (disk disk' : Disk) : Prop :=
  disk' = disk ∨ disk' = Depot.prepared path disk ∨
    ∃ bytes, (Depot.prepared path disk).write bytes path = .ok disk'

/-- An event leaves a data file alone that is not the run log. -/
theorem bytes?_record {path : Path} {w : World} {disk : Disk} (h : w.LogApart path)
    (hdisk : Reached path w.disk disk) (e : Event) :
    (record e { w with disk }).disk.bytes? path = disk.bytes? path := by
  rcases disk_record e { w with disk } with hr | ⟨log, bytes, hlog, ha⟩
  · rw [hr]
  · refine Disk.bytes?_append ha ?_
    rcases hdisk with hd | hd | ⟨written, hd⟩
    · exact h log hlog disk (.inl hd)
    · exact h log hlog disk (.inr hd)
    · intro place hw
      have happart := h log hlog _ (.inr rfl) place ((Disk.walk_write hd _ _).1 hw)
      exact fun hp => happart ((Disk.walk_write hd _ _).1 hp)

end World

/-- A store with a data file whose document is that of the records. -/
def Store.InStep (path : Path) (s : Store) : Prop := s.keeping = .file path s.records.toJson

namespace Depot

theorem emit_eq {d : Depot} {moment : Timestamp} (hc : d.world.localNow = .ok moment)
    (severity : Severity) (name : Text) (fields : Table Text Json) :
    emit severity name fields d =
      (.ok (), { d with world := d.world.record { severity, name, moment, fields } }) := by
  unfold emit inWorld
  rw [Act.run_within, World.emit_eq hc]

theorem emit_of_noTime {d : Depot} {noTime : Failure} (hc : d.world.localNow = .error noTime)
    (severity : Severity) (name : Text) (fields : Table Text Json) :
    emit severity name fields d = (.error noTime, d) := by
  unfold emit inWorld World.emit
  rw [Act.run_within, hc]

/-- A depot that went back to records, with its accounts let go. -/
def restored (r : Records) (d : Depot) : Depot :=
  { d with store := { d.store.letGo fun _ => false with records := r } }

/-- The fields of the event of a change that was taken back. -/
def rollBackFields (path : Path) : Table Text Json := [("data_file", .text path.text)]

theorem rollBack_eq {d : Depot} (h : OnlySaveFails d.store.faults) (path : Path) (r : Records) :
    rollBack path r.toJson d =
      Act.after (fun _ => pure (.own ()))
        (emit .warning "store_rollback" (rollBackFields path) (d.restored r)) := by
  have hrestore : restore r.toJson d = (.ok (), d.restored r) := by
    unfold restore
    rw [Records.recordsUnder_vaults, Records.recordsUnder_accounts]
    rfl
  unfold rollBack
  rw [unlessFaulty_eq (h.1 _ (by decide)), Act.run_map, Act.run_bind, hrestore]
  rfl

/-- Settling a change of a store in memory is nothing. -/
theorem settle_memory {d : Depot} (h : OnlySaveFails d.store.faults)
    (hk : d.store.keeping = .memory) : settle d = (.ok (.own ()), d) := by
  unfold settle
  rw [unlessFaulty_eq (h.1 _ (by decide)), Act.run_map, Act.run_bind, Act.run_look, Act.after_ok, hk]
  rfl

/-- Settling a change of a store with a data file is saving, and going back if storage failed. -/
theorem settle_file {d : Depot} {path : Path} {r : Records} (h : OnlySaveFails d.store.faults)
    (hk : d.store.keeping = .file path r.toJson) :
    settle d =
      match save d with
      | (.ok _, d') => (.ok (.own ()), d')
      | (.error failure, d') =>
        if failure.kind = .storage then
          Act.after (fun _ => Act.fail failure) (rollBack path r.toJson d')
        else (.error failure, d') := by
  unfold settle
  rw [unlessFaulty_eq (h.1 _ (by decide)), Act.run_map, Act.run_bind, Act.run_look, Act.after_ok, hk]
  simp only [saveOrRollBack, Act.run_bind, Act.run_attempt, Act.after_ok]
  rcases save d with ⟨failure | answer, d'⟩
  · simp only
    by_cases hs : failure.kind = .storage
    · simp only [hs, if_true, Act.run_bind]
      rcases rollBack path r.toJson d' with ⟨_ | _, d''⟩ <;> rfl
    · simp only [hs, if_false]
      rfl
  · rfl

/-- Saving was in order, and ended because the disk was full. -/
def RanFull (path : Path) (d : Depot) (failure : Failure) : Prop :=
  Table.get? .save d.store.faults = none ∧ failure = .unwritableData path.text .full

/-- The data file ends before the document does. -/
def EndsEarly (path : Path) (document : Json) (disk : Disk) : Prop :=
  ∃ room, room < (bytesOf document).1.length ∧
    disk.bytes? path = some ((bytesOf document).1.take room)

/-- After a failure of storage the data file is what it was, unless the disk was full: then it
ends where the room ended. -/
def AfterStorageFailure (path : Path) (d : Depot) (disk : Disk) (failure : Failure) : Prop :=
  (¬ RanFull path d failure ∧ disk.bytes? path = d.world.disk.bytes? path) ∨
    (RanFull path d failure ∧ EndsEarly path d.store.records.toJson disk)

/-- How a change of a store with a data file ends that had other records before. -/
inductive Settled (path : Path) (before : Records) (d : Depot) :
    Except Failure (Answer Unit) → Depot → Prop
  /-- It is kept. -/
  | kept (disk : Disk) (all : (bytesOf d.store.records.toJson).2 = none)
      (bytes : disk.bytes? path = some (bytesOf d.store.records.toJson).1) :
      Settled path before d (.ok (.own ())) ((d.withDisk disk).saved path)
  /-- Storage failed, and it is taken back. -/
  | takenBack (failure : Failure) (storage : failure.kind = .storage) (disk : Disk) (event : Event)
      (reached : World.Reached path d.world.disk disk)
      (bytes : AfterStorageFailure path d disk failure) :
      Settled path before d (.error failure)
        { (d.withDisk disk).restored before with world := (d.withDisk disk).world.record event }
  /-- Storage failed, it is taken back, and the clock shows no time for the log. -/
  | unlogged (failure : Failure) (disk : Disk) (noTime : d.world.localNow = .error failure) :
      Settled path before d (.error failure) ((d.withDisk disk).restored before)
  /-- Saving failed in another way: it stays in memory alone. -/
  | left (failure : Failure) (other : failure.kind ≠ .storage)
      (saving : (save d).1 = .error failure) (disk : Disk)
      (bytes : disk.bytes? path = d.world.disk.bytes? path ∨
        ∃ problem, failure = .unencodable problem ∧
          (bytesOf d.store.records.toJson).2 = some problem ∧
          disk.bytes? path = some (bytesOf d.store.records.toJson).1) :
      Settled path before d (.error failure) (d.withDisk disk)

section
variable {path : Path} {before : Records} {d : Depot} (h : OnlySaveFails d.store.faults)
include h

/-- A change is taken back after a failure of storage, with an event for the log. -/
theorem settled_rollBack {failure : Failure} (storage : failure.kind = .storage) {disk : Disk}
    (reached : World.Reached path d.world.disk disk)
    (bytes : AfterStorageFailure path d disk failure)
    {result : Except Failure (Answer Unit)} {d' : Depot}
    (hr : Act.after (fun _ => Act.fail failure) (rollBack path before.toJson (d.withDisk disk)) =
      (result, d')) : Settled path before d result d' := by
  have h' : OnlySaveFails (d.withDisk disk).store.faults := h
  rw [rollBack_eq h'] at hr
  have hclock : ((d.withDisk disk).restored before).world.localNow = d.world.localNow := rfl
  cases hc : d.world.localNow with
  | ok moment =>
    rw [emit_eq (hclock.trans hc)] at hr
    cases hr
    exact .takenBack failure storage disk _ reached bytes
  | error noTime =>
    rw [emit_of_noTime (hclock.trans hc)] at hr
    cases hr
    exact .unlogged noTime disk hc

/-- **A change of a store with a data file ends in one of four ways.** -/
theorem settled_settle (hk : d.store.keeping = .file path before.toJson)
    {result : Except Failure (Answer Unit)} {d' : Depot} (hs : settle d = (result, d')) :
    Settled path before d result d' := by
  have hsave := save_eq hk (h.1 _ (by decide))
  rw [settle_file h hk] at hs
  cases hf : Table.get? .save d.store.faults with
  | some fault =>
    obtain ⟨failure, rfl⟩ := h.2 fault hf
    simp only [hf] at hsave
    simp only [hsave] at hs
    -- saving is made to fail, so the file is not touched
    by_cases storage : failure.kind = .storage
    · rw [if_pos storage] at hs
      have hbroken : ¬ RanFull path d failure := fun hfull => by
        have hin := hfull.1
        rw [hf] at hin
        cases hin
      exact settled_rollBack h storage (.inl (Eq.refl d.world.disk)) (.inl ⟨hbroken, rfl⟩) hs
    · rw [if_neg storage] at hs
      cases hs
      exact .left failure storage (by rw [hsave]) d.world.disk (.inl rfl)
  | none =>
    obtain ⟨outcome, disk, hw, hrewrite⟩ :=
      rewrite_writeDocument path d.store.records.toJson d
    simp only [hf, hw] at hsave
    cases hrewrite with
    | refused problem unopened same =>
      simp only [hsave] at hs
      -- only a full disk is reported as one, and then the file was opened
      have hopen : ¬ RanFull path d (writeFailure path problem) := by
        rintro ⟨-, hfull⟩
        cases problem with
        | full => exact unopened rfl
        | refused refusal p => cases hfull
        | zeroInPath => cases hfull
        | unencodable problem => cases hfull
      by_cases storage : (writeFailure path problem).kind = .storage
      · rw [if_pos storage] at hs
        exact settled_rollBack h storage (.inr (.inl rfl)) (.inl ⟨hopen, same⟩) hs
      · rw [if_neg storage] at hs
        cases hs
        exact .left _ storage (by rw [hsave]) _ (.inl same)
    | cut disk problem at_ bytes =>
      have storage : (Failure.unencodable problem).kind ≠ .storage := by simp [Failure.kind]
      simp only [hsave] at hs
      rw [if_neg storage] at hs
      cases hs
      exact .left _ storage (by rw [hsave]) disk (.inr ⟨problem, rfl, at_, bytes⟩)
    | full disk room short written =>
      have storage : (Failure.unwritableData path.text .full).kind = .storage := rfl
      simp only [hsave] at hs
      rw [if_pos storage] at hs
      exact settled_rollBack h storage (.inr (.inr ⟨_, written⟩))
        (.inr ⟨⟨hf, rfl⟩, room, short, Disk.bytes?_write written⟩) hs
    | whole disk all bytes =>
      simp only [hsave] at hs
      cases hs
      exact .kept disk all bytes

end

end Depot

namespace Mutation

variable (m : Mutation) (r : Records) (d : Depot)

@[simp] theorem staged_records : (m.staged r d).store.records = r := by cases m <;> rfl

@[simp] theorem staged_keeping : (m.staged r d).store.keeping = d.store.keeping := by
  cases m <;> rfl

@[simp] theorem staged_faults : (m.staged r d).store.faults = d.store.faults := by cases m <;> rfl

@[simp] theorem staged_disk : (m.staged r d).world.disk = d.world.disk := by cases m <;> rfl

@[simp] theorem staged_runLog : (m.staged r d).world.runLog = d.world.runLog := by cases m <;> rfl

@[simp] theorem staged_localNow : (m.staged r d).world.localNow = d.world.localNow := by
  cases m <;> rfl

/-- What an operation does to a store in step with its data file. -/
inductive Ending (path : Path) : Except Failure (Answer Outcome) → Depot → Prop
  | refused (failure : Failure) (plan : m.plan d.world d.store.records = .refused failure) :
      Ending path (.error failure) d
  | undated (failure : Failure) (r : Records)
      (plan : m.plan d.world d.store.records = .undated failure r) :
      Ending path (.error failure) (m.staged r d)
  | idle (outcome : Outcome) (plan : m.plan d.world d.store.records = .idle outcome) :
      Ending path (.ok (.own outcome)) d
  | settled (outcome : Outcome) (r : Records)
      (plan : m.plan d.world d.store.records = .change outcome r)
      (result : Except Failure (Answer Unit)) (d' : Depot)
      (settled : Depot.Settled path d.store.records (m.staged r d) result d') :
      Ending path (result.map fun _ => .own outcome) d'

variable {m d}

/-- **An operation on a store in step** is refused, has nothing to do, or settles a change. -/
theorem ending_run {path : Path} (h : OnlySaveFails d.store.faults) (hstep : d.store.InStep path)
    {result : Except Failure (Answer Outcome)} {d' : Depot} (hr : m.run d = (result, d')) :
    Ending m d path result d' := by
  rw [run_eq m h] at hr
  cases hp : m.plan d.world d.store.records with
  | refused failure =>
    rw [hp] at hr
    cases hr
    exact .refused failure hp
  | undated failure r =>
    rw [hp] at hr
    cases hr
    exact .undated failure r hp
  | idle outcome =>
    rw [hp] at hr
    cases hr
    exact .idle outcome hp
  | change outcome r =>
    rw [hp, carryOut, own, Depot.settling, Act.run_bind, Act.after_after] at hr
    rcases hs : Depot.settle (m.staged r d) with ⟨settled, d''⟩
    have hk : (m.staged r d).store.keeping = .file path d.store.records.toJson := by
      rw [staged_keeping, hstep]
    have hsettled := Depot.settled_settle (by rwa [staged_faults]) hk hs
    rw [hs] at hr
    cases settled with
    | ok answer =>
      cases hr
      exact .settled outcome r hp _ _ hsettled
    | error failure =>
      cases hr
      exact .settled outcome r hp _ _ hsettled

/-- With a clock that shows a time every change can be dated. -/
theorem plan_ne_undated {w : World} {now : Timestamp} (hc : w.now = .ok now) (r r' : Records)
    (failure : Failure) : m.plan w r ≠ .undated failure r' := by
  have hchanged : ∀ changed, Plan.ofChanged changed ≠ .undated failure r' := by
    intro changed
    cases changed <;> simp [Plan.ofChanged]
  cases m with
  | createVault draft => simp [plan, hc]
  | createAccount draft =>
    simp only [plan, hc]
    split <;> simp
  | updateVault id updates =>
    simp only [plan, planUpdate, hc]
    split
    · simp
    · exact hchanged _
  | updateAccount id updates =>
    simp only [plan, planUpdate, hc]
    split
    · simp
    · exact hchanged _
  | deleteVault id => exact hchanged _
  | deleteAccount id => exact hchanged _

end Mutation

/-- A clock that shows the local time shows the universal time. -/
theorem World.now_of_localNow {w : World} {moment : Timestamp} (h : w.localNow = .ok moment) :
    ∃ now, w.now = .ok now := by
  unfold localNow Clock.localNow Clock.wallNow at h
  unfold now
  cases hc : w.clock.now with
  | ok now => exact ⟨now, rfl⟩
  | error problem =>
    rw [hc] at h
    cases h

end VaultConsole
