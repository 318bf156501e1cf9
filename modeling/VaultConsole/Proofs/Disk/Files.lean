import VaultConsole.Disk.Basic

/-!
# What changes on a disk

A file is written only where no directory is, so the directories stay what they were and every
path leads where it led. Making directories adds to a disk and takes nothing away.

* `Disk.bytes?`: the bytes of a file, if it can be read.
* `Disk.bytes?_write`: a written file holds what was written.
* `Disk.bytes?_write_other`, `Disk.bytes?_append`: every other file holds what it held.
-/

namespace VaultConsole.Disk

/-- The bytes of a file, if it can be read. -/
def bytes? (disk : Disk) (path : Path) : Option (List UInt8) := (disk.read path).toOption

/-! ## Ways over a disk -/

/-- Every directory of the first disk is one of the second. -/
def KeepsDirectories (disk disk' : Disk) : Prop :=
  ∀ place, node? disk place = some .directory → node? disk' place = some .directory

theorem walkFrom_of_keeps {disk disk' : Disk} (h : KeepsDirectories disk disk') {start place : Place}
    {names : List Text} (hw : walkFrom disk start names = .ok place) :
    walkFrom disk' start names = .ok place := by
  induction names generalizing start with
  | nil => exact hw
  | cons name rest ih =>
    rw [walkFrom] at hw ⊢
    cases hn : node? disk start with
    | none => simp [hn] at hw
    | some node =>
      cases node with
      | file bytes => simp [hn] at hw
      | directory =>
        simp only [hn] at hw
        simp only [h start hn]
        split at hw
        · rw [if_pos ‹_›]
          exact ih hw
        · split at hw
          · cases hw
          · rw [if_neg ‹_›, if_neg ‹_›]
            exact ih hw

/-- A path leads where it led if no directory is taken away. -/
theorem walk_of_keeps {disk disk' : Disk} (h : KeepsDirectories disk disk') {path : Path}
    {place : Place} (hw : walk disk path = .ok place) : walk disk' path = .ok place := by
  unfold walk at hw ⊢
  split at hw
  · cases hw
  · split at hw
    · cases hw
    · rw [if_neg ‹_›]
      cases hf : walkFrom disk [] path.names with
      | error refusal => simp [hf] at hw
      | ok found =>
        simp only [hf] at hw
        simp only [walkFrom_of_keeps h hf]
        exact hw

theorem read_eq_ok_iff (disk : Disk) (path : Path) (bytes : List UInt8) :
    disk.read path = .ok bytes ↔
      ∃ place, walk disk path = .ok place ∧ node? disk place = some (.file bytes) := by
  unfold read
  cases hw : walk disk path with
  | error problem => simp [bind, Except.bind]
  | ok place =>
    simp only [bind, Except.bind]
    cases hn : node? disk place with
    | none => simp [hn]
    | some node => cases node <;> simp [hn]

theorem bytes?_eq_some_iff (disk : Disk) (path : Path) (bytes : List UInt8) :
    disk.bytes? path = some bytes ↔
      ∃ place, walk disk path = .ok place ∧ node? disk place = some (.file bytes) := by
  rw [← read_eq_ok_iff]
  unfold bytes?
  cases disk.read path <;> simp [Except.toOption]

/-! ## Files -/

theorem node?_put_self {place : Place} (h : place ≠ []) (node : Node) (disk : Disk) :
    node? (Table.put place node disk) place = some node := by
  rw [node?, if_neg h, Table.get?_put, if_pos rfl]

theorem node?_put_other {place other : Place} (h : other ≠ place) (node : Node) (disk : Disk) :
    node? (Table.put place node disk) other = node? disk other := by
  unfold node?
  rw [Table.get?_put, if_neg (Ne.symm h)]

section
variable {disk : Disk} {place : Place} (hd : node? disk place ≠ some .directory)
include hd

theorem ne_nil_of_not_directory : place ≠ [] := fun h => hd (by rw [h]; rfl)

/-- A file where no directory is leaves all directories. -/
theorem keeps_put_file (bytes : List UInt8) :
    KeepsDirectories disk (Table.put place (.file bytes) disk) := by
  intro other ho
  have hne : other ≠ place := fun h => hd (by rw [← h, ho])
  rw [node?_put_other hne, ho]

theorem keeps_of_put_file (bytes : List UInt8) :
    KeepsDirectories (Table.put place (.file bytes) disk) disk := by
  intro other ho
  have hne : other ≠ place := by
    intro h
    rw [h, node?_put_self (ne_nil_of_not_directory hd)] at ho
    cases ho
  rwa [node?_put_other hne] at ho

/-- A file that is written where no directory is holds what was written. -/
theorem bytes?_put_self (bytes : List UInt8) {path : Path} (hw : walk disk path = .ok place) :
    bytes? (Table.put place (.file bytes) disk) path = some bytes := by
  rw [bytes?_eq_some_iff]
  exact ⟨place, walk_of_keeps (keeps_put_file hd bytes) hw,
    node?_put_self (ne_nil_of_not_directory hd) _ _⟩

/-- **A file that is written where no directory is leaves every other file.** -/
theorem bytes?_put_other (bytes : List UInt8) {path : Path} (hw : walk disk path ≠ .ok place) :
    bytes? (Table.put place (.file bytes) disk) path = disk.bytes? path := by
  refine Option.ext fun old => ?_
  rw [bytes?_eq_some_iff, bytes?_eq_some_iff]
  constructor
  · rintro ⟨other, ho, hn⟩
    -- the way there is the same on both disks, so it ends at another place
    have ho' := walk_of_keeps (keeps_of_put_file hd bytes) ho
    have hne : other ≠ place := fun h => hw (by rw [← h, ho'])
    rw [node?_put_other hne] at hn
    exact ⟨other, ho', hn⟩
  · rintro ⟨other, ho, hn⟩
    have hne : other ≠ place := fun h => hw (by rw [← h, ho])
    refine ⟨other, walk_of_keeps (keeps_put_file hd bytes) ho, ?_⟩
    rw [node?_put_other hne, hn]

end

/-- What may be written is no directory. -/
theorem writable_eq_ok {disk : Disk} {path : Path} {place : Place}
    (h : disk.writable path = .ok place) :
    walk disk path = .ok place ∧ node? disk place ≠ some .directory := by
  unfold writable at h
  cases hw : walk disk path with
  | error problem => rw [hw] at h; cases h
  | ok found =>
    rw [hw] at h
    simp only [bind, Except.bind] at h
    cases hn : node? disk found with
    | none =>
      simp only [hn] at h
      split at h
      · cases h
        exact ⟨rfl, by rw [hn]; simp⟩
      · cases h
      · cases h
    | some node =>
      cases node with
      | directory => simp [hn] at h
      | file bytes =>
        simp only [hn] at h
        cases h
        exact ⟨rfl, by rw [hn]; simp⟩

theorem unaskable?_ne_full (path : Path) : unaskable? path ≠ some .full := by
  unfold unaskable?
  cases Name.problem? path.text with
  | some problem => simp
  | none =>
    simp only
    split <;> simp

theorem walk_ne_full (disk : Disk) (path : Path) : walk disk path ≠ .error .full := by
  have hask := unaskable?_ne_full path
  unfold walk
  cases hu : unaskable? path with
  | some problem =>
    intro h
    cases h
    exact hask hu
  | none =>
    simp only
    split
    · simp
    · split <;> simp

/-- A file that is not opened is not refused for want of room. -/
theorem write_ne_full (bytes : List UInt8) (disk : Disk) (path : Path) :
    disk.write bytes path ≠ .error .full := by
  have hwalk := walk_ne_full disk path
  unfold write writable
  cases hw : walk disk path with
  | error problem =>
    intro h
    rw [hw] at hwalk
    simp only [bind, Except.bind] at h
    cases h
    exact hwalk rfl
  | ok place =>
    simp only [bind, Except.bind]
    cases node? disk place with
    | none =>
      simp only
      cases node? disk place.dropLast with
      | none => simp
      | some node => cases node <;> simp
    | some node => cases node <;> simp

/-- A written file holds what was written. -/
theorem bytes?_write {bytes : List UInt8} {disk disk' : Disk} {path : Path}
    (h : disk.write bytes path = .ok disk') : disk'.bytes? path = some bytes := by
  unfold write at h
  cases hw : disk.writable path with
  | error problem => rw [hw] at h; cases h
  | ok place =>
    rw [hw] at h
    cases h
    obtain ⟨hwalk, hd⟩ := writable_eq_ok hw
    exact bytes?_put_self hd bytes hwalk

/-- Every path leads after a write where it led before. -/
theorem walk_write {bytes : List UInt8} {disk disk' : Disk} {path : Path}
    (h : disk.write bytes path = .ok disk') (other : Path) (place : Place) :
    walk disk' other = .ok place ↔ walk disk other = .ok place := by
  unfold write at h
  cases hw : disk.writable path with
  | error problem => rw [hw] at h; cases h
  | ok written =>
    rw [hw] at h
    cases h
    obtain ⟨-, hd⟩ := writable_eq_ok hw
    exact ⟨walk_of_keeps (keeps_of_put_file hd bytes), walk_of_keeps (keeps_put_file hd bytes)⟩

/-- **A file that is written leaves every file at another place.** -/
theorem bytes?_write_other {bytes : List UInt8} {disk disk' : Disk} {path other : Path}
    (h : disk.write bytes path = .ok disk')
    (hapart : ∀ place, walk disk path = .ok place → walk disk other ≠ .ok place) :
    disk'.bytes? other = disk.bytes? other := by
  unfold write at h
  cases hw : disk.writable path with
  | error problem =>
    rw [hw] at h
    cases h
  | ok place =>
    rw [hw] at h
    cases h
    obtain ⟨hwalk, hd⟩ := writable_eq_ok hw
    exact bytes?_put_other hd bytes (hapart place hwalk)

/-- What is written over a file leaves a file there, and leaves one wherever one was. -/
theorem exists_bytes?_write {bytes old : List UInt8} {disk disk' : Disk} {path other : Path}
    (h : disk.write bytes path = .ok disk') (hother : disk.bytes? other = some old) :
    ∃ new, disk'.bytes? other = some new := by
  obtain ⟨place, hw, hn⟩ := (bytes?_eq_some_iff ..).1 (bytes?_write h)
  by_cases hplace : walk disk other = .ok place
  · -- both paths lead to one place, where the new bytes are
    exact ⟨bytes, (bytes?_eq_some_iff ..).2 ⟨place, (walk_write h ..).2 hplace, hn⟩⟩
  · refine ⟨old, (bytes?_write_other h fun place' hpath ho => hplace ?_).trans hother⟩
    cases ((walk_write h ..).1 hw).symm.trans hpath
    exact ho

/-- Whether a file can be written does not depend on what is written. -/
theorem write_of_write {bytes bytes' : List UInt8} {disk disk' : Disk} {path : Path}
    (h : disk.write bytes path = .ok disk') : ∃ disk'', disk.write bytes' path = .ok disk'' := by
  unfold write at h ⊢
  cases hw : disk.writable path with
  | error problem =>
    rw [hw] at h
    cases h
  | ok place => exact ⟨_, rfl⟩

/-- A file that can be read can be written. -/
theorem write_of_bytes? {disk : Disk} {path : Path} {old : List UInt8}
    (h : disk.bytes? path = some old) (bytes : List UInt8) :
    ∃ disk', disk.write bytes path = .ok disk' := by
  obtain ⟨place, hw, hn⟩ := (bytes?_eq_some_iff disk path old).1 h
  refine ⟨Table.put place (.file bytes) disk, ?_⟩
  simp [write, writable, hw, hn, bind, Except.bind]

/-- What is added at the end of a file changes that file alone. -/
theorem bytes?_append {bytes : List UInt8} {disk disk' : Disk} {log path : Path}
    (h : disk.append bytes log = .ok disk')
    (hapart : ∀ place, walk disk log = .ok place → walk disk path ≠ .ok place) :
    disk'.bytes? path = disk.bytes? path := by
  unfold append at h
  cases hw : disk.writable log with
  | error problem => rw [hw] at h; cases h
  | ok place =>
    obtain ⟨hwalk, hd⟩ := writable_eq_ok hw
    have hne := hapart place hwalk
    simp only [hw, bind, Except.bind] at h
    split at h
    · cases h
      exact bytes?_put_other hd _ hne
    · cases h
      exact bytes?_put_other hd _ hne

end VaultConsole.Disk
