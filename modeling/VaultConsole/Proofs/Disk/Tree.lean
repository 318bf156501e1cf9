import Mathlib.Data.List.Induction
import VaultConsole.Proofs.Disk.Directories

/-!
# Trees

On a disk that is a tree everything is in a directory. Making directories there uncovers nothing: where no
file was before, none is after it, and a file that was there keeps its bytes.

* `Disk.IsTree`: everything is in a directory.
* `Disk.SameFiles`, `Disk.sameFiles_makeDirectories`: making directories leaves the files.
* `Disk.bytes?_of_makeDirectories`: **making directories leaves every file of a tree as it was**, also
  those that are not there.
* `Disk.bytes?_of_made`: a file that is made where nothing was replaces no other one.
-/

namespace VaultConsole.Disk

variable {disk disk' disk'' : Disk} {path : Path} {place : Place}

/-- Everything is in a directory. -/
def IsTree (disk : Disk) : Prop := ∀ entry ∈ disk, node? disk entry.1.dropLast = some .directory

instance (disk : Disk) : Decidable disk.IsTree :=
  inferInstanceAs (Decidable (∀ entry ∈ disk, node? disk entry.1.dropLast = some .directory))

/-- What is above anything in a tree is a directory. -/
theorem IsTree.isDirectory_above (h : disk.IsTree) {name : Name} {below : Place} {node : Node}
    (hn : node? disk (place ++ name :: below) = some node) : node? disk place = some .directory := by
  -- on what is below, from its end: the directory of a place is one name shorter
  induction below using List.reverseRecOn generalizing node with
  | nil =>
    rw [node?, if_neg (by simp)] at hn
    have hparent := h _ (Table.mem_of_get? hn)
    rwa [List.dropLast_concat] at hparent
  | append_singleton below last ih =>
    rw [← List.cons_append, ← List.append_assoc, node?, if_neg (by simp)] at hn
    have hparent := h _ (Table.mem_of_get? hn)
    rw [List.dropLast_concat] at hparent
    exact ih hparent

/-! ## Ways in a tree -/

/-- Without `..` a way leads down name by name. -/
theorem eq_append_of_walkFrom {start : Place} {names : List Text} (hnames : Path.above ∉ names)
    (h : walkFrom disk start names = .ok place) : place = start ++ names.map Name.ofText := by
  induction names generalizing start with
  | nil =>
    cases h
    exact (List.append_nil _).symm
  | cons name rest ih =>
    rw [List.mem_cons, not_or] at hnames
    rw [walkFrom] at h
    split at h
    · cases h
    · cases h
    · rw [if_neg (Ne.symm hnames.1)] at h
      simp only at h
      split at h
      · cases h
      · rw [ih hnames.2 h, List.append_assoc]
        rfl

/-- What is in a tree is found there, if it is found on another disk at the same place. -/
theorem IsTree.walkFrom (htree : disk.IsTree) {start : Place} {names : List Text} {node : Node}
    (hnames : Path.above ∉ names) (h : Disk.walkFrom disk' start names = .ok place)
    (hn : node? disk place = some node) : Disk.walkFrom disk start names = .ok place := by
  induction names generalizing start with
  | nil => exact h
  | cons name rest ih =>
    have hplace := eq_append_of_walkFrom hnames h
    rw [List.mem_cons, not_or] at hnames
    have hstart : node? disk start = some .directory := by
      rw [hplace] at hn
      exact htree.isDirectory_above hn
    rw [Disk.walkFrom] at h ⊢
    simp only [hstart]
    split at h
    · cases h
    · cases h
    · rw [if_neg (Ne.symm hnames.1)] at h ⊢
      simp only at h ⊢
      split at h
      · cases h
      · rw [if_neg ‹_›]
        exact ih hnames.2 h

theorem IsTree.walk (htree : disk.IsTree) {node : Node} (hnames : Path.above ∉ path.names)
    (h : Disk.walk disk' path = .ok place) (hn : node? disk place = some node) :
    Disk.walk disk path = .ok place := by
  unfold Disk.walk at h ⊢
  split at h
  · cases h
  · split at h
    · cases h
    · rw [if_neg ‹_›]
      cases hw : Disk.walkFrom disk' [] path.names with
      | error refusal =>
        rw [hw] at h
        cases h
      | ok found =>
        rw [hw] at h
        cases h
        rw [htree.walkFrom hnames hw hn]

/-! ## Making directories -/

/-- Every file of the second disk is one of the first, with the same bytes. -/
def AddsNoFile (disk disk' : Disk) : Prop :=
  ∀ place bytes, node? disk' place = some (.file bytes) → node? disk place = some (.file bytes)

theorem AddsNoFile.refl (disk : Disk) : AddsNoFile disk disk := fun _ _ h => h

theorem AddsNoFile.trans (h : AddsNoFile disk disk') (h' : AddsNoFile disk' disk'') :
    AddsNoFile disk disk'' := fun place bytes hn => h place bytes (h' place bytes hn)

theorem addsNoFile_makeDirectory (h : makeDirectory disk path = .ok disk') : AddsNoFile disk disk' := by
  unfold makeDirectory at h
  cases hw : walk disk path with
  | error problem =>
    rw [hw] at h
    cases h
  | ok made =>
    rw [hw] at h
    simp only [bind, Except.bind] at h
    split at h
    · cases h
    · cases h
      intro place bytes hn
      by_cases hplace : place = made
      · -- what was made is a directory
        rw [hplace, node?, Table.get?_put, if_pos rfl] at hn
        split at hn <;> cases hn
      · rwa [node?_put_other hplace] at hn

theorem addsNoFile_makeOwnDirectory (h : makeOwnDirectory disk path = .ok disk') :
    AddsNoFile disk disk' := by
  unfold makeOwnDirectory at h
  split at h
  · cases h
    exact addsNoFile_makeDirectory ‹_›
  · split at h
    · cases h
      exact AddsNoFile.refl disk
    · cases h
  · cases h

theorem addsNoFile_makeLevels (levels : Nat) (disk : Disk) (path : Path) :
    AddsNoFile disk (makeLevels levels disk path).2 := by
  induction levels generalizing path with
  | zero =>
    unfold makeLevels
    split
    · exact addsNoFile_makeOwnDirectory ‹_›
    · exact AddsNoFile.refl disk
  | succ levels ih =>
    have habove := ih path.parent
    unfold makeLevels
    split
    · exact addsNoFile_makeOwnDirectory ‹_›
    · split
      · exact AddsNoFile.refl disk
      · split
        · next hparent => rwa [hparent] at habove
        · next hparent =>
          rw [hparent] at habove
          split
          · exact habove.trans (addsNoFile_makeOwnDirectory ‹_›)
          · exact habove
    · exact AddsNoFile.refl disk

/-- Both disks have the same files, with the same bytes, whatever their directories are. -/
def SameFiles (disk disk' : Disk) : Prop :=
  ∀ place bytes, node? disk' place = some (.file bytes) ↔ node? disk place = some (.file bytes)

theorem SameFiles.refl (disk : Disk) : SameFiles disk disk := fun _ _ => Iff.rfl

theorem sameFiles_makeDirectories (disk : Disk) (directory : Path) :
    SameFiles disk (disk.makeDirectories directory).2 := fun place bytes =>
  ⟨addsNoFile_makeLevels directory.names.length disk directory place bytes,
    extends_makeDirectories disk directory place (.file bytes)⟩

/-- On a tree a file is found at a path that it is found at on another disk with the same files. -/
theorem SameFiles.bytes? (h : SameFiles disk disk') (htree : disk.IsTree)
    (hnames : Path.above ∉ path.names) {bytes : List UInt8} (hbytes : disk'.bytes? path = some bytes) :
    disk.bytes? path = some bytes := by
  obtain ⟨place, hw, hn⟩ := (bytes?_eq_some_iff ..).1 hbytes
  have hbefore := (h place bytes).1 hn
  exact (bytes?_eq_some_iff ..).2 ⟨place, htree.walk hnames hw hbefore, hbefore⟩

/-- **Making directories leaves every file of a tree as it was**, also those that are not there. -/
theorem bytes?_of_makeDirectories (htree : disk.IsTree) (hnames : Path.above ∉ path.names)
    (directory : Path) : (disk.makeDirectories directory).2.bytes? path = disk.bytes? path := by
  exact Option.ext fun bytes => ⟨(sameFiles_makeDirectories disk directory).bytes? htree hnames,
    (extends_makeDirectories disk directory).bytes?⟩

/-- What leads to a file leads there when another file is made, with its directories. -/
theorem walk_of_made {bytes : List UInt8} {directory other : Path}
    (h : (disk.makeDirectories directory).2.write bytes path = .ok disk')
    (hw : walk disk other = .ok place) : walk disk' other = .ok place :=
  (walk_write h ..).2 (walk_of_keeps (fun _ hp => extends_makeDirectories disk directory _ _ hp) hw)

/-- **A file that is made where nothing was, with its directories, replaces no file of a tree.** -/
theorem bytes?_of_made (htree : disk.IsTree) (hnames : Path.above ∉ path.names)
    (habsent : disk.holds path = .ok false) {bytes old : List UInt8} {directory other : Path}
    (h : (disk.makeDirectories directory).2.write bytes path = .ok disk')
    (hother : disk.bytes? other = some old) : disk'.bytes? other = some old := by
  obtain ⟨place, hw, hn⟩ := (bytes?_eq_some_iff ..).1 hother
  have hmade := (extends_makeDirectories disk directory).bytes? hother
  refine (bytes?_write_other h fun place' hpath ho => ?_).trans hmade
  -- the place of the other file is not that of the new one, where nothing was
  cases ((walk_write h ..).2 ho).symm.trans (walk_of_made h hw)
  unfold holds at habsent
  rw [htree.walk hnames hpath hn] at habsent
  simp only [hn] at habsent
  cases habsent

end VaultConsole.Disk
