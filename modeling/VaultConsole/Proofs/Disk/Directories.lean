import VaultConsole.Proofs.Disk.Files

/-!
# Making directories

Directories are made where nothing is, so everything that is on the disk stays as it is. When a
directory cannot be made, it is not there in the end: whoever can be reached below it could be
reached before.

* `Disk.extends_makeDirectories`: nothing is taken away.
* `Disk.makeDirectories_of_isDirectory`: a directory that is there is not made.
* `Disk.isRefusal_of_makeLevels`: only the system can have a problem with it.
* `Disk.bytes?_of_makeDirectories_error`: a file that cannot be read before its directories could
  not be made, cannot be read after it.
-/

namespace VaultConsole

/-! ## The path of a directory -/

theorem Text.joinWith_append_singleton (sep : Text) (pieces : List Text) (last : Text) :
    Text.joinWith sep (pieces ++ [last]) =
      if pieces = [] then last else Text.joinWith sep pieces ++ (sep ++ last) := by
  induction pieces with
  | nil => rfl
  | cons piece rest ih =>
    cases rest with
    | nil => simp [Text.joinWith]
    | cons next more =>
      rw [if_neg (List.cons_ne_nil _ _)] at ih ⊢
      have hcons (piece next : Text) (more : List Text) :
          joinWith sep (piece :: next :: more) = piece ++ sep ++ joinWith sep (next :: more) := rfl
      rw [List.cons_append, List.cons_append, hcons, ← List.cons_append, ih, hcons]
      simp only [List.append_assoc]

/-- The text of a path begins with that of its directory, unless that is the place where a
relative path begins. -/
theorem Path.text_parent (path : Path) :
    path.parent.text = here ∨ ∃ tail, path.text = path.parent.text ++ tail := by
  rcases List.eq_nil_or_concat path.names with hn | ⟨init, last, hn⟩
  · right
    refine ⟨[], ?_⟩
    rw [List.append_nil, parent, hn]
    simp [text, hn]
  · by_cases hi : path.slashes = 0 ∧ init = []
    · left
      simp [text, parent, hn, hi]
    · right
      have hp : path.parent.text =
          List.replicate path.slashes slash ++ Text.joinWith [slash] init := by
        simp [text, parent, hn, hi]
      have ht : path.text =
          List.replicate path.slashes slash ++ Text.joinWith [slash] (init ++ [last]) := by
        simp [text, hn]
      rw [hp, ht, Text.joinWith_append_singleton]
      split
      · next h => exact ⟨last, by simp [h, Text.joinWith]⟩
      · exact ⟨[slash] ++ last, by simp⟩

namespace Disk

theorem Name.problemFrom?_eq_none_iff (place : Nat) (t : Text) :
    Name.problemFrom? place t = none ↔ ∀ c ∈ t, (c.isSurrogate && !Name.isByte c) = false := by
  induction t generalizing place with
  | nil => simp [Name.problemFrom?]
  | cons c rest ih =>
    unfold Name.problemFrom?
    rw [List.forall_mem_cons]
    by_cases hc : (c.isSurrogate && !Name.isByte c) = true
    · rw [if_pos hc, hc]
      simp
    · rw [if_neg hc, ih, Bool.not_eq_true] at *
      simp only [hc, true_and]

theorem unaskable?_eq_none_iff (path : Path) :
    unaskable? path = none ↔
      ∀ c ∈ path.text, (c.isSurrogate && !Name.isByte c) = false ∧ (c.val == 0) = false := by
  have hp := Name.problemFrom?_eq_none_iff 0 path.text
  unfold unaskable? Name.problem?
  cases h : Name.problemFrom? 0 path.text with
  | some problem =>
    rw [h] at hp
    simp only [reduceCtorEq, false_iff] at hp ⊢
    exact fun hall => hp fun c hc => (hall c hc).1
  | none =>
    simp only [h, true_iff] at hp ⊢
    by_cases hz : path.text.any (·.val == 0) = true
    · rw [if_pos hz]
      obtain ⟨c, hc, hv⟩ := List.any_eq_true.1 hz
      simp only [reduceCtorEq, false_iff]
      exact fun hall => by rw [(hall c hc).2] at hv; cases hv
    · rw [if_neg hz]
      simp only [true_iff]
      refine fun c hc => ⟨hp c hc, ?_⟩
      rw [Bool.not_eq_true, List.any_eq_false] at hz
      simpa using hz c hc

/-- The system can be asked about a directory if it can be asked about what is in it. -/
theorem unaskable?_parent {path : Path} (h : unaskable? path = none) :
    unaskable? path.parent = none := by
  rw [unaskable?_eq_none_iff] at h ⊢
  rcases path.text_parent with ht | ⟨tail, ht⟩
  · rw [ht]
    decide
  · exact fun c hc => h c (by rw [ht]; exact List.mem_append_left _ hc)

theorem length_ofText_parent {path : Path}
    (h : ¬ pathLimit < (Name.ofText path.text).length) :
    ¬ pathLimit < (Name.ofText path.parent.text).length := by
  rcases path.text_parent with ht | ⟨tail, ht⟩
  · rw [ht]
    decide
  · rw [ht, Name.ofText, List.flatMap_append, List.length_append] at h
    unfold Name.ofText
    omega

theorem walkFrom_append_singleton {disk : Disk} {start place : Place} {names : List Text}
    {last : Text} (h : walkFrom disk start (names ++ [last]) = .ok place) :
    ∃ directory, walkFrom disk start names = .ok directory ∧
      node? disk directory = some .directory := by
  induction names generalizing start with
  | nil =>
    refine ⟨start, rfl, ?_⟩
    rw [List.nil_append, walkFrom] at h
    cases hn : node? disk start with
    | none => simp [hn] at h
    | some node =>
      cases node with
      | file bytes => simp [hn] at h
      | directory => rfl
  | cons name rest ih =>
    rw [List.cons_append, walkFrom] at h
    rw [walkFrom]
    cases hn : node? disk start with
    | none => simp [hn] at h
    | some node =>
      cases node with
      | file bytes => simp [hn] at h
      | directory =>
        simp only [hn] at h ⊢
        split at h
        · rw [if_pos ‹_›]
          exact ih h
        · split at h
          · cases h
          · rw [if_neg ‹_›, if_neg ‹_›]
            exact ih h

/-- **What can be reached is in a directory.** -/
theorem isDirectory_parent {disk : Disk} {path : Path} {place : Place}
    (h : walk disk path = .ok place) (hn : path.names ≠ []) :
    isDirectory disk path.parent = true := by
  obtain ⟨names, last, hlast⟩ := (List.eq_nil_or_concat path.names).resolve_left hn
  unfold walk at h
  split at h
  · cases h
  · next hask =>
    split at h
    · cases h
    · next hlen =>
      cases hw : walkFrom disk [] path.names with
      | error refusal => simp [hw] at h
      | ok found =>
        rw [hlast, List.concat_eq_append] at hw
        obtain ⟨directory, hd, hnode⟩ := walkFrom_append_singleton hw
        have hparent : path.parent.names = names := by simp [Path.parent, hlast]
        unfold isDirectory walk
        simp only [unaskable?_parent hask, if_neg (length_ofText_parent hlen), hparent, hd, hnode]
        rfl

/-- What has no names leads to the root. -/
theorem eq_nil_of_walk {disk : Disk} {path : Path} {place : Place} (h : walk disk path = .ok place)
    (hnames : path.names = []) : place = [] := by
  unfold walk at h
  split at h
  · cases h
  · split at h
    · cases h
    · rw [hnames] at h
      cases h
      rfl

/-- A file is in a directory. -/
theorem isDirectory_of_bytes? {disk : Disk} {path : Path} {bytes : List UInt8}
    (h : disk.bytes? path = some bytes) : isDirectory disk path.parent = true := by
  obtain ⟨place, hw, hn⟩ := (bytes?_eq_some_iff disk path bytes).1 h
  refine isDirectory_parent hw fun hnames => ?_
  cases eq_nil_of_walk hw hnames
  cases hn

/-- A file is written into a directory. -/
theorem isDirectory_of_write {disk disk' : Disk} {path : Path} {bytes : List UInt8}
    (h : disk.write bytes path = .ok disk') : isDirectory disk path.parent = true := by
  obtain ⟨place, hw, hn⟩ := (bytes?_eq_some_iff ..).1 (bytes?_write h)
  refine isDirectory_parent ((walk_write h ..).1 hw) fun hnames => ?_
  cases eq_nil_of_walk hw hnames
  cases hn

/-! ## What is added to a disk -/

/-- Everything that is on the first disk is on the second. -/
def Extends (disk disk' : Disk) : Prop :=
  ∀ place node, node? disk place = some node → node? disk' place = some node

theorem Extends.refl (disk : Disk) : Extends disk disk := fun _ _ h => h

theorem Extends.trans {a b c : Disk} (hab : Extends a b) (hbc : Extends b c) : Extends a c :=
  fun place node h => hbc place node (hab place node h)

theorem Extends.bytes? {disk disk' : Disk} (h : Extends disk disk') {path : Path}
    {bytes : List UInt8} (hb : disk.bytes? path = some bytes) : disk'.bytes? path = some bytes := by
  rw [bytes?_eq_some_iff] at hb ⊢
  obtain ⟨place, hw, hn⟩ := hb
  exact ⟨place, walk_of_keeps (fun p hp => h p _ hp) hw, h place _ hn⟩

/-- What comes to a place where nothing was takes nothing away. -/
theorem extends_put {disk : Disk} {place : Place} (h : node? disk place = none) (new : Node) :
    Extends disk (Table.put place new disk) := by
  intro other node ho
  have hne : other ≠ place := fun he => by rw [he, h] at ho; cases ho
  rw [node?_put_other hne, ho]

theorem extends_makeDirectory {disk disk' : Disk} {path : Path}
    (h : makeDirectory disk path = .ok disk') : Extends disk disk' := by
  unfold makeDirectory at h
  cases hw : walk disk path with
  | error problem => rw [hw] at h; cases h
  | ok place =>
    rw [hw] at h
    simp only [bind, Except.bind] at h
    cases hn : node? disk place with
    | some node => simp [hn] at h
    | none =>
      simp only [hn] at h
      cases h
      exact extends_put hn .directory

theorem extends_makeOwnDirectory {disk disk' : Disk} {path : Path}
    (h : makeOwnDirectory disk path = .ok disk') : Extends disk disk' := by
  unfold makeOwnDirectory at h
  split at h
  · cases h
    exact extends_makeDirectory ‹_›
  · split at h
    · cases h
      exact Extends.refl disk
    · cases h
  · cases h

/-- A directory that cannot be made is not there. -/
theorem isDirectory_of_makeOwnDirectory_error {disk : Disk} {path : Path} {problem : Problem}
    (h : makeOwnDirectory disk path = .error problem) : isDirectory disk path = false := by
  cases hw : walk disk path with
  | error problem => simp [isDirectory, hw]
  | ok place =>
    unfold makeOwnDirectory at h
    cases hn : node? disk place with
    | none =>
      have hm : makeDirectory disk path = .ok (Table.put place .directory disk) := by
        simp only [makeDirectory, hw, bind, Except.bind, hn]
      rw [hm] at h
      cases h
    | some node =>
      have hm : makeDirectory disk path = .error (.refused .alreadyThere path.text) := by
        simp only [makeDirectory, hw, bind, Except.bind, hn]
      rw [hm] at h
      cases hd : isDirectory disk path with
      | false => rfl
      | true => simp [hd] at h

/-- A directory is made, or it is not there in the end; nothing is taken away. -/
theorem makeLevels_spec (levels : Nat) (disk : Disk) (path : Path) :
    Extends disk (makeLevels levels disk path).2 ∧
      ∀ problem, (makeLevels levels disk path).1 = .error problem →
        isDirectory (makeLevels levels disk path).2 path = false := by
  -- one level less is left for the parent, and what holds there passes on to the path
  induction levels generalizing path with
  | zero =>
    unfold makeLevels
    cases hm : makeOwnDirectory disk path with
    | ok disk' => exact ⟨extends_makeOwnDirectory hm, fun _ h => by cases h⟩
    | error problem =>
      exact ⟨Extends.refl disk, fun _ _ => isDirectory_of_makeOwnDirectory_error hm⟩
  | succ levels ih =>
    obtain ⟨hext, hnone⟩ := ih path.parent
    unfold makeLevels
    split
    · next disk' hm => exact ⟨extends_makeOwnDirectory hm, fun _ h => by cases h⟩
    · next p hm =>
      by_cases hempty : path.names.isEmpty = true
      · rw [if_pos hempty]
        exact ⟨Extends.refl disk, fun _ _ => isDirectory_of_makeOwnDirectory_error hm⟩
      · rw [if_neg hempty]
        cases hp : makeLevels levels disk path.parent with
        | mk result disk' =>
          rw [hp] at hext hnone
          cases result with
          | error problem =>
            -- what is reached stands in a directory, and the parent is none
            refine ⟨hext, fun _ _ => ?_⟩
            have hparent := hnone problem rfl
            cases hw : walk disk' path with
            | error problem => simp [isDirectory, hw]
            | ok place =>
              rw [isDirectory_parent hw (by simpa using hempty)] at hparent
              cases hparent
          | ok _ =>
            simp only
            cases hown : makeOwnDirectory disk' path with
            | ok disk'' =>
              exact ⟨hext.trans (extends_makeOwnDirectory hown), fun _ h => by cases h⟩
            | error problem =>
              exact ⟨hext, fun _ _ => isDirectory_of_makeOwnDirectory_error hown⟩
    · next problem _ hm =>
      exact ⟨Extends.refl disk, fun _ _ => isDirectory_of_makeOwnDirectory_error hm⟩

/-- A directory that was made is there. -/
theorem isDirectory_of_makeOwnDirectory {disk disk' : Disk} {path : Path}
    (h : makeOwnDirectory disk path = .ok disk') : isDirectory disk' path = true := by
  unfold makeOwnDirectory at h
  split at h
  · next disk₁ hm =>
    cases h
    have hext := extends_makeDirectory hm
    unfold makeDirectory at hm
    cases hw : walk disk path with
    | error problem =>
      rw [hw] at hm
      cases hm
    | ok place =>
      simp only [hw, bind, Except.bind] at hm
      split at hm
      · cases hm
      · next hn =>
        cases hm
        have hne : place ≠ [] := fun hp => by
          rw [hp] at hn
          cases hn
        unfold isDirectory
        rw [walk_of_keeps (fun p hp => hext p _ hp) hw]
        simp only [node?_put_self hne, beq_self_eq_true]
  · split at h
    · next hthere =>
      cases h
      exact (Bool.and_eq_true_iff.1 hthere).2
    · cases h
  · cases h

theorem isDirectory_of_makeLevels {levels : Nat} {disk : Disk} {path : Path}
    (h : (makeLevels levels disk path).1 = .ok ()) :
    isDirectory (makeLevels levels disk path).2 path = true := by
  cases levels with
  | zero =>
    unfold makeLevels at h ⊢
    cases hm : makeOwnDirectory disk path with
    | ok disk' => exact isDirectory_of_makeOwnDirectory hm
    | error problem =>
      rw [hm] at h
      cases h
  | succ levels =>
    unfold makeLevels at h ⊢
    split at h
    · next disk' hm => exact isDirectory_of_makeOwnDirectory hm
    · next p hm =>
      split at h
      · cases h
      · rw [if_neg ‹_›]
        split at h
        · cases h
        · split at h
          · next hown => exact isDirectory_of_makeOwnDirectory hown
          · cases h
    · cases h

theorem makeOwnDirectory_ne_full (disk : Disk) (path : Path) :
    makeOwnDirectory disk path ≠ .error .full := by
  have hwalk := walk_ne_full disk path
  unfold makeOwnDirectory makeDirectory
  cases hw : walk disk path with
  | error problem =>
    rw [hw] at hwalk
    simp only [bind, Except.bind]
    cases problem with
    | full => exact absurd rfl hwalk
    | refused refusal p =>
      simp only
      split <;> simp
    | zeroInPath => simp
    | unencodable problem => simp
  | ok place =>
    simp only [bind, Except.bind]
    cases node? disk place with
    | none => simp
    | some node =>
      simp only
      split <;> simp

theorem makeLevels_ne_full (levels : Nat) (disk : Disk) (path : Path) :
    (makeLevels levels disk path).1 ≠ .error .full := by
  induction levels generalizing path with
  | zero =>
    unfold makeLevels
    cases hm : makeOwnDirectory disk path with
    | ok disk' => simp
    | error problem => exact fun h => makeOwnDirectory_ne_full disk path (hm.trans (by cases h; rfl))
  | succ levels ih =>
    unfold makeLevels
    split
    · simp
    · by_cases hempty : path.names.isEmpty = true
      · simp [hempty]
      · rw [if_neg hempty]
        have hparent := ih path.parent
        rcases hp : makeLevels levels disk path.parent with ⟨problem | _, disk'⟩
        · exact fun h => hparent (by rw [hp]; exact h)
        · simp only
          cases hown : makeOwnDirectory disk' path with
          | ok disk'' => simp
          | error problem =>
            exact fun h => makeOwnDirectory_ne_full disk' path (hown.trans (by cases h; rfl))
    · next problem _ hm =>
      exact fun h => makeOwnDirectory_ne_full disk path (hm.trans (by cases h; rfl))

section
variable {disk : Disk} {path : Path}

end

/-- A directory that is there is not made. -/
theorem makeDirectories_of_isDirectory {disk : Disk} {path : Path} (h : isDirectory disk path = true) :
    makeDirectories disk path = (.ok (), disk) := by
  have hown : makeOwnDirectory disk path = .ok disk := by
    have hthere := h
    unfold isDirectory at hthere
    split at hthere
    · cases hthere
    · next place hw =>
      rw [beq_iff_eq] at hthere
      have hmake : makeDirectory disk path = .error (.refused .alreadyThere path.text) := by
        simp only [makeDirectory, hw, bind, Except.bind, hthere]
      simp [makeOwnDirectory, hmake, h]
  unfold makeDirectories
  cases path.names.length <;> simp only [makeLevels, hown]

theorem extends_makeDirectories (disk : Disk) (path : Path) :
    Extends disk (makeDirectories disk path).2 :=
  (makeLevels_spec path.names.length disk path).1

/-- **When the directory of a file cannot be made, the file is readable after that exactly if it
was before**, with the same bytes. -/
theorem bytes?_of_makeDirectories_error {disk : Disk} {path : Path} {problem : Problem}
    (h : (makeDirectories disk path.parent).1 = .error problem) :
    bytes? (makeDirectories disk path.parent).2 path = disk.bytes? path := by
  cases hb : disk.bytes? path with
  | some bytes => exact (extends_makeDirectories disk path.parent).bytes? hb
  | none =>
    have hnone := (makeLevels_spec path.parent.names.length disk path.parent).2 problem h
    -- a file that were there afterwards would stand in the directory that could not be made
    cases ha : bytes? (makeDirectories disk path.parent).2 path with
    | none => rfl
    | some bytes => exact absurd (isDirectory_of_bytes? ha) (by rw [makeDirectories, hnone]; decide)

/-- No file is written into a directory that cannot be made. -/
theorem write_ne_ok_of_makeDirectories {disk : Disk} {path : Path} {problem : Problem}
    (h : (makeDirectories disk path.parent).1 = .error problem) (bytes : List UInt8) (disk' : Disk) :
    (makeDirectories disk path.parent).2.write bytes path ≠ .ok disk' := by
  intro hwrite
  have hnone := (makeLevels_spec path.parent.names.length disk path.parent).2 problem h
  cases (isDirectory_of_write hwrite).symm.trans hnone

end Disk

end VaultConsole
