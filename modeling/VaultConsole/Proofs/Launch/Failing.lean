import VaultConsole.Proofs.Launch.Creation

/-!
# Making a profile that fails

A profile is made in steps: its file is written, and then its data file is loaded and written anew. A step
that fails does not take back the ones before it. So a run that fails leaves the files as they were only
where the file of the profile cannot be opened. Otherwise the profile is there in the end, whole or not,
and it stands in the way of every other attempt at its path, also when the cause is gone.

* `Profile.Opens`: the file of a new profile can be opened.
* `Launch.Left`, `Launch.left_of_createFiles`: the disks that files which cannot be made leave.
* `Launch.Failed`, `Launch.failed_of_run`: **a run that is to make a profile and gives one.**
-/

namespace VaultConsole

namespace Profile

variable {s : Surroundings} {spelling name : Text} {w w' : World} {file other : Path}

/-- The file of a new profile can be opened: nothing is at its path, and when the directories that are
missing were made, as far as they can be, a file can be made there. -/
structure Opens (s : Surroundings) (spelling : Text) (w : World) (file : Path) : Prop where
  place : s.mapPath spelling none = .ok file.text
  canonical : file.IsCanonical
  absent : w.disk.holds file = .ok false
  opened : ∃ disk, (w.disk.makeDirectories file.parent).2.write [] file = .ok disk

theorem Created.opens (h : Created s spelling name w w' file) : Opens s spelling w file :=
  ⟨h.place, h.canonical, h.absent, Disk.write_of_write h.written⟩

namespace Opens

variable (h : Opens s spelling w other)
include h

/-- There is one path at which a profile is made. -/
theorem eq_of_mapPath (hplace : s.mapPath spelling none = .ok file.text) (hcanonical : file.IsCanonical) :
    other = file := by
  rw [← Path.parse_text h.canonical, ← Path.parse_text hcanonical, Except.ok.inj (h.place.symm.trans hplace)]

theorem bytes?_eq_none : w.disk.bytes? other = none := by
  cases hbytes : w.disk.bytes? other with
  | none => rfl
  | some bytes => cases h.absent.symm.trans (World.holds_eq_ok_iff.1 (World.holds_of_bytes? hbytes))

end Opens

end Profile

namespace Launch

open Profile (Opens usual nameFor dataName)

variable {o : Occasion} {s : Surroundings} {spelling : Text} {username : Option Text} {w w' : World}
variable {file path : Path} {failure : Failure} {disk : Disk} {l : Launch}

/-! ## What is left on the disk -/

/-- The disks that are left when the files of a profile cannot be made. -/
inductive Left (s : Surroundings) (spelling : Text) (w : World) (failure : Failure) : Disk → Prop
  /-- The profile was not opened. -/
  | unopened (disk : Disk) (closed : ∀ file, ¬ Opens s spelling w file) (added : w.disk.Extends disk)
      (same : w.disk.SameFiles disk) : Left s spelling w failure disk
  /-- The profile was opened, and no other file after it. -/
  | opened (file : Path) (bytes : List UInt8) (disk : Disk) (opens : Opens s spelling w file)
      (written : (w.disk.makeDirectories file.parent).2.write bytes file = .ok disk) :
      Left s spelling w failure disk
  /-- The profile was opened, and after it the data file, which was not written whole. -/
  | spoilt (file : Path) (bytes document : List UInt8) (disk disk' : Disk) (opens : Opens s spelling w file)
      (written : (w.disk.makeDirectories file.parent).2.write bytes file = .ok disk)
      (cut : disk.write document (file.beside dataName) = .ok disk')
      (crowded : w.room = none → failure.kind = .encoding) : Left s spelling w failure disk'

section
variable (hplace : s.mapPath spelling none = .ok file.text) (hcanonical : file.IsCanonical)
include hplace hcanonical

/-- Where the profile cannot be opened, its directories may have been made. -/
theorem left_makeDirectories
    (hclosed : ∀ bytes disk, (w.disk.makeDirectories file.parent).2.write bytes file ≠ .ok disk) :
    Left s spelling w failure (w.disk.makeDirectories file.parent).2 := by
  refine .unopened _ (fun other hopens => ?_) (Disk.extends_makeDirectories _ _)
    (Disk.sameFiles_makeDirectories _ _)
  cases hopens.eq_of_mapPath hplace hcanonical
  obtain ⟨disk, hwrite⟩ := hopens.opened
  exact hclosed [] disk hwrite

/-- What is left when a profile cannot be made where nothing is. -/
theorem left_of_createAt (huser : s.user ≠ []) (habsent : w.disk.holds file = .ok false)
    (h : Profile.createAt s file (nameFor s username) w = (.error failure, w')) :
    Left s spelling w failure w'.disk := by
  unfold Profile.createAt at h
  simp only [Act.run_bind, Act.run_rename, World.makeDirectories] at h
  cases hmade : (w.disk.makeDirectories file.parent).1 with
  | error problem =>
    rw [hmade] at h
    cases h
    exact left_makeDirectories hplace hcanonical (Disk.write_ne_ok_of_makeDirectories hmade)
  | ok _ =>
    simp only [hmade, Except.mapError, Act.after_ok, Act.run_bind, Act.run_rename] at h
    rcases hwrite : World.writeDocument file (.object (Profile.usualMembers (nameFor s username)))
      { w with disk := (w.disk.makeDirectories file.parent).2 } with ⟨problem | _, w₁⟩
    · rw [hwrite] at h
      cases h
      cases Depot.stopped_of_writeDocument hwrite with
      | unopened closed => exact left_makeDirectories hplace hcanonical closed
      | spoilt bytes disk written _ =>
        exact .opened file bytes disk ⟨hplace, hcanonical, habsent, Disk.write_of_write written⟩ written
    · -- what was written whole makes a profile
      rw [hwrite] at h
      simp only [Act.after_ok, Act.run_settle] at h
      rw [Profile.ofMembers_usualMembers hcanonical (Profile.unaskable?_of_mapPath hplace hcanonical)
        (Profile.nameFor_ne_nil huser username)] at h
      cases h

end

/-- What is left when the profile cannot be made. -/
theorem left_of_create (hprogram : s.program.IsCanonical) (huser : s.user ≠ [])
    (h : Profile.create s spelling username w = (.error failure, w')) :
    Left s spelling w failure w'.disk := by
  have hsame : (∀ file, ¬ Opens s spelling w file) → Left s spelling w failure w.disk := fun hclosed =>
    .unopened w.disk hclosed (Disk.Extends.refl _) (Disk.SameFiles.refl _)
  cases hplace : s.mapPath spelling none with
  | error problem =>
    unfold Profile.create at h
    simp only [Act.run_bind, Act.run_settle, hplace] at h
    cases h
    exact hsame fun file hopens => nomatch hplace.symm.trans hopens.place
  | ok t =>
    obtain ⟨file, hcanonical, rfl⟩ := Surroundings.exists_path_of_mapPath hprogram hplace
    rw [Profile.create_eq hplace hcanonical] at h
    -- where something is, or the system cannot tell, nothing is opened
    have hclosed : w.holds file ≠ .ok false → ∀ other, ¬ Opens s spelling w other := by
      intro hthere other hopens
      cases hopens.eq_of_mapPath hplace hcanonical
      exact hthere (World.holds_eq_ok_iff.2 hopens.absent)
    cases hholds : w.holds file with
    | error problem =>
      rw [hholds] at h hclosed
      cases h
      exact hsame (hclosed nofun)
    | ok isThere =>
      cases isThere with
      | true =>
        rw [hholds] at h hclosed
        cases h
        exact hsame (hclosed nofun)
      | false =>
        rw [hholds] at h
        exact left_of_createAt hplace hcanonical huser (World.holds_eq_ok_iff.1 hholds) h

/-- **What is left when the files of a profile cannot be made**, without a run log. -/
theorem left_of_createFiles (hlog : w.runLog = none) (hprogram : o.surroundings.program.IsCanonical)
    (huser : o.surroundings.user ≠ []) (h : createFiles o spelling username w = (.error failure, w')) :
    Left o.surroundings spelling w failure w'.disk := by
  unfold createFiles at h
  rw [Act.run_bind] at h
  rcases hcreate : Profile.create o.surroundings spelling username w with ⟨problem | p, w₁⟩ <;>
    rw [hcreate] at h
  · cases h
    exact left_of_create hprogram huser hcreate
  · obtain ⟨file, hcreated, rfl⟩ := Profile.created_of_create hprogram huser hcreate
    -- from here on the profile is on the disk, and nothing that fails takes it away
    have hopened : Left o.surroundings spelling w failure w₁.disk :=
      .opened file _ _ hcreated.opens hcreated.written
    have hlog₁ : w₁.runLog = none := by
      rw [hcreated.rest]
      exact hlog
    have hroom : w₁.room = w.room := by rw [hcreated.rest]
    have hdirectory := Disk.isDirectory_of_bytes? hcreated.profile
    rw [← Path.parent_beside file dataName] at hdirectory
    rw [Act.after_ok, Act.run_bind, parse_dataPath hcreated.canonical] at h
    rcases hload : Store.load (file.beside dataName) w₁ with ⟨problem | store, w₂⟩ <;> rw [hload] at h
    · obtain ⟨events, rfl⟩ := Store.rest_of_load hload hlog₁ hdirectory
      cases h
      exact hopened
    · obtain ⟨events, rfl⟩ := Store.rest_of_load hload hlog₁ hdirectory
      obtain ⟨r, -, rfl⟩ := Store.keptAt_of_load hload
      rw [Act.after_ok, Act.run_bind, Act.run_within] at h
      rcases hsave : Depot.save ⟨{ w₁ with events }, Store.inFile (file.beside dataName) r⟩ with
        ⟨problem | _, d⟩ <;> rw [hsave] at h <;> cases h
      rcases Depot.disk_of_save_error rfl rfl hdirectory hsave with hsame | ⟨document, hcut, hcrowded⟩
      · simp only [hsame]
        exact hopened
      · exact .spoilt file _ document _ _ hcreated.opens hcreated.written hcut
          fun hnone => hcrowded (hroom.trans hnone)

namespace Left

variable (h : Left s spelling w failure disk)
include h

theorem same (hclosed : ∀ file, ¬ Opens s spelling w file) : w.disk.SameFiles disk := by
  cases h with
  | unopened disk closed added same => exact same
  | opened file bytes disk opens written => exact absurd opens (hclosed file)
  | spoilt file bytes document disk disk' opens written cut crowded => exact absurd opens (hclosed file)

/-- A profile that was opened is there. -/
theorem exists_bytes? (hopens : Opens s spelling w file) : ∃ bytes, disk.bytes? file = some bytes := by
  cases h with
  | unopened disk closed added same => exact absurd hopens (closed file)
  | opened other bytes disk opens written =>
    cases opens.eq_of_mapPath hopens.place hopens.canonical
    exact ⟨bytes, Disk.bytes?_write written⟩
  | spoilt other bytes document disk disk' opens written cut crowded =>
    cases opens.eq_of_mapPath hopens.place hopens.canonical
    exact Disk.exists_bytes?_write cut (Disk.bytes?_write written)

/-- Every file of a tree keeps its bytes, but perhaps the data file of a profile that was opened on a disk
that is nearly full. -/
theorem bytes? (htree : w.disk.IsTree) (hkind : failure.kind ≠ .encoding) {bytes : List UInt8}
    (hbytes : w.disk.bytes? path = some bytes)
    (happart : w.room = none ∨ ∀ file, Opens s spelling w file → ∀ place, w.disk.walk path = .ok place →
      w.disk.walk (file.beside dataName) ≠ .ok place) : disk.bytes? path = some bytes := by
  cases h with
  | unopened disk closed added same => exact added.bytes? hbytes
  | opened file new disk opens written =>
    exact Disk.bytes?_of_made htree opens.canonical.above_not_mem opens.absent written hbytes
  | spoilt file new document disk disk' opens written cut crowded =>
    have hmade := Disk.bytes?_of_made htree opens.canonical.above_not_mem opens.absent written hbytes
    have habove := (Path.isCanonical_beside opens.canonical Profile.isPlain_dataName).above_not_mem
    obtain ⟨place, hw, hn⟩ := (Disk.bytes?_eq_some_iff ..).1 hbytes
    -- a data file at the place of the other file was there before the profile was made
    refine (Disk.bytes?_write_other cut fun place' hdata hpath => ?_).trans hmade
    cases hpath.symm.trans (Disk.walk_of_made written hw)
    rcases happart with hroom | happart
    · exact hkind (crowded hroom)
    · exact happart file opens place hw (htree.walk habove hdata hn)

end Left

/-! ## Runs -/

/-- What comes of a run that was to make a profile and gave one, from a world to another one. -/
structure Failed (s : Surroundings) (spelling : Text) (w w' : World) : Prop where
  /-- The files are as they were just if the profile cannot be opened. -/
  same_iff : w.disk.SameFiles w'.disk ↔ ∀ file, ¬ Opens s spelling w file
  /-- Otherwise the profile is there, which was not there before. -/
  left : ∀ file, Opens s spelling w file →
    w.disk.bytes? file = none ∧ ∃ bytes, w'.disk.bytes? file = some bytes
  /-- Every file keeps its bytes, but the data file on a disk that is nearly full. -/
  kept : ∀ path bytes, w.disk.bytes? path = some bytes →
    (w.room = none ∨ ∀ file, Opens s spelling w file → ∀ place, w.disk.walk path = .ok place →
      w.disk.walk (file.beside dataName) ≠ .ok place) → w'.disk.bytes? path = some bytes
  /-- As long as the profile is there, whatever else is mended, no run makes one at this path. -/
  again : ∀ file, Opens s spelling w file →
    ∀ (o : Occasion) (v : World) (words : List Text) (spelling' : Text) (username' : Option Text),
      o.surroundings = s → v.disk.bytes? file = w'.disk.bytes? file →
      s.mapPath spelling' none = .ok file.text →
      Request.read words = .ok (.create (some spelling') username') →
      ∃ l, run o words (start v) = (.ok 1, l) ∧ l.world.disk = v.disk

/-- A run that gives one could not make the files, and nothing on the disk changed after that. -/
theorem failure_of_create (h : create o spelling username (start w) = (.ok 1, l)) :
    ∃ failure w', createFiles o spelling username w = (.error failure, w') ∧
      l.world.disk = w'.disk ∧ failure.kind ≠ .encoding := by
  unfold create at h
  rw [Act.run_bind, Act.run_attempt, inWorld, Act.run_within] at h
  rcases hfiles : createFiles o spelling username w with ⟨failure | p, w'⟩
  · simp only [start, hfiles, Act.after_ok] at h
    split at h
    · next hmends =>
      simp only [giveUp, Act.run_bind, print, Act.run_change, Act.after_ok, Act.run_pure] at h
      obtain ⟨-, rfl⟩ := Prod.mk.inj h
      refine ⟨failure, w', rfl, disk_print .., fun hkind => ?_⟩
      rw [hkind] at hmends
      cases hmends
    · cases h
  · simp only [start, hfiles, Act.after_ok, Act.run_bind, print, Act.run_change, Act.run_pure] at h
    cases (Prod.mk.inj h).1

/-- **A run that is to make a profile and gives one** leaves the files as they were just if the file of the
profile cannot be opened. Otherwise it leaves a profile that was not there before, and no other run makes
one at this path as long as that is there. -/
theorem failed_of_run {words : List Text} (hlog : w.runLog = none) (htree : w.disk.IsTree)
    (hprogram : o.surroundings.program.IsCanonical) (huser : o.surroundings.user ≠ [])
    (hread : Request.read words = .ok (.create (some spelling) username))
    (h : run o words (start w) = (.ok 1, l)) : Failed o.surroundings spelling w l.world := by
  rw [run_of_read hread] at h
  obtain ⟨failure, w', hfiles, hdisk, hkind⟩ := failure_of_create h
  have hleft := left_of_createFiles hlog hprogram huser hfiles
  rw [← hdisk] at hleft
  refine {
    same_iff := ⟨fun hsame file hopens => ?_, hleft.same⟩
    left := fun file hopens => ⟨hopens.bytes?_eq_none, hleft.exists_bytes? hopens⟩
    kept := fun path bytes hbytes happart => hleft.bytes? htree hkind hbytes happart
    again := fun file hopens o' v words' spelling' username' hs hsame hplace hread' => ?_ }
  · obtain ⟨bytes, hbytes⟩ := hleft.exists_bytes? hopens
    cases hopens.bytes?_eq_none.symm.trans (hsame.bytes? htree hopens.canonical.above_not_mem hbytes)
  · obtain ⟨bytes, hbytes⟩ := hleft.exists_bytes? hopens
    rw [run_of_read hread']
    exact create_of_bytes? (hs ▸ hplace) hopens.canonical (hsame.trans hbytes) username'

/-- A disk with a directory that has a data file whose document is no object. -/
def spoiltHome : Disk :=
  [([Disk.Name.ofText "home"], .directory),
    ([Disk.Name.ofText "home", Disk.Name.ofText "vault.json"], .file (Depot.bytesOf (.array [])).1)]

@[inherit_doc spoiltHome] def spoiltWorld : World := World.fresh 0 spoiltHome

/-- The profile that is asked for there. -/
def spoiltFile : Path := ⟨1, ["home", "p.json"]⟩

@[inherit_doc spoiltFile] def spoiltWords : List Text := Request.creating "/home/p.json" (some "ann")

theorem failed_spoiltWorld :
    ∃ l, run sampleOccasion spoiltWords (start spoiltWorld) = (.ok 1, l) ∧
      Failed Profile.sampleSurroundings "/home/p.json" spoiltWorld l.world ∧
      spoiltWorld.disk.bytes? spoiltFile = none ∧ ∃ bytes, l.world.disk.bytes? spoiltFile = some bytes := by
  have hcode : (run sampleOccasion spoiltWords (start spoiltWorld)).1 = .ok 1 := by decide +kernel
  have hrun : run sampleOccasion spoiltWords (start spoiltWorld) =
      (.ok 1, (run sampleOccasion spoiltWords (start spoiltWorld)).2) := by
    rw [← hcode, Prod.mk.eta]
  have hread : Request.read spoiltWords = .ok (.create (some "/home/p.json") (some "ann")) := by
    decide +kernel
  have hopens : Opens Profile.sampleSurroundings "/home/p.json" spoiltWorld spoiltFile := {
    place := by decide +kernel
    canonical := by
      unfold Path.IsCanonical Path.IsPlain
      decide
    absent := by decide +kernel
    opened := ⟨_, rfl⟩ }
  have hfailed := failed_of_run rfl (by decide +kernel) isCanonical_sampleProgram (by decide) hread hrun
  exact ⟨_, hrun, hfailed, hfailed.left spoiltFile hopens⟩

/-- **Not every run that gives one leaves no new profile.** -/
theorem exists_failed_with_profile : ¬ ∀ (o : Occasion) (w : World) (spelling : Text)
    (username : Option Text) (file : Path) (l : Launch), w.runLog = none → w.disk.IsTree →
      o.surroundings.mapPath spelling none = .ok file.text →
      run o (Request.creating spelling username) (start w) = (.ok 1, l) →
      w.disk.bytes? file = none → l.world.disk.bytes? file = none := by
  intro hall
  have hcode : (run sampleOccasion spoiltWords (start spoiltWorld)).1 = .ok 1 := by decide +kernel
  have hleft : (run sampleOccasion spoiltWords (start spoiltWorld)).2.world.disk.bytes? spoiltFile ≠ none := by
    decide +kernel
  have hrun : run sampleOccasion spoiltWords (start spoiltWorld) =
      (.ok 1, (run sampleOccasion spoiltWords (start spoiltWorld)).2) := by
    rw [← hcode, Prod.mk.eta]
  exact hleft (hall sampleOccasion spoiltWorld "/home/p.json" (some "ann") spoiltFile _ rfl
    (by decide +kernel) (by decide +kernel) hrun (by decide +kernel))

end Launch

end VaultConsole
