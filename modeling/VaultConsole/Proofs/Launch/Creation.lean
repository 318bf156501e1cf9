import VaultConsole.Launch
import VaultConsole.Proofs.Launch.Words
import VaultConsole.Proofs.Profile.Usual

/-!
# Making a profile and its data

A profile is made with a data file beside it. A data file that is there already is loaded and written anew,
so the records that it has stay. Both files can be read back, and where they are no profile is made again.

* `Launch.Founded`: what is on a disk where a profile was made.
* `Launch.founded_of_createFiles`: a profile that is made is founded.
* `Launch.Founded.load`, `Launch.Founded.store`, `Launch.Founded.again`: what comes after that.
* `Launch.Initialised`, `Launch.initialised_of_run`: **a run that makes a profile and gives zero.**
-/

namespace VaultConsole

namespace Profile

/-- The path of the data file of a profile. -/
def dataFile (p : Profile) : Path := Path.parse p.dataPath

variable {name : Text} {w : World} {path : Path}

/-- A new profile is no document of records. -/
theorem not_readRecords_of_usualBytes (hwritten : IsWritten name)
    (hbytes : w.disk.bytes? path = some (usualBytes name)) (r : Records) :
    Store.readRecords path w ≠ .ok r := by
  intro h
  have hrecords : ∃ failure, Records.ofJson (.object (usualMembers name)) = .error failure := ⟨_, rfl⟩
  obtain ⟨failure, hrecords⟩ := hrecords
  unfold Store.readRecords at h
  rw [readText_of_usualBytes hwritten hbytes] at h
  simp only [parse_usualMembers, hrecords] at h
  cases h

/-- Records are not kept where a new profile is. -/
theorem apart_of_keptAt {file : Path} {r : Records} (hwritten : IsWritten name)
    (hprofile : w.disk.bytes? file = some (usualBytes name)) (hkept : Store.KeptAt path w r)
    (place : Disk.Place) (hfile : w.disk.walk file = .ok place) : w.disk.walk path ≠ .ok place := by
  intro hpath
  obtain ⟨place', hwalk, hnode⟩ := (Disk.bytes?_eq_some_iff ..).1 hprofile
  cases hfile.symm.trans hwalk
  have hsame := (Disk.bytes?_eq_some_iff ..).2 ⟨place, hpath, hnode⟩
  cases hkept with
  | missing absent => cases absent.symm.trans hsame
  | read records => exact not_readRecords_of_usualBytes hwritten hsame _ records

end Profile

namespace Launch

open Profile (usual usualBytes nameFor dataName IsWritten)

/-- What is on a disk where a profile was made: the profile, and beside it a data file with the records
that were kept there before. -/
structure Founded (s : Surroundings) (spelling name : Text) (w w' : World) (file : Path) (r : Records) :
    Prop where
  place : s.mapPath spelling none = .ok file.text
  canonical : file.IsCanonical
  isWritten : IsWritten name
  profile : w'.disk.bytes? file = some (usualBytes name)
  whole : (Depot.bytesOf r.toJson).2 = none
  data : w'.disk.bytes? (file.beside dataName) = some (Depot.bytesOf r.toJson).1
  kept : Store.KeptAt (file.beside dataName) w r
  others : ∀ path bytes, w.disk.bytes? path = some bytes →
    (∀ place, w.disk.walk path = .ok place → w.disk.walk (file.beside dataName) ≠ .ok place) →
    w'.disk.bytes? path = some bytes

variable {o : Occasion} {s : Surroundings} {spelling name : Text} {username : Option Text}
variable {w w' : World} {file : Path} {r : Records} {l : Launch}

/-- What the user can mend is told, and gives one. -/
theorem create_of_error {failure : Failure} (h : createFiles o spelling username w = (.error failure, w'))
    (hexpected : failure.kind.isExpected = true) :
    create o spelling username (start w) =
      (.ok 1, { start w' with world := w'.print ("Error creating profile: " ++ failure.message) }) := by
  unfold create
  rw [Act.run_bind, Act.run_attempt, inWorld, Act.run_within]
  simp only [start, h, Act.after_ok, hexpected, Bool.true_or, if_true]
  rfl

/-- Where something is at the path no profile is made, and nothing changes on the disk. -/
theorem create_of_bytes? {bytes : List UInt8} (hplace : o.surroundings.mapPath spelling none = .ok file.text)
    (hcanonical : file.IsCanonical) (hbytes : w.disk.bytes? file = some bytes) (username : Option Text) :
    ∃ l, create o spelling username (start w) = (.ok 1, l) ∧ l.world.disk = w.disk := by
  have hfiles : createFiles o spelling username w = (.error (.profileExists file.text), w) := by
    unfold createFiles
    rw [Act.run_bind, Profile.create_of_bytes? hplace hcanonical hbytes]
    rfl
  exact ⟨_, create_of_error hfiles rfl, rfl⟩

theorem disk_print (line : Text) (w : World) : (w.print line).disk = w.disk := rfl

/-- A run that gives zero has made the files, and nothing on the disk changed after that. -/
theorem createFiles_of_create (h : create o spelling username (start w) = (.ok 0, l)) :
    ∃ p w', createFiles o spelling username w = (.ok p, w') ∧ l.world.disk = w'.disk := by
  unfold create at h
  rw [Act.run_bind, Act.run_attempt, inWorld, Act.run_within] at h
  rcases hfiles : createFiles o spelling username w with ⟨failure | p, w'⟩
  · simp only [start, hfiles, Act.after_ok] at h
    split at h
    · cases h
    · cases h
  · simp only [start, hfiles, Act.after_ok, Act.run_bind, print, Act.run_change, Act.run_pure] at h
    obtain ⟨-, rfl⟩ := Prod.mk.inj h
    exact ⟨p, w', rfl, by simp only [disk_print]⟩

theorem parse_dataPath (hcanonical : file.IsCanonical) (name : Text) :
    Path.parse (usual file name).dataPath = file.beside dataName :=
  Path.parse_text (Path.isCanonical_beside hcanonical Profile.isPlain_dataName)

/-- **A profile that is made is founded**, on a disk that is a tree and without a run log. -/
theorem founded_of_createFiles (hlog : w.runLog = none) (htree : w.disk.IsTree)
    (hprogram : o.surroundings.program.IsCanonical) (huser : o.surroundings.user ≠ []) {p : Profile}
    (h : createFiles o spelling username w = (.ok p, w')) :
    ∃ file r, Founded o.surroundings spelling (nameFor o.surroundings username) w w' file r ∧
      p = usual file (nameFor o.surroundings username) ∧
      (Profile.create o.surroundings spelling username w).1 = .ok p := by
  obtain ⟨p, w₁, hcreate, h⟩ := Act.exists_of_run_bind h
  obtain ⟨store, w₂, hload, h⟩ := Act.exists_of_run_bind h
  obtain ⟨answer, w₃, hsave, h⟩ := Act.exists_of_run_bind h
  cases h
  obtain ⟨file, hcreated, rfl⟩ := Profile.created_of_create hprogram huser hcreate
  rw [parse_dataPath hcreated.canonical] at hload
  have hprofile := hcreated.profile
  have hdirectory := Disk.isDirectory_of_bytes? hprofile
  rw [← Path.parent_beside file dataName] at hdirectory
  -- loading and saving find the directory that the profile is in
  have hlog₁ : w₁.runLog = none := by
    rw [hcreated.rest]
    exact hlog
  have hdisk₂ : w₂.disk = w₁.disk := by
    obtain ⟨events, rfl⟩ := Store.rest_of_load hload hlog₁ hdirectory
    rfl
  obtain ⟨r, hkept, rfl⟩ := Store.keptAt_of_load hload
  -- the data file is another file than the profile, since it has records
  have hapart := Profile.apart_of_keptAt hcreated.isWritten hprofile hkept
  rw [Act.run_within] at hsave
  obtain ⟨hanswer, rfl⟩ := Prod.mk.inj hsave
  obtain ⟨hwhole, hwritten⟩ := Depot.written_of_save rfl rfl (Prod.ext hanswer rfl)
  rw [Depot.prepared, hdisk₂, Disk.makeDirectories_of_isDirectory hdirectory] at hwritten
  have habove := (Path.isCanonical_beside hcreated.canonical Profile.isPlain_dataName).above_not_mem
  refine ⟨file, r, {
    place := hcreated.place
    canonical := hcreated.canonical
    isWritten := hcreated.isWritten
    profile := ?_
    whole := hwhole
    data := Disk.bytes?_write hwritten
    kept := ?_
    others := fun path bytes hbytes hother => ?_ }, rfl, by rw [hcreate]⟩
  · exact (Disk.bytes?_write_other hwritten fun place hdata hfile => hapart place hfile hdata).trans hprofile
  · have hbefore := Disk.bytes?_write_other hcreated.written fun place hfile hdata =>
      hapart place ((Disk.walk_write hcreated.written ..).2 hfile) ((Disk.walk_write hcreated.written ..).2 hdata)
    exact hkept.of_bytes? (by rw [hbefore, Disk.bytes?_of_makeDirectories htree habove])
  · obtain ⟨place, hw, hn⟩ := (Disk.bytes?_eq_some_iff ..).1 hbytes
    refine (Disk.bytes?_write_other hwritten fun place' hdata hpath => ?_).trans
      (hcreated.keeps htree hbytes)
    cases hpath.symm.trans (hcreated.walk hw)
    exact hother place hw (htree.walk habove hdata hn)

namespace Founded

variable (h : Founded s spelling name w w' file r) {v : World} (hdisk : v.disk = w'.disk)
include h hdisk

/-- A founded profile is loaded as it was made. -/
theorem load (hname : name ≠ []) : Profile.load s spelling v = .ok (usual file name) :=
  Profile.load_of_usualBytes h.place h.canonical hname h.isWritten (hdisk ▸ h.profile)

/-- Its data file is loaded with the records that were kept there. -/
theorem store (htime : v.ShowsTime) :
    (Store.load (file.beside dataName) v).1 = .ok (Store.inFile (file.beside dataName) r) := by
  obtain ⟨moment, hmoment⟩ := htime
  obtain ⟨v', hload⟩ := Store.load_of_bytes h.whole (hdisk ▸ h.data) hmoment
  rw [hload]

/-- Where a profile is founded no other one is made, and nothing changes on the disk. -/
theorem again (hs : o.surroundings = s) {spelling' : Text} (hplace : s.mapPath spelling' none = .ok file.text)
    (username : Option Text) :
    ∃ l, create o spelling' username (start v) = (.ok 1, l) ∧ l.world.disk = v.disk :=
  create_of_bytes? (hs ▸ hplace) h.canonical (hdisk ▸ h.profile) username

end Founded

/-! ## Runs -/

/-- What comes of a run that makes a profile at a path and gives zero, from a world to another one. -/
structure Initialised (s : Surroundings) (spelling : Text) (username : Option Text) (w w' : World)
    (file : Path) (p : Profile) (r : Records) : Prop where
  place : s.mapPath spelling none = .ok file.text
  canonical : file.IsCanonical
  /-- The profile is for the user who was named, or else for the one of the program, and its data file and
  its run logs are beside it. -/
  made : p = usual file (nameFor s username)
  created : (Profile.create s spelling username w).1 = .ok p
  usable : p.IsUsable
  /-- It is loaded as it was made. -/
  loaded : ∀ v : World, v.disk = w'.disk → Profile.load s spelling v = .ok p
  /-- Its data file is loaded, with the records that were kept there before. -/
  stored : ∀ v : World, v.disk = w'.disk → v.ShowsTime →
    (Store.load p.dataFile v).1 = .ok (Store.inFile p.dataFile r)
  kept : Store.KeptAt p.dataFile w r
  /-- Every other file has the bytes that it had. -/
  others : ∀ path bytes, w.disk.bytes? path = some bytes →
    (∀ place, w.disk.walk path = .ok place → w.disk.walk p.dataFile ≠ .ok place) →
    w'.disk.bytes? path = some bytes
  asked : Request.read (Request.creating spelling username) = .ok (.create (some spelling) username)
  /-- At this path no other profile is made, and nothing changes on the disk. -/
  again : ∀ (o : Occasion) (v : World) (words : List Text) (spelling' : Text) (username' : Option Text),
    o.surroundings = s → v.disk = w'.disk → s.mapPath spelling' none = .ok file.text →
    Request.read words = .ok (.create (some spelling') username') →
    ∃ l, run o words (start v) = (.ok 1, l) ∧ l.world.disk = v.disk

theorem run_of_read {words : List Text} (h : Request.read words = .ok (.create (some spelling) username)) :
    run o words l = create o spelling username l := by
  unfold run
  rw [h]
  rfl

/-- A run that is to make a profile and gives zero was asked for that. -/
theorem read_of_run (h : (run o (Request.creating spelling username) (start w)).1 = .ok 0) :
    Request.read (Request.creating spelling username) = .ok (.create (some spelling) username) := by
  rcases Request.read_creating spelling username with hread | ⟨title, usage, problem, hread⟩
  · exact hread
  · unfold run at h
    rw [hread] at h
    cases h

/-- **A run that makes a profile and gives zero** leaves one that can be used: it is loaded as it was made,
its data file is loaded with the records that it had before, and none if it was not there, and a second run
is told that the profile is there and changes nothing on the disk. -/
theorem initialised_of_run (hlog : w.runLog = none) (htree : w.disk.IsTree)
    (hprogram : o.surroundings.program.IsCanonical) (huser : o.surroundings.user ≠ [])
    (h : run o (Request.creating spelling username) (start w) = (.ok 0, l)) :
    ∃ file p r, Initialised o.surroundings spelling username w l.world file p r := by
  have hasked : Request.read (Request.creating spelling username) = .ok (.create (some spelling) username) :=
    read_of_run (by rw [h])
  rw [run_of_read hasked] at h
  obtain ⟨p, w', hfiles, hdisk⟩ := createFiles_of_create h
  obtain ⟨file, r, hfounded, rfl, hcreated⟩ := founded_of_createFiles hlog htree hprogram huser hfiles
  have hname := Profile.nameFor_ne_nil huser username
  have hdata := parse_dataPath hfounded.canonical (nameFor o.surroundings username)
  refine ⟨file, usual file (nameFor o.surroundings username), r, {
    place := hfounded.place
    canonical := hfounded.canonical
    made := rfl
    created := hcreated
    usable := Profile.isUsable_usual hfounded.canonical hname
    loaded := fun v hv => hfounded.load (hv.trans hdisk) hname
    stored := fun v hv htime => ?_
    kept := ?_
    others := fun path bytes hbytes hother => ?_
    asked := hasked
    again := fun o' v words spelling' username' hs hv hplace hread => ?_ }⟩
  · rw [Profile.dataFile, hdata]
    exact hfounded.store (hv.trans hdisk) htime
  · rw [Profile.dataFile, hdata]
    exact hfounded.kept
  · rw [hdisk]
    rw [Profile.dataFile, hdata] at hother
    exact hfounded.others path bytes hbytes hother
  · rw [run_of_read hread]
    exact hfounded.again (hv.trans hdisk) hs hplace username'

/-- A disk with a directory that has a data file with one vault. -/
def sampleHome : Disk :=
  [([Disk.Name.ofText "home"], .directory),
    ([Disk.Name.ofText "home", Disk.Name.ofText "vault.json"],
      .file (Depot.bytesOf (Records.toJson ⟨[Store.sampleVault], []⟩)).1)]

@[inherit_doc sampleHome] def sampleWorld : World := World.fresh 0 sampleHome

/-- A user at home. -/
def sampleOccasion : Occasion :=
  { surroundings := Profile.sampleSurroundings, clipboard := .quiet, consents := [], inputs := [] }

theorem isCanonical_sampleProgram : sampleOccasion.surroundings.program.IsCanonical := by
  have habove : Path.above ∉ sampleOccasion.surroundings.program.names := by decide +kernel
  exact ⟨rfl, fun name hname => Path.plain_of_mem_parse hname fun hn => habove (hn ▸ hname)⟩

/-- A name with quotes in it. -/
def sampleName : Text := "Ada \"L\""

theorem keptAt_sampleWorld : Store.KeptAt ⟨1, ["home", "vault.json"]⟩ sampleWorld ⟨[Store.sampleVault], []⟩ :=
  .read (Store.readRecords_of_bytes (by decide +kernel) (by decide +kernel))

theorem initialised_sampleWorld :
    ∃ l file p, run sampleOccasion (Request.creating "/home/p.json" (some sampleName)) (start sampleWorld) =
        (.ok 0, l) ∧
      p.username = sampleName ∧ p.dataFile = ⟨1, ["home", "vault.json"]⟩ ∧
      Initialised Profile.sampleSurroundings "/home/p.json" (some sampleName) sampleWorld l.world file p
        ⟨[Store.sampleVault], []⟩ := by
  have hcode : (run sampleOccasion (Request.creating "/home/p.json" (some sampleName))
      (start sampleWorld)).1 = .ok 0 := by decide +kernel
  have hrun : run sampleOccasion (Request.creating "/home/p.json" (some sampleName)) (start sampleWorld) =
      (.ok 0, (run sampleOccasion (Request.creating "/home/p.json" (some sampleName))
        (start sampleWorld)).2) := by
    rw [← hcode, Prod.mk.eta]
  obtain ⟨file, p, r, h⟩ := initialised_of_run rfl (by decide +kernel) isCanonical_sampleProgram (by decide) hrun
  have hfile : file = ⟨1, ["home", "p.json"]⟩ := by
    have hplace : Profile.sampleSurroundings.mapPath "/home/p.json" none = .ok "/home/p.json" := by
      decide +kernel
    rw [← Path.parse_text h.canonical, ← Except.ok.inj (hplace.symm.trans h.place)]
    decide +kernel
  have hdata : p.dataFile = ⟨1, ["home", "vault.json"]⟩ := by
    rw [Profile.dataFile, h.made, parse_dataPath h.canonical, hfile]
    rfl
  have hkept := h.kept
  rw [hdata] at hkept
  cases hkept.unique keptAt_sampleWorld
  exact ⟨_, file, p, hrun, by rw [h.made]; rfl, hdata, h⟩

end Launch

end VaultConsole
