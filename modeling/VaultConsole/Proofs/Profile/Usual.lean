import VaultConsole.Proofs.Disk.Tree
import VaultConsole.Proofs.Profile.Loading

/-!
# New profiles

A new profile names its user and has a data file and a directory for run logs beside it. Its file is
written in one go, and what is written is read back, whatever the name of the user is.

* `Path.beside`: another name in the directory of a path.
* `Surroundings.exists_path_of_mapPath`: the path of a spelling is absolute and has no `..`.
* `Profile.usual`: what a new profile says.
* `Profile.parse_usualMembers`: the document of a new profile is read as it was written.
* `Profile.Created`, `Profile.created_of_create`: what is so when a profile was made.
* `Profile.load_of_usualBytes`: **a new profile is loaded as it was made.**
-/

namespace VaultConsole

/-! ## Beside a path -/

namespace Path

variable {p : Path} {name : Text}

/-- Another name in the directory of a path. -/
def beside (p : Path) (name : Text) : Path := { p with names := p.parent.names ++ [name] }

@[simp] theorem parent_beside (p : Path) (name : Text) : (p.beside name).parent = p.parent := by
  simp [beside, parent]

theorem isCanonical_beside (h : p.IsCanonical) (hname : IsPlain name) : (p.beside name).IsCanonical := by
  refine ⟨h.1, fun other ho => ?_⟩
  rcases List.mem_append.1 ho with ho | ho
  · exact (isCanonical_parent h).2 other ho
  · rwa [List.mem_singleton.1 ho]

theorem IsCanonical.above_not_mem (h : p.IsCanonical) : above ∉ p.names :=
  fun hmem => (h.2 above hmem).2.2.1 rfl

theorem resolveOnto_of_not_mem {done names : List Text} (h : above ∉ names) :
    resolveOnto done names = done ++ names := by
  induction names generalizing done with
  | nil => exact (List.append_nil done).symm
  | cons first rest ih =>
    rw [List.mem_cons, not_or] at h
    rw [resolveOnto, if_neg (Ne.symm h.1), ih h.2, List.append_assoc, List.singleton_append]

theorem resolve_of_isCanonical (h : p.IsCanonical) : p.resolve = p := by
  rw [resolve, resolveOnto_of_not_mem h.above_not_mem, List.nil_append, ← h.1]

end Path

namespace Surroundings

variable {s : Surroundings} {spelling : Text} {file : Path}

theorem eq_of_resolveNames {done names names' : List Text} (h : resolveNames done names = .ok names') :
    names' = Path.resolveOnto done names := by
  induction names generalizing done with
  | nil =>
    cases h
    rfl
  | cons name rest ih =>
    unfold resolveNames at h
    unfold Path.resolveOnto
    split at h
    · rw [if_pos ‹_›]
      exact ih h
    · rw [if_neg ‹_›]
      simp only at h
      split at h
      · cases h
      · exact ih h

theorem eq_of_resolve {p : Path} {t : Text} (h : resolve p = .ok t) : t = p.resolve.text := by
  obtain ⟨names, hnames, ht⟩ := bind_eq_ok_iff.1 h
  cases ht
  rw [eq_of_resolveNames hnames]
  rfl

/-- The names of a path that begins at a home were read. -/
theorem plain_of_mem_expandHome {p q : Path} (hp : ∀ name ∈ p.names, name ≠ Path.above → Path.IsPlain name)
    (h : s.expandHome p = .ok q) : ∀ name ∈ q.names, name ≠ Path.above → Path.IsPlain name := by
  unfold expandHome at h
  split at h
  · cases h
    exact hp
  · split at h
    · next c user rest hnames =>
      split at h
      · obtain ⟨home, -, hq⟩ := bind_eq_ok_iff.1 h
        cases hq
        intro name hname habove
        rcases List.mem_append.1 hname with hname | hname
        · exact Path.plain_of_mem_parse hname habove
        · exact hp name (by rw [hnames]; exact List.mem_cons_of_mem _ hname) habove
      · cases h
        exact hp
    · cases h
      exact hp

/-- What is appended to a path of names that were read was read as well. -/
theorem plain_of_mem_append {p q : Path} (hp : ∀ name ∈ p.names, name ≠ Path.above → Path.IsPlain name)
    (hq : ∀ name ∈ q.names, name ≠ Path.above → Path.IsPlain name) :
    ∀ name ∈ (p.append q).names, name ≠ Path.above → Path.IsPlain name := by
  intro name hname habove
  unfold Path.append at hname
  split at hname
  · exact hq name hname habove
  · rcases List.mem_append.1 hname with hname | hname
    · exact hp name hname habove
    · exact hq name hname habove

/-- **The path of a spelling is absolute and has no `..`**, if that is so of the program's. -/
theorem exists_path_of_mapPath (hprogram : s.program.IsCanonical) {profileDir : Option Text} {t : Text}
    (h : s.mapPath spelling profileDir = .ok t) : ∃ file : Path, file.IsCanonical ∧ t = file.text := by
  have hresolve : ∀ p : Path, (∀ name ∈ p.names, name ≠ Path.above → Path.IsPlain name) →
      resolve p = .ok t → ∃ file : Path, file.IsCanonical ∧ t = file.text := fun p hp hrun =>
    ⟨p.resolve, Path.isCanonical_resolve_of_plain hp, eq_of_resolve hrun⟩
  unfold mapPath at h
  split at h
  · cases h
  · split at h
    · next rest _ =>
      exact hresolve _ (plain_of_mem_append (fun name hname _ => hprogram.2 name hname)
        fun _ => Path.plain_of_mem_parse) h
    · obtain ⟨p, hp, hrun⟩ := bind_eq_ok_iff.1 h
      have hplain := plain_of_mem_expandHome (fun _ => Path.plain_of_mem_parse) hp
      split at hrun
      · exact hresolve p hplain hrun
      · split at hrun
        · exact hresolve _ (plain_of_mem_append (fun _ => Path.plain_of_mem_parse) hplain) hrun
        · cases hrun

/-- The system can be asked about a path beside one that it can be asked about. -/
theorem unaskable?_beside {name : Text} (hask : Disk.unaskable? file = none)
    (hname : Disk.unaskable? ⟨1, [name]⟩ = none) : Disk.unaskable? (file.beside name) = none := by
  have hparent := Disk.unaskable?_parent hask
  rw [Disk.unaskable?_eq_none_iff_names] at hparent hname ⊢
  intro other ho
  rcases List.mem_append.1 ho with ho | ho
  · exact hparent other ho
  · exact hname other ho

/-- A spelling that is a name as seen from the directory of a profile, is mapped beside the profile. -/
theorem mapPath_beside {name : Text} (hfile : file.IsCanonical) (hask : Disk.unaskable? file = none)
    (hplain : Path.IsPlain name) (hname : Disk.unaskable? ⟨1, [name]⟩ = none)
    (hplace : s.place file.parent spelling = .ok (file.beside name))
    (hzero : ∀ c ∈ spelling, c.val ≠ 0) :
    s.mapPath spelling (some file.parent.text) = .ok (file.beside name).text := by
  rw [mapPath_eq (Path.isCanonical_parent hfile) hzero, hplace]
  show resolve (file.beside name) = _
  rw [resolve_eq (unaskable?_beside hask hname),
    Path.resolve_of_isCanonical (Path.isCanonical_beside hfile hplain)]

end Surroundings

namespace Profile

variable {s : Surroundings} {spelling : Text} {username : Option Text} {w w' : World} {file : Path}
variable {name : Text}

/-! ## What a new profile says -/

/-- The name of the user of a new profile. -/
def nameFor (s : Surroundings) (username : Option Text) : Text :=
  (username.filter (!·.isEmpty)).getD s.user

/-- The name of the data file of a new profile. -/
def dataName : Text := "vault.json"

/-- The name of the directory for the run logs of a new profile. -/
def logsName : Text := "logs"

/-- What a new profile says, which is kept in a file. -/
def usual (file : Path) (name : Text) : Profile :=
  { username := name, dataPath := (file.beside dataName).text, logsDir := some (file.beside logsName).text
    actionDelay := usualDelay }

theorem isPlain_dataName : Path.IsPlain dataName := by
  refine ⟨?_, ?_, ?_, ?_⟩ <;> decide

theorem isPlain_logsName : Path.IsPlain logsName := by
  refine ⟨?_, ?_, ?_, ?_⟩ <;> decide

theorem nameFor_ne_nil (huser : s.user ≠ []) (username : Option Text) : nameFor s username ≠ [] := by
  unfold nameFor
  cases h : username.filter (!·.isEmpty) with
  | none => exact huser
  | some name => simpa using (Option.filter_eq_some_iff.1 h).2

theorem isFinite_usualDelay : usualDelay.IsFinite := by decide +kernel

theorem isNegative_usualDelay : usualDelay.isNegative = false := by decide +kernel

theorem isUsable_usual (hfile : file.IsCanonical) (hname : name ≠ []) : (usual file name).IsUsable where
  username := hname
  dataPath := Path.isAbsolute_parse_text hfile.1
  logsDir := by
    rintro dir ⟨⟩
    exact Path.isAbsolute_parse_text hfile.1
  finite := isFinite_usualDelay
  delay := isNegative_usualDelay

theorem checked_usualMembers (hname : name ≠ []) :
    Checked (usualMembers name) ⟨name, "./vault.json", some "./logs", some (.real usualDelay)⟩ where
  username := rfl
  named := hname
  dataPath := rfl
  logsDir := rfl
  delay := rfl
  number := by
    rintro value ⟨⟩
    rw [checkDelay, isNegative_usualDelay]
    rfl

theorem check_usualMembers (hname : name ≠ []) :
    check (.object (usualMembers name)) = .ok (usualMembers name) := by
  have hdelay : checkDelay (.real usualDelay) = .ok () := (checked_usualMembers hname).number _ rfl
  obtain ⟨c, rest, rfl⟩ := List.exists_cons_of_ne_nil hname
  unfold usualMembers
  -- that the delay is what it is does not matter but for its check
  generalize usualDelay = delay at hdelay ⊢
  show (checkDelay (.real delay) >>= fun _ => pure _ : Except Failure (Table Text Json)) = _
  rw [hdelay]
  rfl

/-- The members of a new profile make what it says. -/
theorem ofMembers_usualMembers (hfile : file.IsCanonical) (hask : Disk.unaskable? file = none)
    (hname : name ≠ []) : ofMembers s file (usualMembers name) = .ok (usual file name) := by
  have hdata : s.mapPath "./vault.json" (some file.parent.text) = .ok (file.beside dataName).text :=
    Surroundings.mapPath_beside hfile hask isPlain_dataName (by decide) rfl (by decide)
  have hlogs : s.mapPath "./logs" (some file.parent.text) = .ok (file.beside logsName).text :=
    Surroundings.mapPath_beside hfile hask isPlain_logsName (by decide) rfl (by decide)
  rw [ofMembers_eq (checked_usualMembers hname)]
  simp only [hdata, mapLogs, hlogs]
  rfl

/-! ## The document of a new profile -/

theorem distinct_usualMembers (name : Text) : Json.Distinct (.object (usualMembers name)) := by
  refine .object (by simp only [usualMembers, Table.keys, List.map_cons, List.map_nil]; decide)
    fun member hm => ?_
  simp only [usualMembers, List.mem_cons, List.not_mem_nil, or_false] at hm
  rcases hm with rfl | rfl | rfl | rfl
  · exact .text _
  · exact .text _
  · exact .text _
  · exact .real _

/-- **The document of a new profile is read as it was written.** -/
theorem parse_usualMembers (name : Text) :
    Json.parse (Json.indented (.object (usualMembers name))) = .ok (.object (usualMembers name)) :=
  Json.parse_indented (distinct_usualMembers name) rfl

/-! ## Making and loading -/

/-- The bytes of a new profile. -/
def usualBytes (name : Text) : List UInt8 := (Depot.bytesOf (.object (usualMembers name))).1

/-- The name of the user has an encoding. -/
def IsWritten (name : Text) : Prop := (Depot.bytesOf (.object (usualMembers name))).2 = none

/-- A file with the bytes of a new profile is read as its members. -/
theorem readText_of_usualBytes (hwritten : IsWritten name)
    (hbytes : w.disk.bytes? file = some (usualBytes name)) :
    w.readText file = .ok (Json.indented (.object (usualMembers name))) := by
  have hencode : Text.Utf8.encode (Json.indented (.object (usualMembers name))) = .ok (usualBytes name) :=
    World.encode_of_encodePieces hwritten
  exact Store.readText_eq_ok_iff.2 ⟨_, _, hbytes, Text.Utf8.decode_of_encode hencode,
    Text.unifyNewlines_eq_self (Json.not_mem_indented (distinct_usualMembers name))⟩

/-- The system can be asked about the path of a profile. -/
theorem unaskable?_of_mapPath (hplace : s.mapPath spelling none = .ok file.text)
    (hcanonical : file.IsCanonical) : Disk.unaskable? file = none := by
  have hask := Surroundings.unaskable?_mapPath hplace
  rwa [Path.parse_text hcanonical] at hask

/-- Makes a profile at a path where nothing is. -/
def createAt (s : Surroundings) (file : Path) (name : Text) : Act Failure World Profile := do
  Act.rename .ofDisk (World.makeDirectories file.parent)
  Act.rename .ofDisk (World.writeDocument file (.object (usualMembers name)))
  Act.settle (ofMembers s file (usualMembers name))

/-- Making a profile depends on what is at its path. -/
theorem create_eq (hplace : s.mapPath spelling none = .ok file.text) (hcanonical : file.IsCanonical) :
    create s spelling username w =
      match w.holds file with
      | .error failure => (.error failure, w)
      | .ok true => (.error (.profileExists file.text), w)
      | .ok false => createAt s file (nameFor s username) w := by
  unfold create
  simp only [Act.run_bind, Act.run_settle, hplace, Act.after_ok, Act.run_look, Path.parse_text hcanonical]
  rcases hholds : w.holds file with failure | _ | _ <;> rfl

/-- Where a profile is, no other one is made. -/
theorem create_of_bytes? {bytes : List UInt8} (hplace : s.mapPath spelling none = .ok file.text)
    (hcanonical : file.IsCanonical) (hbytes : w.disk.bytes? file = some bytes) :
    create s spelling username w = (.error (.profileExists file.text), w) := by
  rw [create_eq hplace hcanonical, World.holds_of_bytes? hbytes]

/-- What is so when a profile was made at a path: nothing was there, and now its document is. -/
structure Created (s : Surroundings) (spelling name : Text) (w w' : World) (file : Path) : Prop where
  place : s.mapPath spelling none = .ok file.text
  canonical : file.IsCanonical
  absent : w.disk.holds file = .ok false
  isWritten : IsWritten name
  written : (w.disk.makeDirectories file.parent).2.write (usualBytes name) file = .ok w'.disk
  rest : w' = { w with disk := w'.disk }

theorem created_of_create (hprogram : s.program.IsCanonical) (huser : s.user ≠ []) {p : Profile}
    (h : create s spelling username w = (.ok p, w')) :
    ∃ file, Created s spelling (nameFor s username) w w' file ∧ p = usual file (nameFor s username) := by
  obtain ⟨t, w₁, hplace, -⟩ := Act.exists_of_run_bind h
  have hplace : s.mapPath spelling none = .ok t := (Prod.mk.inj hplace).1
  obtain ⟨file, hcanonical, rfl⟩ := Surroundings.exists_path_of_mapPath hprogram hplace
  rw [create_eq hplace hcanonical] at h
  split at h
  · cases h
  · cases h
  · next habsent =>
    obtain ⟨_, w₁, hmade, h⟩ := Act.exists_of_run_bind h
    obtain ⟨_, w₂, hwrite, h⟩ := Act.exists_of_run_bind h
    obtain ⟨hp, rfl⟩ := Prod.mk.inj h
    obtain ⟨-, rfl⟩ := Prod.mk.inj (Act.run_of_run_rename hmade)
    obtain ⟨hwritten, hdisk, hrest⟩ := Depot.written_of_writeDocument (Act.run_of_run_rename hwrite)
    rw [ofMembers_usualMembers hcanonical (unaskable?_of_mapPath hplace hcanonical)
      (nameFor_ne_nil huser username)] at hp
    cases hp
    exact ⟨file, ⟨hplace, hcanonical, World.holds_eq_ok_iff.1 habsent, hwritten, hdisk, hrest⟩, rfl⟩

namespace Created

variable (h : Created s spelling name w w' file)
include h

theorem profile : w'.disk.bytes? file = some (usualBytes name) := Disk.bytes?_write h.written

/-- What leads to a file leads there when a profile was made. -/
theorem walk {path : Path} {place : Disk.Place} (hw : Disk.walk w.disk path = .ok place) :
    Disk.walk w'.disk path = .ok place := Disk.walk_of_made h.written hw

/-- A new profile replaces no file of a tree. -/
theorem keeps (htree : w.disk.IsTree) {path : Path} {bytes : List UInt8}
    (hbytes : w.disk.bytes? path = some bytes) : w'.disk.bytes? path = some bytes :=
  Disk.bytes?_of_made htree h.canonical.above_not_mem h.absent h.written hbytes

end Created

/-- **A new profile is loaded as it was made.** -/
theorem load_of_usualBytes (hplace : s.mapPath spelling none = .ok file.text)
    (hcanonical : file.IsCanonical) (hname : name ≠ []) (hwritten : IsWritten name)
    (hbytes : w.disk.bytes? file = some (usualBytes name)) :
    load s spelling w = .ok (usual file name) := by
  have hask := unaskable?_of_mapPath hplace hcanonical
  unfold load
  rw [hplace]
  simp only [bind, Except.bind, Path.parse_text hcanonical, World.holds_of_bytes? hbytes,
    readText_of_usualBytes hwritten hbytes, parse_usualMembers, check_usualMembers hname]
  exact ofMembers_usualMembers hcanonical hask hname

end Profile

end VaultConsole
