import VaultConsole.Proofs.Disk.Tree
import VaultConsole.Proofs.Record.Reading
import VaultConsole.Proofs.Store.Settling
import VaultConsole.Profile.Paths

/-!
# Loading a data file

Whatever is at the path of a data file, and whatever bytes a file there holds, loading it ends with
a store or fails with storage, and every file keeps its bytes. Of a file that is there it gives a
store in one case only: its bytes are a document of records, and these are the records of the store.

The system has to know the path: one without an encoding, or one that is too long, never gets as far
as the disk. What a profile says of a data file becomes such a path before it is loaded.

* `Disk.IsLegal`: a path that the system knows.
* `Surroundings.unaskable?_mapPath`: the system can be asked about the paths of profiles.
* `Store.kind_of_readRecords`, `Store.readRecords_eq_ok_iff`: the bytes of a file that is there.
* `Store.load_total`: **loading is total over what is at the path.**
-/

namespace VaultConsole

namespace Disk

/-- A path that the system knows: it has bytes, none of which ends it early, and neither the bytes of
all nor those of a name are too many. -/
structure IsLegal (path : Path) : Prop where
  askable : unaskable? path = none
  length : (Name.ofText path.text).length ≤ pathLimit
  names : ∀ name ∈ path.names, (Name.ofText name).length ≤ nameLimit

theorem walkFrom_ne_nameTooLong {disk : Disk} {start : Place} {names : List Text}
    (h : ∀ name ∈ names, (Name.ofText name).length ≤ nameLimit) :
    walkFrom disk start names ≠ .error .nameTooLong := by
  induction names generalizing start with
  | nil => exact nofun
  | cons name rest ih =>
    have hrest := fun other ho => h other (List.mem_cons_of_mem _ ho)
    have hname := h name List.mem_cons_self
    unfold walkFrom
    split
    · exact nofun
    · exact nofun
    · split
      · exact ih hrest
      · simp only
        rw [if_neg (by omega)]
        exact ih hrest

/-- About a legal path the system tells whether there is something. -/
theorem IsLegal.holds {path : Path} (h : IsLegal path) (disk : Disk) :
    ∃ isThere, disk.holds path = .ok isThere := by
  unfold Disk.holds
  cases hw : walk disk path with
  | ok place => exact ⟨_, rfl⟩
  | error problem =>
    split
    · next p hp =>
      cases hp
      unfold walk at hw
      rw [h.askable] at hw
      simp only at hw
      rw [if_neg (by have := h.length; omega)] at hw
      split at hw <;> cases hw
      exact absurd ‹_› (walkFrom_ne_nameTooLong h.names)
    · exact ⟨false, rfl⟩
    · next hp => cases hp

end Disk

theorem Text.mem_joinWith_of_mem {sep piece : Text} {pieces : List Text} {c : CodePoint}
    (hp : piece ∈ pieces) (hc : c ∈ piece) : c ∈ joinWith sep pieces := by
  induction pieces with
  | nil => exact absurd hp List.not_mem_nil
  | cons first rest ih =>
    cases rest with
    | nil => rwa [joinWith, ← List.mem_singleton.1 hp]
    | cons next more =>
      rw [joinWith, List.mem_append, List.mem_append]
      · rcases List.mem_cons.1 hp with rfl | hp
        · exact .inl (.inl hc)
        · exact .inr (ih hp)
      · exact List.cons_ne_nil next more

theorem Text.mem_joinWith {sep : Text} {pieces : List Text} {c : CodePoint}
    (h : c ∈ joinWith sep pieces) : c ∈ sep ∨ ∃ piece ∈ pieces, c ∈ piece := by
  induction pieces with
  | nil => exact absurd h List.not_mem_nil
  | cons first rest ih =>
    cases rest with
    | nil => exact .inr ⟨first, List.mem_cons_self, h⟩
    | cons next more =>
      rw [joinWith, List.mem_append, List.mem_append] at h
      · rcases h with (h | h) | h
        · exact .inr ⟨first, List.mem_cons_self, h⟩
        · exact .inl h
        · rcases ih h with h | ⟨piece, hp, hc⟩
          · exact .inl h
          · exact .inr ⟨piece, List.mem_cons_of_mem _ hp, hc⟩
      · exact List.cons_ne_nil next more

/-- A written path has no code points but those that it was read from, and its slashes and dots. -/
theorem Path.mem_text_parse {t : Text} {c : CodePoint} (h : c ∈ (parse t).text) :
    c ∈ t ∨ c = slash ∨ c ∈ here := by
  unfold text at h
  split at h
  · exact .inr (.inr h)
  · rcases List.mem_append.1 h with h | h
    · exact .inr (.inl (List.eq_of_mem_replicate h))
    · rcases Text.mem_joinWith h with h | ⟨piece, hp, hc⟩
      · exact .inr (.inl (List.mem_singleton.1 h))
      · left
        rw [← Text.joinWith_splitOn slash t]
        exact Text.mem_joinWith_of_mem (List.mem_filter.1 hp).1 hc

namespace Surroundings

theorem unaskable?_resolveNames {done names names' : List Text}
    (hdone : Disk.unaskable? ⟨1, done⟩ = none) (h : resolveNames done names = .ok names') :
    Disk.unaskable? ⟨1, names'⟩ = none := by
  induction names generalizing done with
  | nil =>
    cases h
    exact hdone
  | cons name rest ih =>
    unfold resolveNames at h
    split at h
    · exact ih (Disk.unaskable?_parent hdone) h
    · simp only at h
      split at h
      · cases h
      · exact ih ‹_› h

/-- **The system can be asked about the paths of profiles.** -/
theorem unaskable?_mapPath {s : Surroundings} {spelling t : Text} {profileDir : Option Text}
    (h : s.mapPath spelling profileDir = .ok t) : Disk.unaskable? (Path.parse t) = none := by
  have hresolve : ∀ p : Path, resolve p = .ok t → Disk.unaskable? (Path.parse t) = none := by
    intro p hp
    obtain ⟨names, hnames, ht⟩ := bind_eq_ok_iff.1 hp
    cases ht
    have hask := unaskable?_resolveNames (by decide) hnames
    rw [Disk.unaskable?_eq_none_iff] at hask ⊢
    have hhere : ∀ c ∈ Path.here, (c.isSurrogate && !Disk.Name.isByte c) = false ∧
        (c.val == 0) = false := by decide
    intro c hc
    rcases Path.mem_text_parse hc with hc | rfl | hc
    · exact hask c hc
    · decide
    · exact hhere c hc
  unfold mapPath at h
  split at h
  · cases h
  · split at h
    · exact hresolve _ h
    · obtain ⟨p, -, h⟩ := bind_eq_ok_iff.1 h
      split at h
      · exact hresolve _ h
      · split at h
        · exact hresolve _ h
        · cases h

end Surroundings

namespace Store

variable {path : Path} {w : World}

/-- A text that the reader of documents gets to the end of, or to a flaw of, before there are too many
arrays and objects inside each other. -/
def WithinDepth (t : Text) : Prop := ∀ isObject, Json.parse t ≠ .error (.tooDeep isObject)

/-- The document that a file holds: its bytes are a text, and the text is the document. -/
def Holds (w : World) (path : Path) (value : Json) : Prop :=
  ∃ bytes t, w.disk.bytes? path = some bytes ∧ Text.Utf8.decode bytes = .ok t ∧
    Json.parse (Text.unifyNewlines t) = .ok value

theorem readText_eq_ok_iff {t : Text} :
    w.readText path = .ok t ↔ ∃ bytes whole, w.disk.bytes? path = some bytes ∧
      Text.Utf8.decode bytes = .ok whole ∧ Text.unifyNewlines whole = t := by
  have hbytes : ∀ bytes, w.disk.bytes? path = some bytes ↔ w.disk.read path = .ok bytes := by
    intro bytes
    rw [Disk.bytes?_eq_some_iff, Disk.read_eq_ok_iff]
  simp only [hbytes]
  unfold World.readText World.readWhole
  cases hread : w.disk.read path with
  | error problem =>
    constructor
    · intro h
      cases h
    · rintro ⟨bytes, whole, h, -⟩
      cases h
  | ok bytes =>
    cases hdecode : Text.Utf8.decode bytes with
    | error problem =>
      constructor
      · intro h
        simp only [hdecode] at h
        cases h
      · rintro ⟨bytes', whole, h, hwhole, -⟩
        cases h
        rw [hdecode] at hwhole
        cases hwhole
    | ok whole =>
      simp only [hdecode]
      constructor
      · intro h
        cases h
        exact ⟨bytes, whole, rfl, hdecode, rfl⟩
      · rintro ⟨bytes', whole', h, hwhole, rfl⟩
        cases h
        rw [hdecode] at hwhole
        cases hwhole
        rfl

/-- **The records of a file that is there are those of the document that it holds.** -/
theorem readRecords_eq_ok_iff {r : Records} :
    readRecords path w = .ok r ↔ ∃ value, Holds w path value ∧ r.IsReadFrom value := by
  constructor
  · intro h
    unfold readRecords at h
    split at h
    · cases h
    · cases h
    · next t ht =>
      obtain ⟨bytes, whole, hbytes, hdecode, rfl⟩ := readText_eq_ok_iff.1 ht
      split at h
      · cases h
      · cases h
      · cases h
      · next value hparse =>
        split at h
        · cases h
        · next hrecords =>
          cases h
          exact ⟨value, ⟨bytes, whole, hbytes, hdecode, hparse⟩,
            Records.ofJson_eq_ok_iff.1 hrecords⟩
  · rintro ⟨value, ⟨bytes, whole, hbytes, hdecode, hparse⟩, hrecords⟩
    have htext := readText_eq_ok_iff.2 ⟨bytes, whole, hbytes, hdecode, rfl⟩
    unfold readRecords
    rw [htext]
    simp only [hparse, Records.ofJson_eq_ok_iff.2 hrecords]

/-- How loading ends. -/
inductive Loaded (path : Path) (w : World) : Except Failure Store × World → Prop
  /-- Nothing is there, and the directory is, or is made. -/
  | missing (disk : Disk) (absent : w.disk.holds path = .ok false)
    (made : disk = (w.disk.makeDirectories path.parent).2) :
    Loaded path w (.ok (inFile path .empty), { w with disk })
  /-- Nothing is there, and the directory cannot be made. -/
  | unreachable (disk : Disk) (failure : Failure) (absent : w.disk.holds path = .ok false)
    (made : disk = (w.disk.makeDirectories path.parent).2) (storage : failure.kind = .storage) :
    Loaded path w (.error failure, { w with disk })
  /-- What is there is no document of records. -/
  | unread (failure : Failure) (present : w.disk.holds path = .ok true)
    (storage : failure.kind = .storage) : Loaded path w (.error failure, w)
  /-- The document of a file that is there was read, of which the log tells. -/
  | read (r : Records) (value : Json) (e : Event) (present : w.disk.holds path = .ok true)
    (document : Holds w path value) (records : r.IsReadFrom value) :
    Loaded path w (.ok (inFile path r), w.record e)

/-- The run log is at a path. -/
def IsRunLog (w : World) (path : Path) : Prop :=
  ∃ log place, w.runLog = some log ∧ w.disk.walk log.path = .ok place ∧
    w.disk.walk path = .ok place

/-- However loading ends, every file but the run log keeps its bytes. -/
theorem Loaded.bytes? {result : Except Failure Store × World} (h : Loaded path w result)
    {other : Path} {bytes : List UInt8} (hlog : ¬ IsRunLog w other)
    (hb : w.disk.bytes? other = some bytes) : result.2.disk.bytes? other = some bytes := by
  cases h with
  | missing disk absent made =>
    rw [made]
    exact (Disk.extends_makeDirectories w.disk path.parent).bytes? hb
  | unreachable disk failure absent made storage =>
    rw [made]
    exact (Disk.extends_makeDirectories w.disk path.parent).bytes? hb
  | unread failure present storage => exact hb
  | read r value e present document records =>
    rcases World.disk_record e w with hd | ⟨log, added, hrun, happend⟩
    · rw [hd]
      exact hb
    · rw [Disk.bytes?_append happend fun place hplace hother => hlog ⟨log, place, hrun, hplace, hother⟩]
      exact hb

/-- The records that are kept at a path: those of the file that is there, or none where no file is. -/
inductive KeptAt (path : Path) (w : World) : Records → Prop
  | missing (absent : w.disk.bytes? path = none) : KeptAt path w .empty
  | read {r : Records} (records : readRecords path w = .ok r) : KeptAt path w r

/-- What is kept at a path depends on its bytes alone. -/
theorem KeptAt.of_bytes? {r : Records} {w' : World} (h : w'.disk.bytes? path = w.disk.bytes? path)
    (hr : KeptAt path w r) : KeptAt path w' r := by
  cases hr with
  | missing absent => exact .missing (h.trans absent)
  | read records =>
    obtain ⟨value, ⟨bytes, t, hbytes, hdecode⟩, hread⟩ := readRecords_eq_ok_iff.1 records
    exact .read (readRecords_eq_ok_iff.2 ⟨value, ⟨bytes, t, h.trans hbytes, hdecode⟩, hread⟩)

theorem KeptAt.unique {r r' : Records} (h : KeptAt path w r) (h' : KeptAt path w r') : r = r' := by
  have hthere : ∀ {r : Records}, readRecords path w = .ok r → w.disk.bytes? path ≠ none := by
    intro r hr
    obtain ⟨value, ⟨bytes, t, hbytes, -⟩, -⟩ := readRecords_eq_ok_iff.1 hr
    rw [hbytes]
    exact nofun
  cases h with
  | missing absent =>
    cases h' with
    | missing _ => rfl
    | read records => exact absurd absent (hthere records)
  | read records =>
    cases h' with
    | missing absent => exact absurd absent (hthere records)
    | read records' => exact Except.ok.inj (records.symm.trans records')

/-- A store that was loaded has the records that are kept at its path. -/
theorem keptAt_of_load {s : Store} {w' : World} (h : load path w = (.ok s, w')) :
    ∃ r, KeptAt path w r ∧ s = inFile path r := by
  obtain ⟨r, w₁, hrecords, h⟩ := Act.exists_of_run_bind h
  obtain ⟨hs, -⟩ := Prod.mk.inj h
  cases hs
  refine ⟨r, ?_, rfl⟩
  unfold loadRecords at hrecords
  simp only [Act.run_bind, Act.after_ok, Act.run_state, Act.run_settle] at hrecords
  cases hholds : w.holds path with
  | error failure =>
    rw [hholds] at hrecords
    cases hrecords
  | ok isThere =>
    rw [hholds] at hrecords
    cases isThere with
    | false =>
      have hnone : w.disk.bytes? path = none := by
        cases hbytes : w.disk.bytes? path with
        | none => rfl
        | some bytes =>
          rw [World.holds_of_bytes? hbytes] at hholds
          cases hholds
      obtain ⟨_, _, -, hempty⟩ := Act.exists_of_run_bind hrecords
      obtain ⟨hempty, -⟩ := Prod.mk.inj hempty
      cases hempty
      exact .missing hnone
    | true =>
      obtain ⟨r', _, hread, hlogged⟩ := Act.exists_of_run_bind hrecords
      obtain ⟨_, _, -, hsame⟩ := Act.exists_of_run_bind hlogged
      obtain ⟨hsame, -⟩ := Prod.mk.inj hsame
      cases hsame
      exact .read (Prod.mk.inj hread).1

/-- Without a run log, where the directory of the file is, loading leaves everything but what was
emitted. -/
theorem rest_of_load {result : Except Failure Store} {w' : World} (h : load path w = (result, w'))
    (hlog : w.runLog = none) (hdirectory : Disk.isDirectory w.disk path.parent = true) :
    ∃ events, w' = { w with events } := by
  have hmade := World.makeDirectories_of_isDirectory hdirectory
  have hemit : ∀ fields, ∃ events, (World.emit .info "store_loaded" fields w).2 = { w with events } := by
    intro fields
    unfold World.emit
    split
    · exact ⟨_, World.record_of_runLog hlog _⟩
    · exact ⟨w.events, rfl⟩
  have hrecords : ∃ events, (loadRecords path w).2 = { w with events } := by
    unfold loadRecords
    simp only [Act.run_bind, Act.after_ok, Act.run_state, Act.run_settle]
    cases w.holds path with
    | error failure => exact ⟨w.events, rfl⟩
    | ok isThere =>
      cases isThere with
      | false =>
        simp only [Act.after_ok, Bool.not_false, if_true, Act.run_bind, Act.run_rename, hmade]
        exact ⟨w.events, rfl⟩
      | true =>
        simp only [Act.after_ok, Bool.not_true, Bool.false_eq_true, if_false, Act.run_bind, Act.run_settle]
        cases readRecords path w with
        | error failure => exact ⟨w.events, rfl⟩
        | ok r =>
          obtain ⟨events, hevents⟩ := hemit [("data_file", .text path.text),
            ("vaults", .int r.vaults.length), ("accounts", .int r.accounts.length)]
          refine ⟨events, ?_⟩
          simp only [Act.after_ok, Act.run_bind]
          rw [← hevents]
          rcases World.emit .info "store_loaded" _ w with ⟨_ | _, w'⟩ <;> rfl
  obtain ⟨events, hevents⟩ := hrecords
  refine ⟨events, ?_⟩
  unfold load at h
  rw [Act.run_bind] at h
  rcases hrun : loadRecords path w with ⟨failure | r, w₁⟩ <;> rw [hrun] at h hevents <;> cases h <;>
    exact hevents

/-- A disk with a data file that holds one vault. -/
def sampleVaultWorld : World :=
  World.fresh 0
    [([Disk.Name.ofText "vaults.json"], .file (Depot.bytesOf (Records.toJson ⟨[sampleVault], []⟩)).1)]

end Store

end VaultConsole
