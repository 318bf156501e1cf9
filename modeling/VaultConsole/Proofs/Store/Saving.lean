import VaultConsole.Proofs.Act
import VaultConsole.Proofs.Disk.Directories
import VaultConsole.Proofs.Json.RoundTrip
import VaultConsole.Proofs.Record.Document
import VaultConsole.Proofs.Text.Utf8
import VaultConsole.Store.Basic

/-!
# Saving and loading

A data file is written in one of four ways: the system refuses it before it is opened, then the
file is what it was; a text of the document has no encoding, then the file ends before that text;
the disk is full, then the file ends where the room ended; or it is written to its end. In the
last case its bytes are the UTF-8 of the indented document, which is read as the document, and a
document of records is read as the records.

* `Depot.Rewrite`, `Depot.rewrite_writeDocument`: the four ways.
* `Depot.save_eq`: what saving does to a store.
* `Store.load_of_save`: **what was saved is loaded.**
-/

namespace VaultConsole

namespace World

/-- The clock shows the time in the zone of the machine. -/
def ShowsTime (w : World) : Prop := ∃ moment, w.localNow = .ok moment

theorem ShowsTime.of_clock {w w' : World} (h : w.ShowsTime) (hclock : w'.clock = w.clock) :
    w'.ShowsTime := by
  obtain ⟨moment, hmoment⟩ := h
  refine ⟨moment, ?_⟩
  rw [localNow, hclock]
  exact hmoment

/-- Under a clock that shows a time, an event is emitted. -/
theorem emit_eq {w : World} {moment : Timestamp} (hc : w.localNow = .ok moment)
    (severity : Severity) (name : Text) (fields : Table Text Json) :
    emit severity name fields w = (.ok (), w.record { severity, name, moment, fields }) := by
  unfold emit
  rw [hc]

/-- Without a run log, an event is emitted and nothing else changes. -/
theorem record_of_runLog {w : World} (h : w.runLog = none) (e : Event) :
    w.record e = { w with events := w.events ++ [e] } := by
  unfold record writeRunLog
  simp only [h]

theorem makeDirectories_of_isDirectory {path : Path} {w : World}
    (h : Disk.isDirectory w.disk path = true) : makeDirectories path w = (.ok (), w) := by
  unfold makeDirectories
  rw [Disk.makeDirectories_of_isDirectory h]

/-- A file that can be read is there. -/
theorem holds_of_bytes? {path : Path} {w : World} {bytes : List UInt8}
    (h : w.disk.bytes? path = some bytes) : w.holds path = .ok true := by
  obtain ⟨place, hw, hn⟩ := (Disk.bytes?_eq_some_iff _ path bytes).1 h
  unfold holds Disk.holds
  simp only [hw, hn]
  rfl

theorem holds_eq_ok_iff {path : Path} {w : World} {isThere : Bool} :
    w.holds path = .ok isThere ↔ w.disk.holds path = .ok isThere := by
  unfold holds
  cases w.disk.holds path with
  | error problem => exact iff_of_false nofun nofun
  | ok value =>
    constructor <;>
    · rintro ⟨⟩
      rfl

/-- Pieces that all have an encoding are written whole. -/
theorem encode_of_encodePieces {pieces : List Text} (h : (encodePieces pieces).2 = none) :
    Text.Utf8.encode pieces.flatten = .ok (encodePieces pieces).1 := by
  induction pieces with
  | nil => rfl
  | cons piece rest ih =>
    unfold encodePieces at h ⊢
    cases he : Text.Utf8.encode piece with
    | error problem => simp [he] at h
    | ok bytes =>
      simp only [he] at h ⊢
      have hrest := ih h
      rw [Text.Utf8.encode_eq_ok_iff] at he hrest ⊢
      rw [List.flatten_cons, List.forall_mem_append, List.flatMap_append, ← he.2, ← hrest.2]
      exact ⟨⟨he.1, hrest.1⟩, rfl⟩

end World

namespace Depot

/-- The bytes that a document is written in, up to the first text without an encoding, and what
is wrong with that text. -/
def bytesOf (document : Json) : List UInt8 × Option Text.Utf8.EncodeProblem :=
  World.encodePieces (document.tokens Json.fileLayout)

/-- The disk after the directory of a data file was made, as far as that went. -/
def prepared (path : Path) (disk : Disk) : Disk := (disk.makeDirectories path.parent).2

/-- How writing a document into a data file can end, and with which disk. -/
inductive Rewrite (path : Path) (document : Json) (disk : Disk) : Except Failure Unit → Disk → Prop
  /-- Before the file is opened: it is what it was. -/
  | refused (problem : Disk.Problem) (unopened : problem ≠ .full)
      (same : (prepared path disk).bytes? path = disk.bytes? path) :
      Rewrite path document disk (.error (writeFailure path problem)) (prepared path disk)
  /-- At a text without an encoding: the file holds what comes before. -/
  | cut (disk' : Disk) (problem : Text.Utf8.EncodeProblem)
      (at_ : (bytesOf document).2 = some problem)
      (bytes : disk'.bytes? path = some (bytesOf document).1) :
      Rewrite path document disk (.error (.unencodable problem)) disk'
  /-- At the end of the room on the disk. -/
  | full (disk' : Disk) (room : Nat) (short : room < (bytesOf document).1.length)
      (written : (prepared path disk).write ((bytesOf document).1.take room) path = .ok disk') :
      Rewrite path document disk (.error (.unwritableData path.text .full)) disk'
  /-- At the end of the document. -/
  | whole (disk' : Disk) (all : (bytesOf document).2 = none)
      (bytes : disk'.bytes? path = some (bytesOf document).1) :
      Rewrite path document disk (.ok ()) disk'

/-- A depot with another disk. -/
def withDisk (disk : Disk) (d : Depot) : Depot := { d with world := { d.world with disk } }

/-- All bytes fit, or a beginning of them does. -/
theorem fitting_cases (bytes : List UInt8) (w : World) :
    (w.isShort bytes = false ∧ w.fitting bytes = bytes) ∨
      ∃ room, room < bytes.length ∧ w.isShort bytes = true ∧ w.fitting bytes = bytes.take room := by
  unfold World.fitting World.isShort
  cases w.room with
  | none => exact .inl ⟨rfl, rfl⟩
  | some room =>
    by_cases h : room < bytes.length
    · exact .inr ⟨room, h, by simpa using h, rfl⟩
    · exact .inl ⟨by simpa using h, List.take_of_length_le (by omega)⟩

/-- A document that was written without a failure is in its file whole, and nothing but the disk has
changed. -/
theorem written_of_writeDocument {path : Path} {document : Json} {w w' : World}
    (h : World.writeDocument path document w = (.ok (), w')) :
    (bytesOf document).2 = none ∧ w.disk.write (bytesOf document).1 path = .ok w'.disk ∧
      w' = { w with disk := w'.disk } := by
  obtain ⟨_, w₁, hfile, hproblem⟩ := Act.exists_of_run_bind h
  have hnone : (bytesOf document).2 = none ∧ w₁ = w' := by
    rw [show World.encodePieces (document.tokens Json.fileLayout) = bytesOf document from rfl] at hproblem
    cases hp : (bytesOf document).2 with
    | none =>
      rw [hp] at hproblem
      exact ⟨rfl, (Prod.mk.inj hproblem).2⟩
    | some problem =>
      rw [hp] at hproblem
      cases hproblem
  obtain ⟨hnone, rfl⟩ := hnone
  refine ⟨hnone, ?_⟩
  have hfile : World.writeFile path (bytesOf document).1 w = (.ok (), w₁) := hfile
  unfold World.writeFile at hfile
  rcases fitting_cases (bytesOf document).1 w with ⟨hroomy, hfits⟩ | ⟨room, -, hshort, -⟩
  · rw [hfits] at hfile
    cases hw : w.disk.write (bytesOf document).1 path with
    | error problem =>
      rw [hw] at hfile
      cases hfile
    | ok disk =>
      rw [hw] at hfile
      obtain ⟨-, rfl⟩ := Prod.mk.inj hfile
      exact ⟨rfl, rfl⟩
  · rw [hshort] at hfile
    split at hfile <;> cases hfile

/-- How a document that was not written whole leaves the world: its file was not opened, or it holds
something else, which where there is room for everything is so only for want of an encoding. -/
inductive Stopped (path : Path) (w : World) (problem : Disk.Problem) : World → Prop
  | unopened (closed : ∀ bytes disk, w.disk.write bytes path ≠ .ok disk) : Stopped path w problem w
  | spoilt (bytes : List UInt8) (disk : Disk) (written : w.disk.write bytes path = .ok disk)
      (crowded : w.room = none → ∃ reason, problem = .unencodable reason) :
      Stopped path w problem { w with disk }

theorem stopped_of_writeDocument {path : Path} {document : Json} {w w' : World} {problem : Disk.Problem}
    (h : World.writeDocument path document w = (.error problem, w')) : Stopped path w problem w' := by
  unfold World.writeDocument at h
  simp only [Act.run_bind, World.writeFile] at h
  rw [show World.encodePieces (document.tokens Json.fileLayout) = bytesOf document from rfl] at h
  cases hw : w.disk.write (w.fitting (bytesOf document).1) path with
  | error refusal =>
    rw [hw] at h
    cases h
    refine .unopened fun bytes disk hopen => ?_
    obtain ⟨disk', hopen⟩ := Disk.write_of_write hopen
    cases hw.symm.trans hopen
  | ok disk =>
    rw [hw] at h
    cases hshort : w.isShort (bytesOf document).1 with
    | true =>
      simp only [hshort, if_true, Act.after_error] at h
      cases h
      refine .spoilt _ disk hw fun hroom => ?_
      rw [World.isShort, hroom] at hshort
      cases hshort
    | false =>
      simp only [hshort, Bool.false_eq_true, if_false, Act.after_ok] at h
      cases hp : (bytesOf document).2 with
      | none =>
        rw [hp] at h
        cases h
      | some reason =>
        rw [hp] at h
        cases h
        exact .spoilt _ disk hw fun _ => ⟨reason, rfl⟩

/-- **A document is written in one of four ways**, and nothing but the disk changes. -/
theorem rewrite_writeDocument (path : Path) (document : Json) (d : Depot) :
    ∃ result disk', writeDocument path document d = (result, d.withDisk disk') ∧
      Rewrite path document d.world.disk result disk' := by
  unfold writeDocument inWorld
  simp only [Act.run_within, Act.run_rename, Act.run_bind, World.makeDirectories]
  cases hm : d.world.disk.makeDirectories path.parent with
  | mk result made =>
    have hmade : made = prepared path d.world.disk := by rw [prepared, hm]
    cases result with
    | error problem =>
      refine ⟨_, made, rfl, ?_⟩
      rw [hmade]
      refine .refused problem ?_ (Disk.bytes?_of_makeDirectories_error (by rw [hm]))
      have hfull := Disk.makeLevels_ne_full path.parent.names.length d.world.disk path.parent
      rintro rfl
      exact hfull (by rw [← Disk.makeDirectories.eq_1, hm])
    | ok _ =>
      simp only [Act.after_ok, World.writeDocument, Act.run_bind, World.writeFile]
      rw [show World.encodePieces (document.tokens Json.fileLayout) = bytesOf document from rfl]
      cases hw : made.write (World.fitting (bytesOf document).1 { d.world with disk := made })
          path with
      | error problem =>
        refine ⟨.error (writeFailure path problem), made, rfl, ?_⟩
        rw [hmade] at hw ⊢
        refine .refused problem (fun h => Disk.write_ne_full _ _ _ (h ▸ hw)) ?_
        -- a file that can be read could have been written, so there is none
        cases hb : d.world.disk.bytes? path with
        | some bytes => exact (Disk.extends_makeDirectories _ _).bytes? hb
        | none =>
          cases ha : (prepared path d.world.disk).bytes? path with
          | none => rfl
          | some bytes =>
            obtain ⟨disk', hok⟩ := Disk.write_of_bytes? ha
              (World.fitting (bytesOf document).1 { d.world with disk := prepared path d.world.disk })
            rw [hok] at hw
            cases hw
      | ok disk' =>
        rcases fitting_cases (bytesOf document).1 { d.world with disk := made } with
          ⟨hroomy, hfits⟩ | ⟨room, hroom, hshort, htake⟩
        · rw [hfits] at hw
          simp only [hroomy, Bool.false_eq_true, if_false, Act.after_ok]
          cases hp : (bytesOf document).2 with
          | none => exact ⟨_, disk', rfl, .whole disk' hp (Disk.bytes?_write hw)⟩
          | some problem => exact ⟨_, disk', rfl, .cut disk' problem hp (Disk.bytes?_write hw)⟩
        · rw [htake, hmade] at hw
          simp only [hshort, if_true, Act.after_error]
          exact ⟨_, disk', rfl, .full disk' room hroom hw⟩

/-- A depot whose data file holds its records. -/
def saved (path : Path) (d : Depot) : Depot :=
  { d with store := { d.store with keeping := .file path d.store.records.toJson } }

/-- **What saving does**: unless it is out of order, the data file is written anew, and from then
on it is known to hold the records. -/
theorem save_eq {d : Depot} {path : Path} {document : Json}
    (hk : d.store.keeping = .file path document)
    (hd : Table.get? .document d.store.faults = none) :
    save d =
      match Table.get? .save d.store.faults with
      | some (.fails failure) => (.error failure, d)
      | some (.answers value) => (.ok (.foreign value), d)
      | _ =>
        match writeDocument path d.store.records.toJson d with
        | (.ok _, d') => (.ok (.own ()), d'.saved path)
        | (.error failure, d') => (.error failure, d') := by
  have hdoc : Depot.document d = (.ok (.own d.store.records), d) := by
    unfold Depot.document unlessFaulty
    simp only [Act.run_bind, Act.run_look, hd]
    rfl
  have hsave : (Answer.own <$> saveNow : Act Failure Depot (Answer Unit)) d =
      match writeDocument path d.store.records.toJson d with
      | (.ok _, d') => (.ok (.own ()), d'.saved path)
      | (.error failure, d') => (.error failure, d') := by
    obtain ⟨result, disk', hw, -⟩ := rewrite_writeDocument path d.store.records.toJson d
    simp only [saveNow, Act.run_map, Act.run_bind, Act.run_look, Act.after_ok, hk, hdoc,
      Answer.toJson, hw]
    cases result <;> rfl
  unfold save unlessFaulty
  rw [Act.run_bind, Act.run_look, Act.after_ok]
  cases hf : Table.get? .save d.store.faults with
  | none => exact hsave
  | some fault =>
    cases fault with
    | fails failure => rfl
    | answers value => rfl
    | lists records => exact hsave
    | labels values => exact hsave

/-- After a save without a failure, the document of the records is in the data file whole. -/
theorem written_of_save {path : Path} {document : Json} {d d' : Depot} {answer : Answer Unit}
    (hk : d.store.keeping = .file path document) (hf : d.store.faults = [])
    (h : save d = (.ok answer, d')) :
    (bytesOf d.store.records.toJson).2 = none ∧
      (prepared path d.world.disk).write (bytesOf d.store.records.toJson).1 path = .ok d'.world.disk := by
  rw [save_eq hk (by rw [hf]; rfl), hf] at h
  simp only [Table.get?] at h
  rcases hwrite : writeDocument path d.store.records.toJson d with ⟨failure | _, d₁⟩ <;> rw [hwrite] at h
  · cases h
  · obtain ⟨-, rfl⟩ := Prod.mk.inj h
    unfold writeDocument inWorld at hwrite
    rw [Act.run_within, Act.run_rename] at hwrite
    obtain ⟨hresult, rfl⟩ := Prod.mk.inj hwrite
    rcases hrun : (do World.makeDirectories path.parent
                      World.writeDocument path d.store.records.toJson : Act Disk.Problem World Unit)
        d.world with ⟨problem | _, w'⟩ <;> rw [hrun] at hresult
    · cases hresult
    · obtain ⟨_, w₁, hmade, hrun'⟩ := Act.exists_of_run_bind hrun
      obtain ⟨-, rfl⟩ := Prod.mk.inj hmade
      obtain ⟨hnone, hwritten, -⟩ := written_of_writeDocument hrun'
      exact ⟨hnone, hwritten⟩

/-- A save that fails, where the directory of the data file is, leaves the file as it was or spoils it. -/
theorem disk_of_save_error {path : Path} {document : Json} {d d' : Depot} {failure : Failure}
    (hk : d.store.keeping = .file path document) (hf : d.store.faults = [])
    (hdirectory : Disk.isDirectory d.world.disk path.parent = true) (h : save d = (.error failure, d')) :
    d'.world.disk = d.world.disk ∨ ∃ bytes, d.world.disk.write bytes path = .ok d'.world.disk ∧
      (d.world.room = none → failure.kind = .encoding) := by
  rw [save_eq hk (by rw [hf]; rfl), hf] at h
  simp only [Table.get?, writeDocument, inWorld, Act.run_within, Act.run_rename, Act.run_bind,
    World.makeDirectories_of_isDirectory hdirectory, Act.after_ok] at h
  rcases hrun : World.writeDocument path d.store.records.toJson d.world with ⟨problem | _, w'⟩ <;>
    simp only [hrun, Except.mapError] at h
  · cases h
    cases stopped_of_writeDocument hrun with
    | unopened closed => exact .inl rfl
    | spoilt bytes disk written crowded =>
      refine .inr ⟨bytes, written, fun hroom => ?_⟩
      obtain ⟨reason, rfl⟩ := crowded hroom
      rfl
  · cases h

end Depot

/-! ## Loading -/

namespace Records

/-- No key repeats in the document of records. -/
theorem distinct_toJson (r : Records) : Json.Distinct r.toJson := by
  refine .object (by simp only [Table.keys, List.map_cons, List.map_nil]; decide) fun member hm => ?_
  simp only [List.mem_cons, List.not_mem_nil, or_false] at hm
  rcases hm with rfl | rfl <;> refine .array fun item hi => ?_
  · obtain ⟨v, -, rfl⟩ := List.mem_map.1 hi
    refine .object (by simp only [Table.keys, List.map_cons, List.map_nil]; decide) fun m hm => ?_
    simp only [List.mem_cons, List.not_mem_nil, or_false] at hm
    rcases hm with rfl | rfl | rfl | rfl | rfl <;> exact .text _
  · obtain ⟨a, -, rfl⟩ := List.mem_map.1 hi
    refine .object (by simp only [Table.keys, List.map_cons, List.map_nil]; decide) fun m hm => ?_
    simp only [List.mem_cons, List.not_mem_nil, or_false] at hm
    rcases hm with rfl | rfl | rfl | rfl | rfl | rfl | rfl | rfl | rfl <;> exact .text _

/-- It is made of texts, arrays and objects, three deep. -/
theorem obstacle?_toJson (r : Records) : Json.obstacle? Json.depthLimit r.toJson = none := by
  refine Json.obstacle?_object_eq_none_iff.2 fun member hm => ?_
  simp only [List.mem_cons, List.not_mem_nil, or_false] at hm
  rcases hm with rfl | rfl <;> refine Json.obstacle?_array_eq_none_iff.2 fun item hi => ?_
  · obtain ⟨v, -, rfl⟩ := List.mem_map.1 hi
    refine Json.obstacle?_object_eq_none_iff.2 fun m hm => ?_
    simp only [List.mem_cons, List.not_mem_nil, or_false] at hm
    rcases hm with rfl | rfl | rfl | rfl | rfl <;> exact Json.obstacle?_text _ _
  · obtain ⟨a, -, rfl⟩ := List.mem_map.1 hi
    refine Json.obstacle?_object_eq_none_iff.2 fun m hm => ?_
    simp only [List.mem_cons, List.not_mem_nil, or_false] at hm
    rcases hm with rfl | rfl | rfl | rfl | rfl | rfl | rfl | rfl | rfl <;> exact Json.obstacle?_text _ _

end Records

namespace Store

/-- A data file that holds the document of records has those records. -/
theorem readRecords_of_bytes {path : Path} {w : World} {r : Records}
    (hall : (Depot.bytesOf r.toJson).2 = none)
    (hb : w.disk.bytes? path = some (Depot.bytesOf r.toJson).1) : readRecords path w = .ok r := by
  have hread : w.disk.read path = .ok (Depot.bytesOf r.toJson).1 := by
    rwa [Disk.read_eq_ok_iff, ← Disk.bytes?_eq_some_iff]
  have hencode : Text.Utf8.encode (Json.indented r.toJson) = .ok (Depot.bytesOf r.toJson).1 :=
    World.encode_of_encodePieces hall
  have htext : w.readText path = .ok (Json.indented r.toJson) := by
    unfold World.readText World.readWhole
    rw [hread]
    simp only [Text.Utf8.decode_of_encode hencode]
    -- carriage returns are escaped, so no line end is changed by reading
    have hplain : Json.carriageReturn ∉ Json.indented r.toJson :=
      Json.not_mem_indented r.distinct_toJson
    show Except.ok (Text.unifyNewlines _) = _
    rw [Text.unifyNewlines_eq_self hplain]
  unfold readRecords
  rw [htext]
  simp only [Json.parse_indented r.distinct_toJson r.obstacle?_toJson, Records.ofJson_toJson]

/-- The store of records in a data file, with nothing out of order and no account held. -/
def inFile (path : Path) (r : Records) : Store :=
  { records := r, keeping := .file path r.toJson, faults := [], held := [] }

/-- A data file with readable records is loaded, if the clock shows a time for the log. -/
theorem load_of_readRecords {path : Path} {w : World} {r : Records} {bytes : List UInt8}
    {moment : Timestamp} (hb : w.disk.bytes? path = some bytes) (hr : readRecords path w = .ok r)
    (hc : w.localNow = .ok moment) : ∃ w', load path w = (.ok (inFile path r), w') := by
  have hholds := World.holds_of_bytes? hb
  unfold load loadRecords
  simp only [Act.run_bind, Act.after_ok, Act.run_state, Act.run_settle, hholds, hr, Bool.not_true,
    Bool.false_eq_true, if_false, World.emit_eq hc]
  exact ⟨_, rfl⟩

/-- A file that holds the document of some records is loaded as these. -/
theorem load_of_bytes {path : Path} {w : World} {r : Records} {moment : Timestamp}
    (hall : (Depot.bytesOf r.toJson).2 = none)
    (hb : w.disk.bytes? path = some (Depot.bytesOf r.toJson).1) (hc : w.localNow = .ok moment) :
    ∃ w', load path w = (.ok (inFile path r), w') :=
  load_of_readRecords hb (readRecords_of_bytes hall hb) hc

/-- **What was saved is loaded**: after a save that succeeded, the data file gives a store with
the same vaults and the same accounts, field by field and in order. -/
theorem load_of_save {path : Path} {document : Json} {d d' : Depot} {answer : Answer Unit}
    {moment : Timestamp} (hk : d.store.keeping = .file path document) (hf : d.store.faults = [])
    (hs : Depot.save d = (.ok answer, d')) (hc : d'.world.localNow = .ok moment) :
    ∃ w', load path d'.world = (.ok (inFile path d.store.records), w') := by
  rw [Depot.save_eq hk (by rw [hf]; rfl), hf] at hs
  obtain ⟨result, disk', hw, hrewrite⟩ :=
    Depot.rewrite_writeDocument path d.store.records.toJson d
  simp only [Table.get?, hw] at hs
  cases hrewrite with
  | refused problem unopened same => cases hs
  | cut disk' problem at_ bytes => cases hs
  | full disk' room short written => cases hs
  | whole disk' all bytes =>
    cases hs
    exact load_of_readRecords bytes (readRecords_of_bytes all bytes) hc

/-- A data file at the root of an empty disk, under a clock at the beginning of 1970. -/
def sampleFile : Path := ⟨1, ["vaults.json"]⟩

@[inherit_doc sampleFile] def sampleMoment : Timestamp := ⟨1970, 1, 1, 0, 0, 0, 0, 0, by decide⟩

@[inherit_doc sampleFile] def sampleDepot (r : Records) : Depot :=
  ⟨World.fresh 0 [], inFile sampleFile r⟩

/-- A vault with quotes, a backslash, controls, a line separator, an empty text, and a distance
from the universal clock to the microsecond. -/
def sampleVault : Vault :=
  { id := "v", name := "\"\\\n\r\x00\u2028", description := "", created := sampleMoment
    modified := ⟨2024, 2, 29, 23, 59, 59, 999999, -86399999999, by decide⟩ }

theorem load_of_save_sampleVault :
    ∃ d' w', Depot.save (sampleDepot ⟨[sampleVault], []⟩) = (.ok (.own ()), d') ∧
      load sampleFile d'.world = (.ok (inFile sampleFile ⟨[sampleVault], []⟩), w') := by
  have hsave : Depot.save (sampleDepot ⟨[sampleVault], []⟩) =
      (.ok (.own ()), (Depot.save (sampleDepot ⟨[sampleVault], []⟩)).2) := by rfl
  have hclock : (Depot.save (sampleDepot ⟨[sampleVault], []⟩)).2.world.localNow =
      .ok sampleMoment := by decide +kernel
  obtain ⟨w', hload⟩ := load_of_save rfl rfl hsave hclock
  exact ⟨_, w', hsave, hload⟩

end Store

end VaultConsole
