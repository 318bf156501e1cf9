import VaultConsole.Proofs.Interpreter.Reachable
import VaultConsole.Proofs.Interpreter.Wide
import VaultConsole.Proofs.Store.Loading
import VaultConsole.Proofs.Time.Wall
import VaultConsole.Render

/-!
# Which entries can be shown

An entry is shown with what the store holds now. A record that is gone is shown as deleted, a text that
is missing has a word in its place, and any number of rows has room. Only a date can be in the way: a
data file may hold one that the universal clock, or the clocks of the user's zone, have no date for.

* `Snapshot.dates`: the dates that an entry shows.
* `Snapshot.Dated`: what there is unless a date is in the way.
* `Session.Shows`: when an entry can be shown.
* `HostStep.shows_of_load`: **over a data file that was loaded, an entry can be shown just if all its
  dates can.**
-/

namespace VaultConsole

namespace Snapshot

variable {α β : Type}

/-- A result that is there if a condition on dates is met, and is missing for that reason otherwise. -/
structure Dated (ok : Prop) (result : Except Failure α) : Prop where
  shown : ok → ∃ a, result = .ok a
  refused : ¬ ok → result = .error .dateOutOfRange

namespace Dated

variable {ok ok' : Prop} {result : Except Failure α}

theorem congr (h : Dated ok result) (hiff : ok ↔ ok') : Dated ok' result := propext hiff ▸ h

theorem pure (a : α) : Dated True (.ok a) := ⟨fun _ => ⟨a, rfl⟩, fun hnot => absurd trivial hnot⟩

theorem bind {next : α → Except Failure β} (h : Dated ok result) (hnext : ∀ a, Dated ok' (next a)) :
    Dated (ok ∧ ok') (result >>= next) := by
  by_cases hok : ok
  · obtain ⟨a, rfl⟩ := h.shown hok
    exact (hnext a).congr (by simp [hok])
  · rw [h.refused hok]
    exact ⟨fun hboth => absurd hboth.1 hok, fun _ => rfl⟩

theorem map {f : α → β} (h : Dated ok result) : Dated ok (do return f (← result)) :=
  (h.bind fun a => .pure (f a)).congr (by rw [and_true])

theorem mapM {ok : α → Prop} {f : α → Except Failure β} {items : List α}
    (h : ∀ a ∈ items, Dated (ok a) (f a)) : Dated (∀ a ∈ items, ok a) (items.mapM f) := by
  induction items with
  | nil => exact (Dated.pure []).congr (by simp)
  | cons a rest ih =>
    rw [List.mapM_cons]
    have hrest := ih fun b hb => h b (List.mem_cons_of_mem a hb)
    refine ((h a List.mem_cons_self).bind fun b => hrest.map).congr ?_
    rw [List.forall_mem_cons]

end Dated

variable (s : Snapshot)

theorem dated_wall (t : Timestamp) : Dated (t.ShowsAt s.zone) (s.wall t) := by
  have hsome := t.wall?_isSome_iff s.zone
  unfold wall
  cases hwall : t.wall? s.zone with
  | some w =>
    rw [hwall] at hsome
    exact (Dated.pure w).congr ⟨fun _ => hsome.1 rfl, fun _ => trivial⟩
  | none =>
    rw [hwall] at hsome
    exact ⟨fun hshows => absurd (hsome.2 hshows) Bool.false_ne_true, fun _ => rfl⟩

theorem dated_dateText (t : Timestamp) : Dated (t.ShowsAt s.zone) (s.dateText t) :=
  (s.dated_wall t).map

theorem dated_momentText (t : Timestamp) : Dated (t.ShowsAt s.zone) (s.momentText t) :=
  (s.dated_wall t).map

/-! ## The dates of an entry -/

/-- The dates that the records of a payload are shown with. -/
def payloadDates : Payload → List Timestamp
  | .vaultList ids => (ids.filterMap s.vault?).map (·.created)
  | .accountList _ => []
  | .vaultDetail id _ => (s.vault? id).toList.flatMap fun v => [v.created, v.modified]
  | .accountDetail id _ _ => (s.account? id).toList.map (·.modified)
  | .searchResults _ _ => []
  | .stats _ _ recent => (recent.filterMap s.account?).map (·.modified)

/-- The dates that an entry shows. -/
def dates (e : Entry) : List Timestamp := (e.payload.map s.payloadDates).getD []

/-- The clocks of the zone can show some dates. -/
def CanShow (dates : List Timestamp) : Prop := ∀ t ∈ dates, t.ShowsAt s.zone

theorem dated_vaultRow (number id : Text) :
    Dated (s.CanShow ((s.vault? id).toList.map (·.created))) (s.vaultRow number id) := by
  unfold vaultRow
  cases s.vault? id with
  | none => exact (Dated.pure _).congr (by simp [CanShow])
  | some v => exact (s.dated_dateText v.created).map.congr (by simp [CanShow])

theorem dated_rows {row : Text → Text → Except Failure (List Text)} {ok : Text → Prop}
    (h : ∀ number id, Dated (ok id) (row number id)) (ids : List Text) :
    Dated (∀ id ∈ ids, ok id) (rows row ids) := by
  have hrows : Dated (∀ row ∈ ids.zipIdx, ok row.1)
      (ids.zipIdx.mapM fun place => row (rowNumber ids.length place.2) place.1) :=
    .mapM fun _ _ => h _ _
  refine hrows.map.congr ?_
  conv_rhs => rw [← List.zipIdx_map_fst 0 ids]
  rw [List.forall_mem_map]

theorem dated_vaultDetail (id : Text) (accounts : List Text) :
    Dated (s.CanShow ((s.vault? id).toList.flatMap fun v => [v.created, v.modified]))
      (s.vaultDetail id accounts) := by
  unfold vaultDetail
  cases s.vault? id with
  | none => exact (Dated.pure _).congr (by simp [CanShow])
  | some v =>
    refine ((s.dated_momentText v.created).bind fun created =>
      (s.dated_momentText v.modified).map).congr ?_
    simp [CanShow]

theorem dated_accountDetail (id vaultId : Text) (reveal : Bool) :
    Dated (s.CanShow ((s.account? id).toList.map (·.modified))) (s.accountDetail id vaultId reveal) := by
  unfold accountDetail
  cases s.account? id with
  | none => exact (Dated.pure _).congr (by simp [CanShow])
  | some a => exact (s.dated_momentText a.modified).map.congr (by simp [CanShow])

theorem dated_recentAccount (id : Text) :
    Dated (s.CanShow ((s.account? id).toList.map (·.modified))) (s.recentAccount id) := by
  unfold recentAccount
  cases s.account? id with
  | none => exact (Dated.pure _).congr (by simp [CanShow])
  | some a => exact (s.dated_dateText a.modified).map.congr (by simp [CanShow])

/-- Of records that are found, all dates can be shown if the date of each one can. -/
theorem canShow_filterMap {find : Text → Option α} {date : α → Timestamp} {ids : List Text} :
    s.CanShow ((ids.filterMap find).map date) ↔
      ∀ id ∈ ids, s.CanShow ((find id).toList.map date) := by
  unfold CanShow
  simp only [List.forall_mem_map, List.mem_filterMap, Option.mem_toList]
  constructor
  · exact fun h id hid a ha => h a ⟨id, hid, ha⟩
  · rintro h a ⟨id, hid, ha⟩
    exact h id hid a ha

theorem dated_payloadLines (p : Payload) : Dated (s.CanShow (s.payloadDates p)) (s.payloadLines p) := by
  have hnone : s.CanShow [] := fun _ ht => absurd ht List.not_mem_nil
  cases p with
  | vaultList ids => exact (dated_rows s.dated_vaultRow ids).congr s.canShow_filterMap.symm
  | accountList ids =>
    have hrow : ∀ number id, Dated True (.ok (s.accountRow number id) : Except Failure (List Text)) :=
      fun _ _ => .pure _
    exact (dated_rows hrow ids).congr (by simp [payloadDates, hnone])
  | vaultDetail id accounts => exact s.dated_vaultDetail id accounts
  | accountDetail id vaultId reveal => exact s.dated_accountDetail id vaultId reveal
  | searchResults vaults accounts => exact (Dated.pure _).congr (by simp [payloadDates, hnone])
  | stats vaults accounts recent =>
    exact (Dated.mapM fun id _ => s.dated_recentAccount id).map.congr s.canShow_filterMap.symm

/-- **An entry has a text just if all dates that it shows can be shown**, and nothing else is in the
way of it. -/
theorem dated_entryText (e : Entry) : Dated (s.CanShow (s.dates e)) (s.entryText e) := by
  have hnone : s.CanShow [] := fun _ ht => absurd ht List.not_mem_nil
  unfold entryText dates
  cases e.payload with
  | none => exact (Dated.pure _).congr (by simp [hnone])
  | some p => exact ((s.dated_payloadLines p).map (f := Text.unlines)).map

end Snapshot

namespace Session

/-- What is out of order stays so, and nothing else comes to be. -/
def SameFaults (s s' : Session) : Prop := s'.depot.store.faults = s.depot.store.faults

instance : Loose SameFaults where
  refl _ := rfl
  trans _ _ _ h h' := h'.trans h
  of_steady h := h.depot.faults
  effects _ _ _ := rfl
  scheduler _ _ := rfl
  clipboard _ _ := rfl
  navigator _ _ _ _ := rfl
  exit _ _ _ _ := rfl
  stop _ := rfl

/-- The records of a session, with dates in a zone. -/
def view (zone : Zone) (s : Session) : Snapshot :=
  ⟨s.depot.store.records.vaults, s.depot.store.records.accounts, zone⟩

/-- An entry is shown now just if all dates that it shows can be, and nothing changes by it. -/
structure Shows (zone : Zone) (e : Entry) (s : Session) : Prop where
  shown : (s.view zone).CanShow ((s.view zone).dates e) →
    ∃ text, showEntry zone e s = (.ok text, s)
  refused : ¬ (s.view zone).CanShow ((s.view zone).dates e) →
    showEntry zone e s = (.error .dateOutOfRange, s)
  /-- All dates can be shown that are neither in the first year nor in the last one. -/
  inner : (∀ t ∈ (s.view zone).dates e, 2 ≤ t.year ∧ t.year ≤ 9998) →
    ∃ text, showEntry zone e s = (.ok text, s)

/-- Where nothing is out of order, an entry is shown with the records that there are. -/
theorem showEntry_of_orderly {s : Session} (h : s.depot.store.faults = []) (zone : Zone)
    (e : Entry) : showEntry zone e s = ((s.view zone).entryText e, s) := by
  unfold showEntry
  cases hpayload : e.payload with
  | none =>
    -- an entry without records has the same text over any records
    have hsame : (s.view zone).entryText e = Snapshot.entryText ⟨[], [], zone⟩ e := by
      unfold Snapshot.entryText
      rw [hpayload]
    rw [hsame]
    rfl
  | some p =>
    have hsnapshot : snapshot zone s = (.ok (s.view zone), s) := by
      unfold snapshot
      rw [Act.run_bind, vaultsWith_of_orderly h, Act.after_ok, Act.run_bind,
        accountsWith_of_orderly h]
      rfl
    show (snapshot zone >>= _) s = _
    rw [Act.run_bind, hsnapshot]
    rfl

/-- Where nothing is out of order, only a date is in the way of showing an entry. -/
theorem shows_of_orderly {s : Session} (h : s.depot.store.faults = []) (zone : Zone)
    (e : Entry) : Shows zone e s := by
  have hrun := showEntry_of_orderly h zone e
  have hdated := (s.view zone).dated_entryText e
  have hshown : (s.view zone).CanShow ((s.view zone).dates e) →
      ∃ text, showEntry zone e s = (.ok text, s) := by
    intro hdates
    obtain ⟨text, htext⟩ := hdated.shown hdates
    exact ⟨text, by rw [hrun, htext]⟩
  refine ⟨hshown, fun hdates => by rw [hrun, hdated.refused hdates], fun hyears => ?_⟩
  exact hshown fun t ht => Timestamp.showsAt_of_year zone (hyears t ht).1 (hyears t ht).2

end Session

namespace HostStep

open Interpreter Session

/-- Along a run what is out of order in the store stays so. -/
theorem faults_sequence (steps : List HostStep) (i : Interpreter) :
    (sequence steps i).session.depot.store.faults = i.session.depot.store.faults := by
  have hline : ∀ line, (Interpreter.course line).Keeps (Along SameFaults) :=
    allows_course keeps_announce keeps_conclude
  have hstep : ∀ s : HostStep, s.course.Keeps (Along SameFaults) :=
    fun s => s.keeps_course.mono fun _ _ h => Still.faults h
  exact keeps_sequence hstep hline steps i

/-- **Over a data file that was loaded, only a date is in the way of showing an entry.** This holds after
whatever a host has done and whatever parts outside did, of every entry, and in every zone. -/
theorem shows_of_load {path : Path} {w w' : World} {store : Store}
    (hload : Store.load path w = (.ok store, w')) {session : Session}
    (hstore : session.depot.store = store) (steps : List HostStep) (e : Entry) (zone : Zone) :
    Shows zone e (sequence steps (start session)).session := by
  refine shows_of_orderly ?_ zone e
  have hnone : store.faults = [] := by
    unfold Store.load at hload
    rw [Act.run_bind] at hload
    rcases hrecords : Store.loadRecords path w with ⟨failure | records, w''⟩ <;>
      rw [hrecords] at hload <;> cases hload
    rfl
  rw [faults_sequence]
  exact (congrArg Store.faults hstore).trans hnone

/-- A zone of which the clocks are an hour ahead, and two hours in the summer of 1970. -/
def sampleZone : Zone := .ofAhead fun second => if 7516800 ≤ second ∧ second < 23241600 then 7200 else 3600

/-- A vault from the first hours of the calendar, by a clock that is ahead of the universal one. -/
def sampleFirstVault : Vault :=
  ⟨"v", "Old", "", ⟨1, 1, 1, 0, 0, 0, 0, 3600000000, by decide⟩, Store.sampleMoment⟩

/-- A disk with a data file that holds this vault. -/
def sampleFirstWorld : World :=
  World.fresh 0
    [([Disk.Name.ofText "vaults.json"],
      .file (Depot.bytesOf (Records.toJson ⟨[sampleFirstVault], []⟩)).1)]

/-- The entry that lists a vault. -/
def sampleListing : Entry := .found "Found 1 vault:" (.vaultList ["v"])

theorem shows_of_load_sampleVault :
    ∃ store w', Store.load Store.sampleFile Store.sampleVaultWorld = (.ok store, w') ∧
      Shows sampleZone sampleListing
        (sequence [.submit "vault list"] (start (Session.bare ⟨w', store⟩))).session := by
  have hclock : Store.sampleVaultWorld.localNow = .ok Store.sampleMoment := by decide +kernel
  have hbytes : Store.sampleVaultWorld.disk.bytes? Store.sampleFile =
      some (Depot.bytesOf (Records.toJson ⟨[Store.sampleVault], []⟩)).1 := by rfl
  obtain ⟨w', hload⟩ := Store.load_of_bytes (by rfl) hbytes hclock
  exact ⟨_, w', hload, shows_of_load hload rfl [.submit "vault list"] sampleListing sampleZone⟩

/-- The session over this file, in the world in which it was loaded. -/
def sampleFirstSession : Session :=
  Session.bare ⟨(Store.load Store.sampleFile sampleFirstWorld).2,
    Store.inFile Store.sampleFile ⟨[sampleFirstVault], []⟩⟩

/-- A vault that was loaded is listed, and the list cannot be shown. -/
theorem exists_unshown_entry :
    (Store.load Store.sampleFile sampleFirstWorld).1 = .ok sampleFirstSession.depot.store ∧
      sampleListing ∈
        (sequence [.submit "vault list"] (start sampleFirstSession)).log.entries ∧
      (showEntry sampleZone sampleListing
          (sequence [.submit "vault list"] (start sampleFirstSession)).session).1 =
        .error .dateOutOfRange := by
  have hclock : sampleFirstWorld.localNow = .ok Store.sampleMoment := by decide +kernel
  have hbytes : sampleFirstWorld.disk.bytes? Store.sampleFile =
      some (Depot.bytesOf (Records.toJson ⟨[sampleFirstVault], []⟩)).1 := by rfl
  obtain ⟨w', hload⟩ := Store.load_of_bytes (by rfl) hbytes hclock
  exact ⟨congrArg Prod.fst hload, by decide +kernel, by decide +kernel⟩

end HostStep

end VaultConsole
