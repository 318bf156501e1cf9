import VaultConsole.Proofs.Store.Settling

/-!
# All or nothing

An operation that fails should leave a store with a data file as it was, in memory and on the
disk. It does where it is refused before anything changes, and where storage failed before the
file was opened, since such a change is taken back. It does not otherwise: on a full disk the
change is taken back in memory alone and the file ends early, and where saving fails in another
way the change stays in memory, and a text without an encoding leaves the file cut off.

* `Depot.Untouched`: the records and the bytes of the data file are what they were.
* `Mutation.FailsCleanly`: the failures that leave everything as it was.
* `Mutation.untouched_iff_failsCleanly`: **which failures leave everything as it was**, and what
  the others leave.
-/

namespace VaultConsole

namespace Depot

/-- The records and the bytes of a data file are what they were. -/
structure Untouched (path : Path) (d d' : Depot) : Prop where
  records : d'.store.records = d.store.records
  bytes : d'.world.disk.bytes? path = d.world.disk.bytes? path

/-- A change that stays in memory although it could not be saved: the data file is what it was,
or it ends before the first text of the new document that has no encoding. -/
structure KeptInMemory (path : Path) (d d' : Depot) (failure : Failure) (r : Records) : Prop where
  records : d'.store.records = r
  bytes : d'.world.disk.bytes? path = d.world.disk.bytes? path ∨
    ∃ problem, failure = .unencodable problem ∧ (bytesOf r.toJson).2 = some problem ∧
      d'.world.disk.bytes? path = some (bytesOf r.toJson).1

/-- A change that is taken back in memory alone: the data file ends where the disk was full. -/
structure CutOff (path : Path) (d d' : Depot) (r : Records) : Prop where
  records : d'.store.records = d.store.records
  bytes : EndsEarly path r.toJson d'.world.disk

end Depot

namespace Mutation

/-- A failure before the operation changes anything, or of storage before the data file is
opened. -/
def FailsCleanly (path : Path) (d : Depot) (failure : Failure) (m : Mutation) : Prop :=
  m.plan d.world d.store.records = .refused failure ∨
    (failure.kind = .storage ∧ ¬ Depot.RanFull path d failure)

/-- An operation whose changes can be seen: it does not put equal records in place, and the data
file does not happen to be a beginning of the new document. -/
def Shows (path : Path) (d : Depot) (m : Mutation) : Prop :=
  ∀ outcome r, m.plan d.world d.store.records = .change outcome r →
    r ≠ d.store.records ∧ ¬ Depot.EndsEarly path r.toJson d.world.disk

variable {m : Mutation} {d d' : Depot} {path : Path} {failure : Failure}

theorem ranFull_staged (r : Records) :
    Depot.RanFull path (m.staged r d) failure ↔ Depot.RanFull path d failure := by
  unfold Depot.RanFull
  rw [staged_faults]

/-- A change is settled, and this fails: it is taken back whole, it is taken back in memory alone
from a full disk, or it stays in memory. -/
theorem failed_cases (h : OnlySaveFails d.store.faults) (hstep : d.store.InStep path)
    {moment : Timestamp} (hclock : d.world.localNow = .ok moment) (hlog : d.world.LogApart path)
    (hr : m.run d = (.error failure, d')) :
    (m.FailsCleanly path d failure ∧ d.Untouched path d') ∨
      ∃ outcome r, m.plan d.world d.store.records = .change outcome r ∧
        ((Depot.RanFull path d failure ∧ d.CutOff path d' r) ∨
          (failure.kind ≠ .storage ∧ d.KeptInMemory path d' failure r)) := by
  obtain ⟨now, hnow⟩ := World.now_of_localNow hclock
  generalize hresult : (Except.error failure : Except Failure (Answer Outcome)) = result at hr
  cases ending_run h hstep hr with
  | refused failure' plan =>
    cases hresult
    exact .inl ⟨.inl plan, rfl, rfl⟩
  | undated failure' r plan => exact absurd plan (plan_ne_undated hnow _ _ _)
  | idle outcome plan => cases hresult
  | settled outcome r plan answer d' settled =>
    cases settled with
    | kept disk all bytes => cases hresult
    | takenBack failure' storage disk event reached bytes =>
      cases hresult
      -- taking a change back is an event, which goes to another file
      have hlog' : (m.staged r d).world.LogApart path := by
        unfold World.LogApart
        rwa [staged_disk, staged_runLog]
      have hrecord := World.bytes?_record hlog' reached event
      rcases bytes with ⟨hopen, hsame⟩ | ⟨hfull, room, hroom, hcut⟩
      · rw [ranFull_staged] at hopen
        exact .inl ⟨.inr ⟨storage, hopen⟩, rfl, by rw [← staged_disk m r d, ← hsame, ← hrecord]; rfl⟩
      · rw [ranFull_staged] at hfull
        rw [staged_records] at hroom hcut
        exact .inr ⟨outcome, r, plan, .inl ⟨hfull, rfl, room, hroom, hrecord.trans hcut⟩⟩
    | unlogged failure' disk noTime =>
      rw [staged_localNow, hclock] at noTime
      cases noTime
    | left failure' other saving disk bytes =>
      cases hresult
      rw [staged_records, staged_disk] at bytes
      exact .inr ⟨outcome, r, plan, .inr ⟨other, staged_records m r d, bytes⟩⟩

/-- **A failed operation leaves everything as it was exactly if it fails cleanly**, where its
changes can be seen. Otherwise the data file of a full disk ends early, or the change stays in
memory and the data file does not hold it. -/
theorem untouched_iff_failsCleanly (h : OnlySaveFails d.store.faults)
    (hstep : d.store.InStep path) {moment : Timestamp} (hclock : d.world.localNow = .ok moment)
    (hlog : d.world.LogApart path) (hr : m.run d = (.error failure, d')) :
    (m.FailsCleanly path d failure → d.Untouched path d') ∧
      (m.Shows path d → d.Untouched path d' → m.FailsCleanly path d failure) ∧
      (¬ m.FailsCleanly path d failure →
        ∃ outcome r, m.plan d.world d.store.records = .change outcome r ∧
          (d.CutOff path d' r ∨ d.KeptInMemory path d' failure r)) := by
  rcases failed_cases h hstep hclock hlog hr with
    ⟨hclean, hsame⟩ | ⟨outcome, r, plan, ⟨hfull, hcut⟩ | ⟨other, hkept⟩⟩
  · exact ⟨fun _ => hsame, fun _ _ => hclean, fun hn => absurd hclean hn⟩
  · refine ⟨fun hclean => ?_, fun hshows hsame => ?_, fun _ => ⟨outcome, r, plan, .inl hcut⟩⟩
    · rcases hclean with hrefused | ⟨-, hopen⟩
      · rw [plan] at hrefused
        cases hrefused
      · exact absurd hfull hopen
    · obtain ⟨room, hroom, hbytes⟩ := hcut.bytes
      exact absurd ⟨room, hroom, hsame.bytes ▸ hbytes⟩ (hshows outcome r plan).2
  · refine ⟨fun hclean => ?_, fun hshows hsame => ?_, fun _ => ⟨outcome, r, plan, .inr hkept⟩⟩
    · rcases hclean with hrefused | ⟨storage, -⟩
      · rw [plan] at hrefused
        cases hrefused
      · exact absurd storage other
    · exact absurd (hkept.records.symm.trans hsame.records) (hshows outcome r plan).1

/-- A vault whose name is half of a pair, in an empty store with a new data file. -/
def sampleMutation : Mutation := .createVault ⟨[CodePoint.ofNat 0xD800], []⟩

@[inherit_doc sampleMutation] def sampleLoaded : Depot :=
  ⟨World.fresh 0 [], Store.inFile Store.sampleFile .empty⟩

theorem untouched_iff_failsCleanly_sample : ∃ failure d',
    sampleMutation.run sampleLoaded = (.error failure, d') ∧
      ¬ sampleMutation.FailsCleanly Store.sampleFile sampleLoaded failure ∧
      ∃ outcome r, sampleMutation.plan (World.fresh 0 []) .empty = .change outcome r ∧
        (sampleLoaded.CutOff Store.sampleFile d' r ∨
          sampleLoaded.KeptInMemory Store.sampleFile d' failure r) := by
  have hfails : (sampleMutation.run sampleLoaded).1.isOk = false := by decide +kernel
  have hrecords : (sampleMutation.run sampleLoaded).2.store.records ≠ .empty := by decide +kernel
  have hclock : sampleLoaded.world.localNow = .ok Store.sampleMoment := by decide +kernel
  have honly : OnlySaveFails sampleLoaded.store.faults := ⟨fun _ _ => rfl, fun _ h => by cases h⟩
  have hlog : sampleLoaded.world.LogApart Store.sampleFile := fun _ h => by cases h
  rcases hr : sampleMutation.run sampleLoaded with ⟨failure | answer, d'⟩
  · obtain ⟨hsame, -, hkept⟩ := untouched_iff_failsCleanly honly rfl hclock hlog hr
    have hunclean : ¬ sampleMutation.FailsCleanly Store.sampleFile sampleLoaded failure := by
      intro hclean
      rw [hr] at hrecords
      exact hrecords (hsame hclean).records
    exact ⟨failure, d', rfl, hunclean, hkept hunclean⟩
  · rw [hr] at hfails
    cases hfails

/-- **Not every failed operation on a loaded store leaves everything as it was.** -/
theorem exists_failed_change : ¬ ∀ (path : Path) (w w' : World) (s : Store) (m : Mutation)
    (failure : Failure) (d' : Depot), Store.load path w = (.ok s, w') →
      m.run ⟨w', s⟩ = (.error failure, d') → Depot.Untouched path ⟨w', s⟩ d' := by
  intro hall
  have hfails : (sampleMutation.run sampleLoaded).1.isOk = false := by decide +kernel
  have hrecords : (sampleMutation.run sampleLoaded).2.store.records ≠ .empty := by decide +kernel
  have hload : Store.load Store.sampleFile (World.fresh 0 []) =
    (.ok (Store.inFile Store.sampleFile .empty), World.fresh 0 []) := by rfl
  rcases hr : sampleMutation.run sampleLoaded with ⟨failure | answer, d'⟩
  · rw [hr] at hrecords
    exact hrecords (hall _ _ _ _ _ _ _ hload hr).records
  · rw [hr] at hfails
    cases hfails

end Mutation

end VaultConsole
