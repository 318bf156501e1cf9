import VaultConsole.Proofs.Store.Settling

/-!
# A store with a data file and one in memory

A store with a data file does what a store in memory does that never hears of the operations that
failed. The two are compared call by call: the world may change in any way between the calls, and
any save may fail with storage, by the disk or for any other reason. Both stores get the world of
the moment, so they give out the same identifiers and times.

* `StoreCall`, `StoreStep`: an operation, and an operation in its surroundings.
* `StoreStep.sequence`, `StoreStep.replay`: a run, and the store in memory that had the operations which
  succeeded.
* `StoreStep.agrees`: what one step does to both, **and** `StoreStep.sequence_agrees`: what a run preserves.
* `StoreStep.refines`: **after every run both hold the same records**, and the next operation that
  succeeds answers the same on both.
-/

namespace VaultConsole

/-- A call of a store: an operation, or saving. -/
inductive StoreCall
  | change (m : Mutation)
  | save

/-- A call and what surrounds it. -/
structure StoreStep where
  /-- What the world has come to by the time of the call. -/
  surroundings : World → World
  /-- How saving fails during the call, if it is made to. -/
  broken : Option Failure
  call : StoreCall

namespace StoreStep

/-- The faults of a store whose saving fails. -/
def faultsOf : Option Failure → Table Operation Fault
  | none => []
  | some failure => [(.save, .fails failure)]

theorem onlySaveFails_faultsOf (broken : Option Failure) : OnlySaveFails (faultsOf broken) := by
  cases broken with
  | none => exact ⟨fun _ _ => rfl, fun fault h => by cases h⟩
  | some failure =>
    refine ⟨fun operation ho => ?_, fun fault h => ⟨failure, ?_⟩⟩
    · exact if_neg (Ne.symm ho)
    · cases h
      rfl

/-- The depot at the time of the call. -/
def enter (s : StoreStep) (d : Depot) : Depot :=
  { world := s.surroundings d.world, store := { d.store with faults := faultsOf s.broken } }

/-- The call, on a depot that may have a data file. Saving answers nothing. -/
def run (s : StoreStep) (d : Depot) : Except Failure (Answer (Option Outcome)) × Depot :=
  match s.call with
  | .change m => (Answer.map some <$> m.run : Act Failure Depot _) (s.enter d)
  | .save => (Answer.map (fun _ => none) <$> Depot.save : Act Failure Depot _) (s.enter d)

/-- The same call on a store in memory, which has nothing to save, in a world. -/
def runInMemory (s : StoreStep) (w : World) (memory : Store) :
    Except Failure (Answer (Option Outcome)) × Store :=
  match s.call with
  | .change m =>
    let (answer, d) := (Answer.map some <$> m.run : Act Failure Depot _) ⟨w, memory⟩
    (answer, d.store)
  | .save => (.ok (.own none), memory)

/-- A run of calls. -/
def sequence : List StoreStep → Depot → Depot
  | [], d => d
  | s :: rest, d => sequence rest (s.run d).2

/-- The store in memory beside a run: it gets the calls that succeed there. -/
def replay : List StoreStep → Depot → Store → Store
  | [], _, memory => memory
  | s :: rest, d, memory =>
    match s.run d with
    | (.ok _, d') => replay rest d' (s.runInMemory (s.enter d).world memory).2
    | (.error _, d') => replay rest d' memory

/-- Every save that a call comes to succeeds or fails with storage. -/
def SavesOrRefuses (s : StoreStep) (d : Depot) : Prop :=
  match s.call with
  | .change m =>
    ∀ outcome r, m.plan (s.enter d).world d.store.records = .change outcome r →
      ∀ failure, (Depot.save (m.staged r (s.enter d))).1 = .error failure → failure.kind = .storage
  | .save => ∀ failure, (Depot.save (s.enter d)).1 = .error failure → failure.kind = .storage

/-- Along a run the clock shows a time, and every save succeeds or fails with storage. -/
def Orderly : List StoreStep → Depot → Prop
  | [], _ => True
  | s :: rest, d =>
    (∃ moment, (s.enter d).world.localNow = .ok moment) ∧ s.SavesOrRefuses d ∧
      Orderly rest (s.run d).2

end StoreStep

/-- A store in memory in which nothing is out of order. -/
def Store.IsPlain (s : Store) : Prop := s.keeping = .memory ∧ s.faults = []

theorem Store.IsPlain.onlySaveFails {s : Store} (h : s.IsPlain) : OnlySaveFails s.faults := by
  rw [h.2]
  exact StoreStep.onlySaveFails_faultsOf none

namespace Mutation

/-- A change of a store in memory is its plan. -/
theorem run_memory (m : Mutation) {w : World} {s : Store} (h : s.IsPlain) {outcome : Outcome}
    {r : Records} (hp : m.plan w s.records = .change outcome r) :
    m.run ⟨w, s⟩ = (.ok (.own outcome), m.staged r ⟨w, s⟩) := by
  have honly := h.onlySaveFails
  have hsettle : Depot.settle (m.staged r ⟨w, s⟩) = (.ok (.own ()), m.staged r ⟨w, s⟩) :=
    Depot.settle_memory (by rwa [staged_faults]) (by rw [staged_keeping]; exact h.1)
  rw [run_eq m honly, hp, carryOut, own, Depot.settling, Act.run_bind, hsettle]
  rfl

/-- So is the operation itself, whose outcome tells its answer. -/
theorem run_memory_own {α : Type} {m : Mutation} {name : α → Outcome} (hname : name.Injective)
    {act : Act Failure Depot (Answer α)} (hact : m.run = Answer.map name <$> act) {w : World}
    {s : Store} (h : s.IsPlain) {a : α} {r : Records}
    (hp : m.plan w s.records = .change (name a) r) :
    act ⟨w, s⟩ = (.ok (.own a), m.staged r ⟨w, s⟩) := by
  have hrun := m.run_memory h hp
  rw [hact] at hrun
  obtain ⟨answer, hanswer, hsame⟩ := Act.exists_of_run_map hrun
  cases answer with
  | foreign value => cases hsame
  | own value =>
    obtain rfl : value = a := hname (Answer.own.inj hsame)
    exact hanswer

theorem run_memory_idle (m : Mutation) {w : World} {s : Store} (h : s.IsPlain) {outcome : Outcome}
    (hp : m.plan w s.records = .idle outcome) : m.run ⟨w, s⟩ = (.ok (.own outcome), ⟨w, s⟩) := by
  rw [run_eq m h.onlySaveFails, hp]
  rfl

end Mutation

/-- A store that was loaded is in step with its data file. -/
theorem Store.inStep_of_load {path : Path} {w w' : World} {s : Store}
    (h : Store.load path w = (.ok s, w')) : s.InStep path := by
  unfold load at h
  rw [Act.run_bind] at h
  rcases hl : loadRecords path w with ⟨failure | r, w''⟩
  · rw [hl] at h
    cases h
  · rw [hl] at h
    cases h
    rfl

namespace StoreStep

variable {path : Path} {s : StoreStep} {d : Depot} {memory : Store}

/-- What a call does to a store with a data file that held records before, and to one in memory. -/
structure Agrees (path : Path) (before : Records)
    (inFile : Except Failure (Answer (Option Outcome)) × Depot)
    (inMemory : Except Failure (Answer (Option Outcome)) × Store) : Prop where
  /-- The store is in step with its file again. -/
  inStep : inFile.2.store.InStep path
  /-- What succeeds gives the same records and the same answer in memory. -/
  same : ∀ answer, inFile.1 = .ok answer →
    inMemory.1 = .ok answer ∧ inMemory.2.IsPlain ∧ inMemory.2.records = inFile.2.store.records
  /-- What fails leaves the records. -/
  untouched : ∀ failure, inFile.1 = .error failure → inFile.2.store.records = before

section
variable (hstep : d.store.InStep path) (hplain : memory.IsPlain)
  (hsame : memory.records = d.store.records)
include hstep hplain hsame

theorem agrees_change {moment : Timestamp} (hclock : (s.enter d).world.localNow = .ok moment)
    {m : Mutation} (hcall : s.call = .change m) (hsave : s.SavesOrRefuses d) :
    Agrees path d.store.records (s.run d) (s.runInMemory (s.enter d).world memory) := by
  have honly : OnlySaveFails (s.enter d).store.faults := onlySaveFails_faultsOf s.broken
  have hstep' : (s.enter d).store.InStep path := hstep
  obtain ⟨now, hnow⟩ := World.now_of_localNow hclock
  rw [SavesOrRefuses, hcall] at hsave
  rw [run, runInMemory, hcall]
  simp only [Act.run_map]
  rcases hr : m.run (s.enter d) with ⟨result, d'⟩
  cases Mutation.ending_run honly hstep' hr with
  | refused failure plan => exact ⟨hstep', fun _ h => (by cases h), fun _ _ => rfl⟩
  | undated failure r plan => exact absurd plan (Mutation.plan_ne_undated hnow _ _ _)
  | idle outcome plan =>
    rw [Mutation.run_memory_idle m hplain (by rw [hsame]; exact plan)]
    refine ⟨hstep', fun answer h => ?_, fun _ h => (by cases h)⟩
    cases h
    exact ⟨rfl, hplain, hsame⟩
  | settled outcome r plan answer d' settled =>
    have hmemory := Mutation.run_memory m hplain (by rw [hsame]; exact plan)
    cases settled with
    | kept disk all bytes =>
      rw [hmemory]
      refine ⟨rfl, fun answer h => ?_, fun _ h => (by cases h)⟩
      cases h
      refine ⟨rfl, ⟨?_, ?_⟩, ?_⟩
      · exact (m.staged_keeping r _).trans hplain.1
      · exact (m.staged_faults r _).trans hplain.2
      · exact (m.staged_records r _).trans (m.staged_records r _).symm
    | takenBack failure storage disk event reached bytes =>
      refine ⟨?_, fun _ h => (by cases h), fun _ _ => rfl⟩
      show (m.staged r (s.enter d)).store.keeping = _
      rw [Mutation.staged_keeping]
      exact hstep
    | unlogged failure disk noTime =>
      rw [Mutation.staged_localNow, hclock] at noTime
      cases noTime
    -- what stays in memory unsaved failed in another way than with storage
    | left failure other saving disk bytes => exact absurd (hsave outcome r plan failure saving) other

theorem agrees_save (hcall : s.call = .save) :
    Agrees path d.store.records (s.run d) (s.runInMemory (s.enter d).world memory) := by
  have hstep' : (s.enter d).store.InStep path := hstep
  have honly : OnlySaveFails (s.enter d).store.faults := onlySaveFails_faultsOf s.broken
  rw [run, runInMemory, hcall]
  simp only [Act.run_map]
  rw [Depot.save_eq hstep' (honly.1 _ (by decide))]
  cases hf : Table.get? .save (s.enter d).store.faults with
  | some fault =>
    obtain ⟨failure, rfl⟩ := honly.2 fault hf
    exact ⟨hstep', fun _ h => (by cases h), fun _ _ => rfl⟩
  | none =>
    obtain ⟨result, disk, hw, -⟩ :=
      Depot.rewrite_writeDocument path (s.enter d).store.records.toJson (s.enter d)
    simp only [hw]
    cases result with
    | error failure => exact ⟨hstep', fun _ h => (by cases h), fun _ _ => rfl⟩
    | ok _ =>
      refine ⟨rfl, fun answer h => ?_, fun _ h => (by cases h)⟩
      cases h
      exact ⟨rfl, hplain, hsame⟩

/-- **One call keeps two stores in agreement** that hold the same records. -/
theorem agrees {moment : Timestamp} (hclock : (s.enter d).world.localNow = .ok moment)
    (hsave : s.SavesOrRefuses d) :
    Agrees path d.store.records (s.run d) (s.runInMemory (s.enter d).world memory) := by
  cases hcall : s.call with
  | change m => exact agrees_change hstep hplain hsame hclock hcall hsave
  | save => exact agrees_save hstep hplain hsame hcall

end

/-- The stores after a run hold the same records, and the one with a data file is in step. -/
theorem sequence_agrees {steps : List StoreStep} (hstep : d.store.InStep path)
    (hplain : memory.IsPlain) (hsame : memory.records = d.store.records)
    (horderly : Orderly steps d) :
    (sequence steps d).store.InStep path ∧ (replay steps d memory).IsPlain ∧
      (replay steps d memory).records = (sequence steps d).store.records := by
  -- a call that fails is left out in memory, and the store with a data file is as it was
  induction steps generalizing d memory with
  | nil => exact ⟨hstep, hplain, hsame⟩
  | cons s rest ih =>
    obtain ⟨⟨moment, hclock⟩, hsave, hrest⟩ := horderly
    have hagrees := agrees hstep hplain hsame hclock hsave
    rw [sequence, replay]
    rcases hr : s.run d with ⟨result, d'⟩
    rw [hr] at hagrees hrest
    cases result with
    | ok answer =>
      obtain ⟨-, hplain', hsame'⟩ := hagrees.same answer rfl
      exact ih hagrees.inStep hplain' hsame' hrest
    | error failure =>
      exact ih hagrees.inStep hplain (hsame.trans (hagrees.untouched failure rfl).symm) hrest

/-- A call whose saving is made to fail with storage does so. -/
theorem savesOrRefuses_of_broken {failure : Failure} (hb : s.broken = some failure)
    (storage : failure.kind = .storage) : s.SavesOrRefuses d := by
  have hfault : ∀ d' : Depot, d'.store.faults = faultsOf s.broken →
      ∀ f, (Depot.save d').1 = .error f → f.kind = .storage := by
    intro d' hf f hs
    have hsave : Depot.save d' = (.error failure, d') := by
      unfold Depot.save Depot.unlessFaulty
      simp only [Act.run_bind, Act.run_look, hf, hb]
      rfl
    rw [hsave] at hs
    cases hs
    exact storage
  unfold SavesOrRefuses
  cases s.call with
  | change m => exact fun _ r _ => hfault _ (m.staged_faults r _)
  | save => exact hfault _ rfl

theorem orderly_append {before after : List StoreStep} {d : Depot} :
    Orderly (before ++ after) d ↔ Orderly before d ∧ Orderly after (sequence before d) := by
  induction before generalizing d with
  | nil => simp [Orderly, sequence]
  | cons s rest ih => simp only [List.cons_append, Orderly, sequence, ih, and_assoc]

/-- **A store with a data file refines one in memory.** After every part of an orderly run of a
store that was loaded, the store in memory that had the calls which succeeded holds the same
records; the next call, if it succeeds, answers the same there, and if it fails, it leaves the
records as they were. -/
theorem refines {w w₀ : World} {s₀ : Store} (hload : Store.load path w = (.ok s₀, w₀))
    {steps : List StoreStep} (horderly : Orderly steps ⟨w₀, s₀⟩) (before rest : List StoreStep)
    (hsteps : steps = before ++ rest) :
    (replay before ⟨w₀, s₀⟩ (.inMemory s₀.records)).records =
        (sequence before ⟨w₀, s₀⟩).store.records ∧
      ∀ s, rest.head? = some s →
        (∀ answer, (s.run (sequence before ⟨w₀, s₀⟩)).1 = .ok answer →
          (s.runInMemory (s.enter (sequence before ⟨w₀, s₀⟩)).world
            (replay before ⟨w₀, s₀⟩ (.inMemory s₀.records))).1 = .ok answer) ∧
        ∀ failure, (s.run (sequence before ⟨w₀, s₀⟩)).1 = .error failure →
          (s.run (sequence before ⟨w₀, s₀⟩)).2.store.records =
            (sequence before ⟨w₀, s₀⟩).store.records := by
  rw [hsteps, orderly_append] at horderly
  have hplain₀ : (Store.inMemory s₀.records).IsPlain := ⟨rfl, rfl⟩
  obtain ⟨hstep, hplain, hsame⟩ :=
    sequence_agrees (Store.inStep_of_load hload) hplain₀ rfl horderly.1
  refine ⟨hsame, fun s hs => ?_⟩
  obtain ⟨more, rfl⟩ : ∃ more, rest = s :: more := by
    cases rest with
    | nil => cases hs
    | cons head more =>
      cases hs
      exact ⟨more, rfl⟩
  obtain ⟨⟨moment, hclock⟩, hsave, -⟩ := horderly.2
  have hagrees := agrees hstep hplain hsame hclock hsave
  exact ⟨fun answer ha => (hagrees.same answer ha).1, hagrees.untouched⟩

/-- A vault is made, and then it cannot be deleted since storage fails. -/
def sampleSteps : List StoreStep :=
  [⟨id, none, .change (.createVault ⟨"a", "b"⟩)⟩,
    ⟨id, some (.unwritableData Store.sampleFile.text .full), .change (.deleteVault "new-1")⟩]

theorem orderly_sampleSteps :
    Orderly sampleSteps ⟨World.fresh 0 [], Store.inFile Store.sampleFile .empty⟩ := by
  have hnow : (World.fresh 0 []).now = .ok Store.sampleMoment := by decide +kernel
  unfold sampleSteps
  rw [Orderly, Orderly, Orderly]
  refine ⟨⟨Store.sampleMoment, by decide +kernel⟩, ?_, ⟨Store.sampleMoment, by decide +kernel⟩,
    savesOrRefuses_of_broken rfl rfl, trivial⟩
  intro outcome r hp failure hs
  change Mutation.plan (World.fresh 0 []) .empty _ = _ at hp
  simp only [Mutation.plan, hnow, Plan.change.injEq] at hp
  rw [← hp.2] at hs
  cases hs

theorem refines_sampleSteps :
    (replay sampleSteps ⟨World.fresh 0 [], Store.inFile Store.sampleFile .empty⟩
        (.inMemory (Store.inFile Store.sampleFile .empty).records)).records =
      (sequence sampleSteps ⟨World.fresh 0 [], Store.inFile Store.sampleFile .empty⟩).store.records :=
  have hload : Store.load Store.sampleFile (World.fresh 0 []) =
    (.ok (Store.inFile Store.sampleFile .empty), World.fresh 0 []) := by rfl
  (refines hload orderly_sampleSteps sampleSteps [] rfl).1

end StoreStep

end VaultConsole
