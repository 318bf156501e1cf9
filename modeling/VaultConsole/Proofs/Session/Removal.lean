import VaultConsole.Proofs.Session.Calm

/-!
# Carrying out a deletion

A deletion that is carried out takes away the records that it hits, if it takes away any. It may
take away none: a record that is gone already cannot be deleted.

* `Depot.Takes`, `Session.Takes`: the relation.
* `Session.takes_executeDeletion`: **a deletion takes away what it hits, or nothing**.
* `Session.executeDeletion_run`: **a deletion that fits the records is carried out**.
-/

namespace VaultConsole

/-- Of the records of a store in memory at most those are taken away that a deletion hits. -/
def Depot.Takes (d : Deletion) (depot depot' : Depot) : Prop :=
  depot.store.IsPlain → depot'.store.IsPlain ∧
    (depot'.store.records = depot.store.records ∨
      depot'.store.records = d.rest depot.store.records)

instance (d : Deletion) : Std.Refl (Depot.Takes d) := ⟨fun _ h => ⟨h, .inl rfl⟩⟩

instance (d : Deletion) : IsTrans Depot (Depot.Takes d) where
  trans _ _ _ h h' := by
    intro hplain
    obtain ⟨hplain', first⟩ := h hplain
    obtain ⟨hplain'', second⟩ := h' hplain'
    refine ⟨hplain'', ?_⟩
    rcases first with first | first <;> rcases second with second | second
    · exact .inl (second.trans first)
    · exact .inr (first ▸ second)
    · exact .inr (second.trans first)
    · rw [first, d.rest_rest] at second
      exact .inr second

/-- The operation that carries out a deletion. -/
def Deletion.mutation (d : Deletion) : Mutation :=
  match d.kind with
  | .vault => .deleteVault d.targetId
  | .account => .deleteAccount d.targetId

/-- A deletion that fits the records is going to leave its rest of them. -/
theorem Deletion.Fits.plan_eq {d : Deletion} {r : Records} (h : d.Fits r) (w : World) :
    d.mutation.plan w r = .change (.found true) (d.rest r) := by
  unfold Fits at h
  cases hkind : d.kind with
  | vault =>
    rw [hkind] at h
    have hsome : r.deleteVault d.targetId = some (d.rest r) := by
      obtain ⟨r', hr⟩ : ∃ r', r.deleteVault d.targetId = some r' := ⟨_, if_pos h.1⟩
      rw [hr, Records.rest_of_deleteVault hkind hr]
    rw [mutation, hkind, Mutation.plan, hsome]
    rfl
  | account =>
    rw [hkind] at h
    have hsome : r.deleteAccount d.targetId = some (d.rest r) := by
      obtain ⟨r', hr⟩ : ∃ r', r.deleteAccount d.targetId = some r' := ⟨_, if_pos h⟩
      rw [hr, Records.rest_of_deleteAccount hkind hr]
    rw [mutation, hkind, Mutation.plan, hsome]
    rfl

/-- An operation takes away what a deletion hits if its plan puts the rest in place. -/
theorem Mutation.takes_run {d : Deletion} {m : Mutation}
    (h : ∀ w r r', (m.plan w r).records? = some r' → r' = d.rest r) :
    m.run.Keeps (Depot.Takes d) := by
  intro depot hplain
  obtain ⟨hplain', hrecords⟩ := m.records_run hplain
  refine ⟨hplain', ?_⟩
  rw [hrecords]
  -- without a plan for other records there was nothing to delete
  cases hr : (m.plan depot.world depot.store.records).records? with
  | none => exact .inl rfl
  | some r' => exact .inr (h _ _ _ hr)

namespace Session

/-- The gate is left as it is, and of the records at most those are taken away that a deletion
hits. -/
structure Takes (d : Deletion) (s s' : Session) : Prop where
  gate : s'.gate = s.gate
  depot : s.depot.Takes d s'.depot
  /-- Parts outside have no more to do than before. -/
  pending : s'.pendingReactions ≤ s.pendingReactions

variable {d : Deletion}

instance : Std.Refl (Takes d) := ⟨fun s => ⟨rfl, Std.Refl.refl s.depot, le_rfl⟩⟩

instance : IsTrans Session (Takes d) where
  trans _ _ _ h h' :=
    ⟨h'.gate.trans h.gate, trans_of (Depot.Takes d) h.depot h'.depot, h'.pending.trans h.pending⟩

instance : Coarse (Takes d) where
  of_still h := ⟨h.gate, fun hplain => ⟨h.plain hplain, .inl h.records⟩, h.pending⟩

theorem takes_inDepot {α : Type} {act : Act Failure Depot α} (h : act.Keeps (Depot.Takes d)) :
    (inDepot act).Keeps (Takes d) := h.within fun _ _ hd => ⟨rfl, hd, le_rfl⟩

/-- The store's part in carrying out a deletion. -/
def deleteNow (d : Deletion) : Act Failure Depot (Answer Bool) :=
  match d.kind with
  | .vault => Depot.deleteVault d.targetId
  | .account => Depot.deleteAccount d.targetId

theorem run_mutation (d : Deletion) : d.mutation.run = Answer.map .found <$> deleteNow d := by
  unfold Deletion.mutation deleteNow
  cases d.kind <;> rfl

/-- Carrying out a deletion takes away what it hits, or nothing. -/
theorem takes_executeDeletion (d : Deletion) : (executeDeletion d).Keeps (Takes d) := by
  have hplan : ∀ w r r', (d.mutation.plan w r).records? = some r' → r' = d.rest r := by
    intro w r r' hr
    unfold Deletion.mutation at hr
    cases hkind : d.kind <;> rw [hkind, Mutation.plan, Plan.records?_ofChanged] at hr
    · exact Records.rest_of_deleteVault hkind hr
    · exact Records.rest_of_deleteAccount hkind hr
  have hdelete : (deleteNow d).Keeps (Depot.Takes d) :=
    (run_mutation d ▸ Mutation.takes_run hplan).of_map
  exact .bind (takes_inDepot hdelete) fun answer => .ite (.bind (.fail _) fun _ => .pure _) (.pure _)

/-- **A deletion that fits the records is carried out**: it leaves its rest of them. -/
theorem executeDeletion_run {d : Deletion} {s : Session} (h : s.depot.store.IsPlain)
    (hfits : d.Fits s.depot.store.records) :
    executeDeletion d s =
      (.ok (.success (d.kind.title ++ " " ++ Failure.named d.targetName
          ++ " deleted successfully.")),
        { s with depot := d.mutation.staged (d.rest s.depot.store.records) s.depot }) := by
  have hdelete : deleteNow d s.depot =
      (.ok (.own true), d.mutation.staged (d.rest s.depot.store.records) s.depot) :=
    Mutation.run_memory_own (fun _ _ => Outcome.found.inj) (run_mutation d) h
      (hfits.plan_eq s.depot.world)
  have hin : inDepot (deleteNow d) s =
      (.ok (.own true),
        { s with depot := d.mutation.staged (d.rest s.depot.store.records) s.depot }) := by
    rw [inDepot, Act.run_within, hdelete]
  show (inDepot (deleteNow d) >>= _ : Act Failure Session Entry) s = _
  rw [Act.run_bind, hin]
  rfl

end Session

end VaultConsole
