import Mathlib.Data.List.Basic
import VaultConsole.Entry.Basic
import VaultConsole.Proofs.Store.Refinement

/-!
# Which records there are

Records are told apart by their identifiers, an account also by its vault. A store in memory loses
records by the two operations that delete, and by no other one.

* `RecordKey`, `Records.keys`: the records that there are.
* `Deletion.hits`, `Deletion.rest`: what a deletion takes away, and what it leaves.
* `Deletion.Fits`: a deletion whose target is there, and whose number of accounts is right.
* `Depot.Grows`: a store in memory stays one, and no record is missing afterwards.
* `Mutation.grows_run`: **what does not delete, only grows**.
* `Mutation.records_run`: the records after an operation on a store in memory.
-/

namespace VaultConsole

/-- What tells a record apart from others. -/
inductive RecordKey
  | vault (id : Text)
  | account (id vaultId : Text)
  deriving DecidableEq

/-- The key of a vault. -/
def Vault.key (v : Vault) : RecordKey := .vault v.id

/-- The key of an account. -/
def Account.key (a : Account) : RecordKey := .account a.id a.vaultId

/-- The keys of all records. -/
def Records.keys (r : Records) : List RecordKey := r.vaults.map Vault.key ++ r.accounts.map Account.key

namespace Deletion

/-- Whether a deletion takes a record away: a vault goes with its accounts. -/
def hits (d : Deletion) : RecordKey → Bool
  | .vault id => d.kind == .vault && id == d.targetId
  | .account id vaultId =>
    match d.kind with
    | .vault => vaultId == d.targetId
    | .account => id == d.targetId

/-- The records that a deletion leaves. -/
def rest (d : Deletion) (r : Records) : Records :=
  { vaults := r.vaults.filter fun v => !d.hits v.key
    accounts := r.accounts.filter fun a => !d.hits a.key }

/-- A deletion leaves the records that it does not hit, and no others. -/
theorem mem_keys_rest {d : Deletion} {r : Records} {key : RecordKey} :
    key ∈ (d.rest r).keys ↔ key ∈ r.keys ∧ d.hits key = false := by
  simp only [Records.keys, rest, List.mem_append, List.mem_map, List.mem_filter, Bool.not_eq_true']
  constructor
  · rintro (⟨v, ⟨hv, hits⟩, rfl⟩ | ⟨a, ⟨ha, hits⟩, rfl⟩)
    · exact ⟨.inl ⟨v, hv, rfl⟩, hits⟩
    · exact ⟨.inr ⟨a, ha, rfl⟩, hits⟩
  · rintro ⟨⟨v, hv, rfl⟩ | ⟨a, ha, rfl⟩, hits⟩
    · exact .inl ⟨v, ⟨hv, hits⟩, rfl⟩
    · exact .inr ⟨a, ⟨ha, hits⟩, rfl⟩

/-- What a deletion left, it leaves again. -/
theorem rest_rest (d : Deletion) (r : Records) : d.rest (d.rest r) = d.rest r := by simp [rest]

/-- A deletion that fits the records: its target is among them, and as many accounts go with it as it
says. -/
def Fits (d : Deletion) (r : Records) : Prop :=
  match d.kind with
  | .vault =>
    r.hasVault d.targetId = true ∧
      d.cascade = (r.accounts.filter (·.vaultId == d.targetId)).length
  | .account => r.accounts.any (·.id == d.targetId) = true

/-- The accounts that the deletion of a vault leaves, and those that go with it, are all. -/
theorem Fits.length_rest {d : Deletion} {r : Records} (h : d.Fits r) (hkind : d.kind = .vault) :
    (d.rest r).accounts.length + d.cascade.toNat = r.accounts.length := by
  rw [Fits, hkind] at h
  have hrest : (d.rest r).accounts = r.accounts.filter fun a => !(a.vaultId == d.targetId) := by
    simp [rest, hits, Account.key, hkind]
  have hall := List.length_eq_length_filter_add (l := r.accounts) (·.vaultId == d.targetId)
  rw [hrest, h.2, Int.toNat_natCast]
  omega

end Deletion

namespace Records

variable {r r' : Records} {id : Text}

theorem rest_of_deleteVault {d : Deletion} (hkind : d.kind = .vault)
    (h : r.deleteVault d.targetId = some r') : r' = d.rest r := by
  unfold deleteVault at h
  split at h
  · simp only [Option.some.injEq] at h
    rw [← h, Deletion.rest]
    congr 1 <;> refine List.filter_congr fun _ _ => ?_
    · simp [Deletion.hits, Vault.key, hkind, bne]
    · simp [Deletion.hits, Account.key, hkind, bne]
  · cases h

theorem rest_of_deleteAccount {d : Deletion} (hkind : d.kind = .account)
    (h : r.deleteAccount d.targetId = some r') : r' = d.rest r := by
  unfold deleteAccount at h
  split at h
  · simp only [Option.some.injEq] at h
    rw [← h, Deletion.rest]
    congr 1
    · refine (List.filter_eq_self.2 fun v _ => ?_).symm
      simp [Deletion.hits, Vault.key, hkind]
    · refine List.filter_congr fun _ _ => ?_
      simp [Deletion.hits, Account.key, hkind, bne]
  · cases h

/-- Changing the first item of a kind does not change what tells items apart. -/
theorem map_changeFirst {α κ : Type} {key : α → κ} {p : α → Bool} {f : α → α}
    (h : ∀ x, key (f x) = key x) {items items' : List α} (hc : changeFirst p f items = some items') :
    items'.map key = items.map key := by
  induction items generalizing items' with
  | nil => cases hc
  | cons x rest ih =>
    unfold changeFirst at hc
    split at hc
    · simp only [Option.some.injEq] at hc
      rw [← hc, List.map_cons, List.map_cons, h]
    · simp only [Option.map_eq_some_iff] at hc
      obtain ⟨rest', hrest, rfl⟩ := hc
      rw [List.map_cons, List.map_cons, ih hrest]

theorem keys_changeVault {f : Vault → Vault} (hf : ∀ v, (f v).key = v.key)
    (h : r.changeVault id f = some r') : r'.keys = r.keys := by
  unfold changeVault at h
  simp only [Option.map_eq_some_iff] at h
  obtain ⟨vaults, hc, rfl⟩ := h
  rw [keys, keys, map_changeFirst hf hc]

theorem keys_changeAccount {f : Account → Account} (hf : ∀ a, (f a).key = a.key)
    (h : r.changeAccount id f = some r') : r'.keys = r.keys := by
  unfold changeAccount at h
  simp only [Option.map_eq_some_iff] at h
  obtain ⟨accounts, hc, rfl⟩ := h
  rw [keys, keys, map_changeFirst hf hc]

end Records

/-- Other values do not change which vault it is. -/
theorem Vault.key_writeAll (updates : List (VaultField × Text)) (v : Vault) :
    (v.writeAll updates).key = v.key := by
  unfold Vault.writeAll
  induction updates generalizing v with
  | nil => rfl
  | cons u rest ih =>
    rw [List.foldl_cons, ih]
    cases u.1 <;> rfl

theorem Vault.key_amend (updates : List (VaultField × Text)) (now : Timestamp) (v : Vault) :
    (v.amend updates now).key = v.key := v.key_writeAll updates

/-- Other values do not change which account it is. -/
theorem Account.key_writeAll (updates : List (AccountField × Text)) (a : Account) :
    (a.writeAll updates).key = a.key := by
  unfold Account.writeAll
  induction updates generalizing a with
  | nil => rfl
  | cons u rest ih =>
    rw [List.foldl_cons, ih]
    cases u.1 <;> rfl

theorem Account.key_amend (updates : List (AccountField × Text)) (now : Timestamp) (a : Account) :
    (a.amend updates now).key = a.key := a.key_writeAll updates

/-- The records that a plan puts in place. -/
def Plan.records? : Plan → Option Records
  | .refused _ | .idle _ => none
  | .undated _ r | .change _ r => some r

theorem Plan.records?_ofChanged (changed : Option Records) :
    (Plan.ofChanged changed).records? = changed := by cases changed <;> rfl

namespace Mutation

/-- Whether an operation deletes. -/
def IsDeletion : Mutation → Prop
  | deleteVault _ | deleteAccount _ => True
  | _ => False

/-- The records after an operation on a store in memory, which stays one. -/
theorem records_run (m : Mutation) {d : Depot} (h : d.store.IsPlain) :
    (m.run d).2.store.IsPlain ∧
      (m.run d).2.store.records =
        (m.plan d.world d.store.records).records?.getD d.store.records := by
  have honly := h.onlySaveFails
  cases hp : m.plan d.world d.store.records with
  | refused failure =>
    rw [run_eq m honly, hp]
    exact ⟨h, rfl⟩
  | undated failure r =>
    rw [run_eq m honly, hp]
    -- the change fails after the records were put in place, and in memory nothing takes them back
    refine ⟨⟨?_, ?_⟩, m.staged_records r d⟩
    · exact (m.staged_keeping r d).trans h.1
    · exact (m.staged_faults r d).trans h.2
  | idle outcome =>
    rw [run_memory_idle m h hp]
    exact ⟨h, rfl⟩
  | change outcome r =>
    rw [run_memory m h hp]
    refine ⟨⟨?_, ?_⟩, m.staged_records r d⟩
    · exact (m.staged_keeping r d).trans h.1
    · exact (m.staged_faults r d).trans h.2

/-- What holds of all records that an update may put in place. -/
theorem of_planUpdate {φ : Type} {P : Records → Prop} {w : World} {r' : Records}
    {fields : Except Failure (List (φ × Text))}
    {dated : List (φ × Text) → Timestamp → Option Records}
    {undated : List (φ × Text) → Option Records}
    (hdated : ∀ updates now r', dated updates now = some r' → P r')
    (hundated : ∀ updates r', undated updates = some r' → P r')
    (h : (planUpdate w fields dated undated).records? = some r') : P r' := by
  unfold planUpdate at h
  split at h
  · cases h
  · split at h
    · rw [Plan.records?_ofChanged] at h
      exact hdated _ _ _ h
    · split at h
      · cases h
      · next updates _ _ hu =>
        cases h
        exact hundated _ _ hu

/-- A plan that deletes nothing keeps the keys of all records. -/
theorem keys_subset_plan (m : Mutation) (hm : ¬ m.IsDeletion) {w : World} {r r' : Records}
    (h : (m.plan w r).records? = some r') : r.keys ⊆ r'.keys := by
  cases m with
  | createVault draft =>
    simp only [plan] at h
    split at h <;> cases h
    simp [Records.keys, Records.addVault]
  | createAccount draft =>
    simp only [plan] at h
    split at h
    · split at h <;> cases h
      simp [Records.keys, Records.addAccount]
    · cases h
  | updateVault id updates =>
    have hkeys : r'.keys = r.keys := by
      refine of_planUpdate (P := (·.keys = r.keys)) (fun updates now r' hr => ?_)
        (fun updates r' hr => ?_) h
      · exact Records.keys_changeVault (Vault.key_amend updates now) hr
      · exact Records.keys_changeVault (Vault.key_writeAll updates) hr
    rw [hkeys]
    exact List.Subset.refl _
  | updateAccount id updates =>
    have hkeys : r'.keys = r.keys := by
      refine of_planUpdate (P := (·.keys = r.keys)) (fun updates now r' hr => ?_)
        (fun updates r' hr => ?_) h
      · exact Records.keys_changeAccount (Account.key_amend updates now) hr
      · exact Records.keys_changeAccount (Account.key_writeAll updates) hr
    rw [hkeys]
    exact List.Subset.refl _
  | deleteVault id => exact absurd trivial hm
  | deleteAccount id => exact absurd trivial hm

end Mutation

namespace Depot

/-- A store in memory stays one, and no record is missing afterwards. -/
def Grows (d d' : Depot) : Prop :=
  d.store.IsPlain → d'.store.IsPlain ∧ d.store.records.keys ⊆ d'.store.records.keys

instance : Std.Refl Grows := ⟨fun _ h => ⟨h, List.Subset.refl _⟩⟩

instance : IsTrans Depot Grows where
  trans _ _ _ h h' := fun hplain =>
    have first := h hplain
    have second := h' first.1
    ⟨second.1, List.Subset.trans first.2 second.2⟩

end Depot

namespace Mutation

/-- **What does not delete, only grows.** -/
theorem grows_run (m : Mutation) (hm : ¬ m.IsDeletion) : m.run.Keeps Depot.Grows := by
  intro d hplain
  obtain ⟨hplain', hrecords⟩ := m.records_run hplain
  refine ⟨hplain', ?_⟩
  rw [hrecords]
  cases hr : (m.plan d.world d.store.records).records? with
  | none => exact List.Subset.refl _
  | some r => exact m.keys_subset_plan hm hr

end Mutation

end VaultConsole
