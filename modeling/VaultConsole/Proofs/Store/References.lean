import VaultConsole.Proofs.Store.Integrity

/-!
# Records that are referred to

An entry refers to records by their identifiers and is shown long after it was made. Other records may
come and go in the meantime, and nothing is to be seen of that. A record that has gone must not be taken
for another one either, so no identifier is given out twice.

* `Reference`: a record, by its kind and its identifier.
* `Payload.references`, `Payload.namedVaults`: the records of a payload, and the vaults that it names.
* `Mutation.IsOn`: the records that an operation is on.
* `Mutation.same_call`: **an operation leaves all other records as they are.**
* `Mutation.GiveUnused`: no identifier is given out that was in use before.
* `Mutation.gone_after`: **a record that has gone does not come back.**
-/

namespace VaultConsole

/-- A record, by its kind and its identifier. -/
inductive Reference
  | vault (id : Text)
  | account (id : Text)
  deriving DecidableEq

namespace Reference

variable {r r' : Records} {id : Text}

/-- There is such a record. -/
def IsIn (r : Records) : Reference → Prop
  | vault id => ∃ v ∈ r.vaults, v.id = id
  | account id => ∃ a ∈ r.accounts, a.id = id

/-- What there is by the identifier is the same. -/
def Same (r r' : Records) : Reference → Prop
  | vault id => r'.vaults.filter (·.id == id) = r.vaults.filter (·.id == id)
  | account id => r'.accounts.filter (·.id == id) = r.accounts.filter (·.id == id)

theorem same_refl (r : Records) (ref : Reference) : ref.Same r r := by cases ref <;> rfl

theorem isIn_vault : IsIn r (vault id) ↔ id ∈ r.vaultOrigins.map (·.id) := by
  rw [Records.map_id_vaultOrigins, List.mem_map]
  rfl

theorem isIn_account : IsIn r (account id) ↔ id ∈ r.accountOrigins.map (·.id) := by
  rw [Records.map_id_accountOrigins, List.mem_map]
  rfl

/-- Which records there are shows in what records never lose. -/
theorem isIn_congr (hv : r'.vaultOrigins = r.vaultOrigins) (ha : r'.accountOrigins = r.accountOrigins)
    (ref : Reference) : ref.IsIn r' ↔ ref.IsIn r := by
  cases ref with
  | vault id => rw [isIn_vault, isIn_vault, hv]
  | account id => rw [isIn_account, isIn_account, ha]

end Reference

namespace Payload

/-- The records of a payload, in its order. -/
def references : Payload → List Reference
  | vaultList ids => ids.map .vault
  | accountList ids => ids.map .account
  | vaultDetail id accounts => .vault id :: accounts.map .account
  | accountDetail id _ _ => [.account id]
  | searchResults vaults accounts => vaults.map .vault ++ accounts.map .account
  | stats _ _ recent => recent.map .account

/-- The vaults that the lines of its accounts name. -/
def namedVaults (r : Records) : Payload → List Text
  | accountList ids => (r.accounts.filter fun a => decide (a.id ∈ ids)).map (·.vaultId)
  | accountDetail _ vaultId _ => [vaultId]
  | _ => []

/-- The records of a payload are there, and with an account goes the vault that it is in. -/
structure IsOf (r : Records) (p : Payload) : Prop where
  there : ∀ ref ∈ p.references, ref.IsIn r
  housed : ∀ account vault reveal, p = .accountDetail account vault reveal →
    ∃ a ∈ r.accounts, a.id = account ∧ a.vaultId = vault

end Payload

namespace Mutation

section
variable {m : Mutation} {w : World} {r r' : Records} {ref : Reference}

/-! ## What an operation is on -/

/-- The records that an operation is on: the one that it makes, changes or takes away, and the accounts
that go with a vault. -/
def IsOn (w : World) (r : Records) : Mutation → Reference → Prop
  | createVault _, .vault id => id = w.freshId
  | createAccount _, .account id => id = w.freshId
  | updateVault target _, .vault id => id = target
  | updateAccount target _, .account id => id = target
  | deleteVault target, .vault id => id = target
  | deleteVault target, .account id => ∃ a ∈ r.accounts, a.id = id ∧ a.vaultId = target
  | deleteAccount target, .account id => id = target
  | _, _ => False

/-- A change of the first item of a kind does not show among items of another kind. -/
theorem filter_changeFirst {α : Type} {p q : α → Bool} {f : α → α}
    (h : ∀ x, p x = true → q x = false ∧ q (f x) = false) {items items' : List α}
    (hc : Records.changeFirst p f items = some items') : items'.filter q = items.filter q := by
  induction items generalizing items' with
  | nil => cases hc
  | cons x rest ih =>
    unfold Records.changeFirst at hc
    split at hc
    · next hx =>
      cases hc
      obtain ⟨hbefore, hafter⟩ := h x hx
      simp only [List.filter_cons, hbefore, hafter, Bool.false_eq_true, if_false]
    · obtain ⟨rest', hrest, rfl⟩ := Option.map_eq_some_iff.1 hc
      rw [List.filter_cons, List.filter_cons, ih hrest]

/-- What is taken away does not show among items that all stay. -/
theorem filter_filter_of_imp {α : Type} {p q : α → Bool} {items : List α}
    (h : ∀ x ∈ items, q x = true → p x = true) : (items.filter p).filter q = items.filter q := by
  rw [List.filter_filter]
  refine List.filter_congr fun x hx => ?_
  cases hq : q x with
  | false => rfl
  | true => rw [h x hx hq, Bool.and_self]

theorem same_changeVault {id : Text} {f : Vault → Vault} (hf : ∀ v, (f v).key = v.key)
    (hnot : ref ≠ .vault id) (h : r.changeVault id f = some r') : ref.Same r r' := by
  obtain ⟨vaults, hc, rfl⟩ := Option.map_eq_some_iff.1 h
  cases ref with
  | account _ => rfl
  | vault other =>
    refine filter_changeFirst (fun v hv => ?_) hc
    have hid : (f v).id = v.id := RecordKey.vault.inj (hf v)
    have hne : v.id ≠ other := fun hsame => hnot (by rw [← hsame, beq_iff_eq.1 hv])
    simp [hid, hne]

theorem same_changeAccount {id : Text} {f : Account → Account} (hf : ∀ a, (f a).key = a.key)
    (hnot : ref ≠ .account id) (h : r.changeAccount id f = some r') : ref.Same r r' := by
  obtain ⟨accounts, hc, rfl⟩ := Option.map_eq_some_iff.1 h
  cases ref with
  | vault _ => rfl
  | account other =>
    refine filter_changeFirst (fun a ha => ?_) hc
    have hid : (f a).id = a.id := (RecordKey.account.inj (hf a)).1
    have hne : a.id ≠ other := fun hsame => hnot (by rw [← hsame, beq_iff_eq.1 ha])
    simp [hid, hne]

/-- An operation leaves the records as they are that it is not on. -/
theorem same_plan (hnot : ¬ m.IsOn w r ref) (h : (m.plan w r).records? = some r') : ref.Same r r' := by
  cases m with
  | createVault draft =>
    simp only [plan] at h
    split at h <;> cases h
    cases ref with
    | account id => rfl
    | vault id =>
      have hne : w.freshId ≠ id := fun hsame => hnot hsame.symm
      simp [Reference.Same, Records.addVault, VaultDraft.record, hne]
  | createAccount draft =>
    simp only [plan] at h
    split at h
    · split at h <;> cases h
      cases ref with
      | vault id => rfl
      | account id =>
        have hne : w.freshId ≠ id := fun hsame => hnot hsame.symm
        simp [Reference.Same, Records.addAccount, AccountDraft.record, hne]
    · cases h
  | updateVault target updates =>
    have hother : ref ≠ .vault target := by
      rintro rfl
      exact hnot rfl
    refine of_planUpdate (P := ref.Same r) (fun updates now r' hr => ?_) (fun updates r' hr => ?_) h
    · exact same_changeVault (Vault.key_amend updates now) hother hr
    · exact same_changeVault (Vault.key_writeAll updates) hother hr
  | updateAccount target updates =>
    have hother : ref ≠ .account target := by
      rintro rfl
      exact hnot rfl
    refine of_planUpdate (P := ref.Same r) (fun updates now r' hr => ?_) (fun updates r' hr => ?_) h
    · exact same_changeAccount (Account.key_amend updates now) hother hr
    · exact same_changeAccount (Account.key_writeAll updates) hother hr
  | deleteVault target =>
    simp only [plan, Plan.records?_ofChanged, Records.deleteVault] at h
    split at h <;> cases h
    cases ref with
    | vault id =>
      refine filter_filter_of_imp fun v _ hv => bne_iff_ne.2 fun hsame => hnot ?_
      exact (beq_iff_eq.1 hv).symm.trans hsame
    | account id =>
      refine filter_filter_of_imp fun a ha hid => bne_iff_ne.2 fun hsame => hnot ?_
      exact ⟨a, ha, beq_iff_eq.1 hid, hsame⟩
  | deleteAccount target =>
    simp only [plan, Plan.records?_ofChanged, Records.deleteAccount] at h
    split at h <;> cases h
    cases ref with
    | vault id => rfl
    | account id =>
      refine filter_filter_of_imp fun a _ ha => bne_iff_ne.2 fun hsame => hnot ?_
      exact (beq_iff_eq.1 ha).symm.trans hsame

/-! ## What an operation brings in -/

/-- A record that there was at some time is there after an operation only if it was there before, so
long as no identifier of that time is given out. -/
theorem Makes.isIn {past : Records} (h : Makes w r m r') (hnew : m.GivesNew w past)
    (hpast : ref.IsIn past) (hin : ref.IsIn r') : ref.IsIn r := by
  cases h with
  | vault draft now =>
    cases ref with
    | account id => exact hin
    | vault id =>
      obtain ⟨v, hv, rfl⟩ := hin
      obtain ⟨v₀, hv₀, hid⟩ := hpast
      rcases List.mem_append.1 hv with hv | hv
      · exact ⟨v, hv, rfl⟩
      · rw [List.mem_singleton.1 hv] at hid
        exact absurd hid (hnew v₀ hv₀)
  | account draft now housed =>
    cases ref with
    | vault id => exact hin
    | account id =>
      obtain ⟨a, ha, rfl⟩ := hin
      obtain ⟨a₀, ha₀, hid⟩ := hpast
      rcases List.mem_append.1 ha with ha | ha
      · exact ⟨a, ha, rfl⟩
      · rw [List.mem_singleton.1 ha] at hid
        exact absurd hid (hnew a₀ ha₀)
  | rewritten m r' vaults accounts => exact (Reference.isIn_congr vaults accounts ref).1 hin
  | withoutVault target =>
    cases ref with
    | vault id =>
      obtain ⟨v, hv, hid⟩ := hin
      exact ⟨v, List.mem_of_mem_filter hv, hid⟩
    | account id =>
      obtain ⟨a, ha, hid⟩ := hin
      exact ⟨a, List.mem_of_mem_filter ha, hid⟩
  | withoutAccount target =>
    cases ref with
    | vault id => exact hin
    | account id =>
      obtain ⟨a, ha, hid⟩ := hin
      exact ⟨a, List.mem_of_mem_filter ha, hid⟩

end

/-! ## Calls -/

section
variable {c : Call} {calls before later rest : List Call} {s : Store} {ref : Reference}

/-- **A call leaves all records as they are that its operation is not on.** -/
theorem same_call (h : s.IsPlain) (hnot : ¬ c.operation.IsOn c.world s.records ref) :
    ref.Same s.records (c.run s).2.records := by
  rw [Call.run, (records_run c.operation (d := ⟨c.world, s⟩) h).2]
  cases hplan : (c.operation.plan c.world s.records).records? with
  | none => exact ref.same_refl s.records
  | some r => exact same_plan hnot hplan

/-- No call gives out an identifier that has been in use. -/
def GiveUnused (calls : List Call) (s : Store) : Prop :=
  ∀ before c rest, calls = before ++ c :: rest →
    ∀ r ∈ visited before s, c.operation.GivesNew c.world r

theorem mem_visited_start (calls : List Call) (s : Store) : s.records ∈ visited calls s := by
  cases calls <;> exact List.mem_cons_self

theorem GiveUnused.tail (h : GiveUnused (c :: rest) s) : GiveUnused rest (c.run s).2 := by
  rintro before c' rest' rfl r hr
  exact h (c :: before) c' rest' rfl r (List.mem_cons_of_mem _ hr)

theorem GiveUnused.giveNew (h : GiveUnused calls s) : GiveNew calls s := by
  induction calls generalizing s with
  | nil => trivial
  | cons c rest ih => exact ⟨h [] c rest rfl _ (mem_visited_start [] s), ih h.tail⟩

theorem distinct_after (h : s.IsPlain) (hs : s.records.Distinct) (hnew : GiveNew calls s) :
    (after calls s).records.Distinct := by
  induction calls generalizing s with
  | nil => exact hs
  | cons c rest ih =>
    obtain ⟨hplain, hrecords⟩ := records_call (c := c) h
    refine ih hplain ?_ hnew.2
    rcases hrecords with hsame | hmakes
    · rwa [hsame]
    · exact hmakes.distinct hnew.1 hs

/-- What there was in the beginning and is not there now, is not there after calls that give out no
identifier of the beginning. -/
theorem gone_of_givesNew {past : Records} (h : s.IsPlain) (hpast : ref.IsIn past)
    (hgone : ¬ ref.IsIn s.records) (hnew : ∀ c ∈ calls, c.operation.GivesNew c.world past) :
    ¬ ref.IsIn (after calls s).records := by
  induction calls generalizing s with
  | nil => exact hgone
  | cons c rest ih =>
    obtain ⟨hplain, hrecords⟩ := records_call (c := c) h
    refine ih hplain (fun hin => hgone ?_) fun c' hc' => hnew c' (List.mem_cons_of_mem c hc')
    rcases hrecords with hsame | hmakes
    · rwa [hsame] at hin
    · exact hmakes.isIn (hnew c List.mem_cons_self) hpast hin

/-- **A record that has gone does not come back.** -/
theorem gone_after (h : s.IsPlain) (hthere : ref.IsIn s.records) (hnew : GiveUnused (before ++ later) s)
    (hgone : ¬ ref.IsIn (after before s).records) : ¬ ref.IsIn (after (before ++ later) s).records := by
  rw [after_append]
  refine gone_of_givesNew (isPlain_after before h) hthere hgone fun c hc => ?_
  obtain ⟨front, back, rfl⟩ := List.append_of_mem hc
  exact hnew (before ++ front) c back (List.append_assoc _ _ _).symm _ (mem_visited_start _ s)

end

end Mutation

end VaultConsole
