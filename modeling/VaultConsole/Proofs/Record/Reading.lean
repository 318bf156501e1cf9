import Mathlib.Data.List.Forall2
import VaultConsole.Proofs.Act
import VaultConsole.Store.Records

/-!
# What is read as a record

A document is read as collections of records in one case only: it is an object whose two arrays
hold objects, each with all the fields that its kind of record has to have and with timestamps that
can be read. Then there is one record for each object, in the same order, and its fields are those
of the object.

* `Vault.IsReadFrom`, `Account.IsReadFrom`: the record of an object.
* `Records.IsReadFrom`: the collections of a document.
* `Records.ofJson_eq_ok_iff`: **a document is read exactly as the collections that it holds.**
-/

namespace VaultConsole

open List (Forall₂)

/-- Items are read one by one, and all of them or none. -/
theorem mapM_eq_ok_iff {ε α β : Type} {f : α → Except ε β} {items : List α} {results : List β} :
    items.mapM f = .ok results ↔ Forall₂ (fun a b => f a = .ok b) items results := by
  induction items generalizing results with
  | nil =>
    rw [List.mapM_nil, List.forall₂_nil_left_iff]
    constructor
    · intro h
      cases h
      rfl
    · rintro rfl
      rfl
  | cons a rest ih =>
    rw [List.mapM_cons, List.forall₂_cons_left_iff, bind_eq_ok_iff]
    constructor
    · rintro ⟨b, hb, h⟩
      obtain ⟨more, hmore, hresults⟩ := bind_eq_ok_iff.1 h
      cases hresults
      exact ⟨b, more, hb, ih.1 hmore, rfl⟩
    · rintro ⟨b, more, hb, hmore, rfl⟩
      exact ⟨b, hb, bind_eq_ok_iff.2 ⟨more, ih.2 hmore, rfl⟩⟩

namespace Json

/-- A field that holds a written timestamp. -/
def HoldsTimestamp (members : Table Text Json) (key : Text) (stamp : Timestamp) : Prop :=
  ∃ t, Table.get? key members = some (.text t) ∧ Timestamp.parse t = .ok stamp

theorem timestampField_eq_ok_iff {members : Table Text Json} {key : Text} {stamp : Timestamp} :
    timestampField members key = .ok stamp ↔ HoldsTimestamp members key stamp := by
  unfold timestampField HoldsTimestamp
  constructor
  · intro h
    split at h
    · next t ht =>
      split at h
      · next hparse =>
        cases h
        exact ⟨t, ht, hparse⟩
      · cases h
    · cases h
  · rintro ⟨t, ht, hparse⟩
    simp only [ht, hparse]

theorem missingKeys_eq_nil_iff {required : List Text} {members : Table Text Json} :
    missingKeys required members = [] ↔ ∀ key ∈ required, Table.has key members = true := by
  have hsort : ∀ keys : List Text, Text.sort keys = [] ↔ keys = [] := by
    intro keys
    rw [← List.length_eq_zero_iff, Text.sort, List.length_mergeSort, List.length_eq_zero_iff]
  rw [missingKeys, hsort, List.filter_eq_nil_iff]
  simp only [Bool.not_eq_true', Bool.not_eq_false]

end Json

/-- The vault of an object, which has all fields of a vault and two timestamps. -/
structure Vault.IsReadFrom (members : Table Text Json) (v : Vault) : Prop where
  complete : ∀ key ∈ requiredKeys, Table.has key members = true
  created : Json.HoldsTimestamp members "created_at" v.created
  modified : Json.HoldsTimestamp members "modified_at" v.modified
  id : v.id = Json.textField members "id"
  name : v.name = Json.textField members "name"
  description : v.description = Json.optionalField members "description"

/-- The account of an object, which has all fields of an account and two timestamps. -/
structure Account.IsReadFrom (members : Table Text Json) (a : Account) : Prop where
  complete : ∀ key ∈ requiredKeys, Table.has key members = true
  created : Json.HoldsTimestamp members "created_at" a.created
  modified : Json.HoldsTimestamp members "modified_at" a.modified
  id : a.id = Json.textField members "id"
  vaultId : a.vaultId = Json.textField members "vault_id"
  name : a.name = Json.textField members "name"
  username : a.username = Json.textField members "username"
  password : a.password = Json.textField members "password"
  url : a.url = Json.optionalField members "url"
  notes : a.notes = Json.optionalField members "notes"

/-- Only an object has members. -/
theorem Json.membersFor_eq_ok_iff {operation : Text} {value : Json} {members : Table Text Json} :
    value.membersFor operation = .ok members ↔ value = .object members := by
  constructor
  · intro h
    cases value with
    | object fields =>
      cases h
      rfl
    | null | bool _ | int _ | real _ | text _ | array _ => cases h
  · rintro rfl
    rfl

theorem Vault.ofJson_eq_ok_iff {value : Json} {v : Vault} :
    Vault.ofJson value = .ok v ↔ ∃ members, value = .object members ∧ v.IsReadFrom members := by
  unfold ofJson
  rw [bind_eq_ok_iff]
  refine exists_congr fun members => and_congr Json.membersFor_eq_ok_iff ?_
  constructor
  · intro h
    split at h
    · next hmissing =>
      obtain ⟨created, hcreated, h⟩ := bind_eq_ok_iff.1 h
      obtain ⟨modified, hmodified, h⟩ := bind_eq_ok_iff.1 h
      cases h
      exact {
        complete := Json.missingKeys_eq_nil_iff.1 hmissing
        created := Json.timestampField_eq_ok_iff.1 hcreated
        modified := Json.timestampField_eq_ok_iff.1 hmodified
        id := rfl, name := rfl, description := rfl }
    · cases h
  · intro h
    simp only [Json.missingKeys_eq_nil_iff.2 h.complete, bind, Except.bind,
      Json.timestampField_eq_ok_iff.2 h.created, Json.timestampField_eq_ok_iff.2 h.modified,
      ← h.id, ← h.name, ← h.description]
    rfl

theorem Account.ofJson_eq_ok_iff {value : Json} {a : Account} :
    Account.ofJson value = .ok a ↔ ∃ members, value = .object members ∧ a.IsReadFrom members := by
  unfold ofJson
  rw [bind_eq_ok_iff]
  refine exists_congr fun members => and_congr Json.membersFor_eq_ok_iff ?_
  constructor
  · intro h
    split at h
    · next hmissing =>
      obtain ⟨created, hcreated, h⟩ := bind_eq_ok_iff.1 h
      obtain ⟨modified, hmodified, h⟩ := bind_eq_ok_iff.1 h
      cases h
      exact {
        complete := Json.missingKeys_eq_nil_iff.1 hmissing
        created := Json.timestampField_eq_ok_iff.1 hcreated
        modified := Json.timestampField_eq_ok_iff.1 hmodified
        id := rfl, vaultId := rfl, name := rfl, username := rfl, password := rfl, url := rfl
        notes := rfl }
    · cases h
  · intro h
    simp only [Json.missingKeys_eq_nil_iff.2 h.complete, bind, Except.bind,
      Json.timestampField_eq_ok_iff.2 h.created, Json.timestampField_eq_ok_iff.2 h.modified,
      ← h.id, ← h.vaultId, ← h.name, ← h.username, ← h.password, ← h.url, ← h.notes]
    rfl

namespace Records

/-- The collections of a document: for each object of its two arrays a record, in order. -/
def IsReadFrom (value : Json) (r : Records) : Prop :=
  ∃ (members : Table Text Json) (vaults accounts : List Json), value = .object members ∧
    Table.get? ("vaults" : Text) members = some (.array vaults) ∧
    Table.get? ("accounts" : Text) members = some (.array accounts) ∧
    Forall₂ (fun item v => ∃ fields, item = .object fields ∧ v.IsReadFrom fields) vaults r.vaults ∧
    Forall₂ (fun item a => ∃ fields, item = .object fields ∧ a.IsReadFrom fields) accounts
      r.accounts

theorem arrayOf_eq_ok_iff {key : Text} {members : Table Text Json} {items : List Json} :
    arrayOf key members = .ok items ↔ Table.get? key members = some (.array items) := by
  unfold arrayOf
  constructor
  · intro h
    split at h
    · cases h
    · next hget =>
      cases h
      exact hget
    · cases h
  · intro h
    rw [h]

theorem checkObjects_of_objects {kind : Text} {items : List Json}
    (h : ∀ item ∈ items, ∃ fields, item = .object fields) (index : Nat) :
    checkObjects kind index items = .ok () := by
  induction items generalizing index with
  | nil => rfl
  | cons item rest ih =>
    obtain ⟨fields, rfl⟩ := h item List.mem_cons_self
    exact ih (fun item hi => h item (List.mem_cons_of_mem _ hi)) (index + 1)

/-- What is read one by one are objects. -/
theorem objects_of_forall₂ {α : Type} {R : Table Text Json → α → Prop} {items : List Json}
    {records : List α}
    (h : Forall₂ (fun item a => ∃ fields, item = .object fields ∧ R fields a) items records) :
    ∀ item ∈ items, ∃ fields, item = .object fields := by
  induction h with
  | nil => exact fun _ hi => absurd hi List.not_mem_nil
  | cons hfirst _ ih =>
    obtain ⟨fields, hfields, -⟩ := hfirst
    intro item hi
    rcases List.mem_cons.1 hi with rfl | hi
    · exact ⟨fields, hfields⟩
    · exact ih item hi

/-- The two arrays of an object. -/
theorem arraysOf_eq_ok {value : Json} {vaults accounts : List Json}
    (h : arraysOf value = .ok (vaults, accounts)) :
    ∃ members, value = .object members ∧ Table.get? ("vaults" : Text) members = some (.array vaults) ∧
      Table.get? ("accounts" : Text) members = some (.array accounts) := by
  cases value with
  | object members =>
    obtain ⟨vaults', hvaults, h⟩ := bind_eq_ok_iff.1 h
    obtain ⟨accounts', haccounts, h⟩ := bind_eq_ok_iff.1 h
    obtain ⟨-, -, h⟩ := bind_eq_ok_iff.1 h
    obtain ⟨-, -, h⟩ := bind_eq_ok_iff.1 h
    cases h
    exact ⟨members, rfl, arrayOf_eq_ok_iff.1 hvaults, arrayOf_eq_ok_iff.1 haccounts⟩
  | null | bool _ | int _ | real _ | text _ | array _ => cases h

/-- **A document is read exactly as the collections that it holds.** -/
theorem ofJson_eq_ok_iff {value : Json} {r : Records} :
    ofJson value = .ok r ↔ r.IsReadFrom value := by
  constructor
  · intro h
    obtain ⟨⟨vaults, accounts⟩, harrays, h⟩ := bind_eq_ok_iff.1 h
    obtain ⟨vs, hvs, h⟩ := bind_eq_ok_iff.1 h
    obtain ⟨as, has, h⟩ := bind_eq_ok_iff.1 h
    cases h
    obtain ⟨members, hobject, hvaults, haccounts⟩ := arraysOf_eq_ok harrays
    refine ⟨members, vaults, accounts, hobject, hvaults, haccounts, ?_, ?_⟩
    · exact (mapM_eq_ok_iff.1 hvs).imp fun _ _ hitem => Vault.ofJson_eq_ok_iff.1 hitem
    · exact (mapM_eq_ok_iff.1 has).imp fun _ _ hitem => Account.ofJson_eq_ok_iff.1 hitem
  · rintro ⟨members, vaults, accounts, rfl, hvaults, haccounts, hv, ha⟩
    have hvs : vaults.mapM Vault.ofJson = .ok r.vaults :=
      mapM_eq_ok_iff.2 (hv.imp fun _ _ hitem => Vault.ofJson_eq_ok_iff.2 hitem)
    have has : accounts.mapM Account.ofJson = .ok r.accounts :=
      mapM_eq_ok_iff.2 (ha.imp fun _ _ hitem => Account.ofJson_eq_ok_iff.2 hitem)
    simp only [ofJson, arraysOf, bind, Except.bind, arrayOf_eq_ok_iff.2 hvaults,
      arrayOf_eq_ok_iff.2 haccounts, checkObjects_of_objects (objects_of_forall₂ hv),
      checkObjects_of_objects (objects_of_forall₂ ha), pure, Except.pure, hvs, has]

end Records

end VaultConsole
