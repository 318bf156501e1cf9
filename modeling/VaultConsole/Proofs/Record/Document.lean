import VaultConsole.Proofs.Time.Iso
import VaultConsole.Store.Records

/-!
# Records survive their documents

A record's object has every required key once, its texts are texts, and its timestamps are in
their written form, so the object is read as the record. The same holds of whole collections, by
both of the ways in which a document is read: the checked one of a data file, and the unchecked
one of a rollback.

* `Vault.ofJson_toJson`, `Account.ofJson_toJson`: one record.
* `Records.ofJson_toJson`: the collections of a data file.
* `Records.recordsUnder_vaults`, `Records.recordsUnder_accounts`: the collections of a rollback.
-/

namespace VaultConsole

/-- A text that may be left out is read as it was written, also where it is empty. -/
theorem Json.optionalField_text {members : Table Text Json} {key t : Text}
    (h : Table.get? key members = some (.text t)) : optionalField members key = t := by
  unfold optionalField
  rw [h]
  cases t with
  | nil => rfl
  | cons c rest => rfl

theorem Json.textField_text {members : Table Text Json} {key t : Text}
    (h : Table.get? key members = some (.text t)) : textField members key = t := by
  unfold textField
  rw [h]
  rfl

theorem Json.timestampField_isoText {members : Table Text Json} {key : Text} {t : Timestamp}
    (h : Table.get? key members = some (.text t.isoText)) : timestampField members key = .ok t := by
  unfold timestampField
  rw [h]
  simp only [Timestamp.parse_isoText]

theorem Json.missingKeys_eq_nil {required : List Text} {members : Table Text Json}
    (h : required.all (fun key => Table.has key members) = true) :
    missingKeys required members = [] := by
  unfold missingKeys
  rw [List.filter_eq_nil_iff.2 fun key hk => by simp [List.all_eq_true.1 h key hk]]
  simp [Text.sort]

/-- **The object of a vault is read as the vault.** -/
theorem Vault.ofJson_toJson (v : Vault) : Vault.ofJson v.toJson = .ok v := by
  unfold Vault.ofJson Vault.toJson
  simp only [Json.membersFor, bind, Except.bind]
  rw [Json.missingKeys_eq_nil (by rfl)]
  simp only
  rw [Json.timestampField_isoText rfl, Json.timestampField_isoText rfl,
    Json.textField_text rfl, Json.textField_text rfl, Json.optionalField_text rfl]
  rfl

/-- **The object of an account is read as the account.** -/
theorem Account.ofJson_toJson (a : Account) : Account.ofJson a.toJson = .ok a := by
  unfold Account.ofJson Account.toJson
  simp only [Json.membersFor, bind, Except.bind]
  rw [Json.missingKeys_eq_nil (by rfl)]
  simp only
  rw [Json.timestampField_isoText rfl, Json.timestampField_isoText rfl]
  simp only
  rw [Json.textField_text rfl, Json.textField_text rfl, Json.textField_text rfl,
    Json.textField_text rfl, Json.textField_text rfl, Json.optionalField_text rfl,
    Json.optionalField_text rfl]
  rfl

namespace Records

theorem mapM_ofJson_toJson {α : Type} {toJson : α → Json} {ofJson : Json → Except Failure α}
    (h : ∀ a, ofJson (toJson a) = .ok a) (items : List α) :
    (items.map toJson).mapM ofJson = .ok items := by
  induction items with
  | nil => rfl
  | cons a rest ih =>
    rw [List.map_cons, List.mapM_cons, h, ih]
    rfl

theorem checkObjects_map {α : Type} (toJson : α → Json)
    (h : ∀ a, ∃ members, toJson a = .object members) (kind : Text) (index : Nat)
    (items : List α) : checkObjects kind index (items.map toJson) = .ok () := by
  induction items generalizing index with
  | nil => rfl
  | cons a rest ih =>
    obtain ⟨members, hm⟩ := h a
    rw [List.map_cons, hm, checkObjects, ih]

/-- **Collections are read from their document.** -/
theorem ofJson_toJson (r : Records) : Records.ofJson r.toJson = .ok r := by
  unfold Records.ofJson
  have harrays : arraysOf r.toJson =
      .ok (r.vaults.map Vault.toJson, r.accounts.map Account.toJson) := by
    unfold arraysOf toJson
    simp only
    rw [show arrayOf "vaults" _ = Except.ok (r.vaults.map Vault.toJson) from rfl,
      show arrayOf "accounts" _ = Except.ok (r.accounts.map Account.toJson) from rfl]
    simp only [bind, Except.bind]
    rw [checkObjects_map Vault.toJson (fun v => ⟨_, rfl⟩),
      checkObjects_map Account.toJson (fun a => ⟨_, rfl⟩)]
    rfl
  rw [harrays]
  simp only [bind, Except.bind]
  rw [mapM_ofJson_toJson Vault.ofJson_toJson, mapM_ofJson_toJson Account.ofJson_toJson]
  rfl

/-- The vaults of the document of collections, read without a check. -/
theorem recordsUnder_vaults (r : Records) :
    recordsUnder Vault.ofJson "vaults" r.toJson = .ok r.vaults :=
  mapM_ofJson_toJson Vault.ofJson_toJson r.vaults

/-- The accounts of the document of collections, read without a check. -/
theorem recordsUnder_accounts (r : Records) :
    recordsUnder Account.ofJson "accounts" r.toJson = .ok r.accounts :=
  mapM_ofJson_toJson Account.ofJson_toJson r.accounts

end Records

end VaultConsole
