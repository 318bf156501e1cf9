import VaultConsole.Proofs.Record.Document
import VaultConsole.Proofs.Record.Reading

/-!
# Records survive being written

A payload may hold a record in many forms. Any value stands for a text, and a timestamp may be a week
date, have neither hyphens nor colons, stop at the hour, have a fraction of any length or name no clock.
The object that is written for the record holds it in one form only, and is read as the same record: with
every text, and with the date, the time of day and the distance of the clock of both timestamps. So a
payload is settled once its record was written, and nothing changes from then on.

* `Json.Holds`: a timestamp that a value holds under a key.
* `Json.Survives`: what was read from a payload is read from its own object too.
* `Json.survives_of_read`: **every record that can be read survives being written.**
-/

namespace VaultConsole

namespace Json

/-- Under a key a value holds a written timestamp, with this date, this time of day to the microsecond
and this distance of its clock. -/
def Holds (value : Json) (key : Text) (stamp : Timestamp) : Prop :=
  ∃ members, value = .object members ∧ HoldsTimestamp members key stamp

/-- A record that was read from a payload survives being written. -/
structure Survives {α : Type} (read : Json → Except Failure α) (write : α → Json)
    (created modified : α → Timestamp) (value : Json) (r : α) : Prop where
  /-- Its object is read as the record, with every field. -/
  reread : read (write r) = .ok r
  /-- Whatever its object is read as has the same object. -/
  rewritten : ∀ again, read (write r) = .ok again → write again = write r
  /-- The payload and the object hold one timestamp of its making. -/
  created : value.Holds "created_at" (created r) ∧ (write r).Holds "created_at" (created r)
  /-- They hold one timestamp of its last change. -/
  modified : value.Holds "modified_at" (modified r) ∧ (write r).Holds "modified_at" (modified r)

section
variable {α : Type} {read : Json → Except Failure α} {write : α → Json} {created modified : α → Timestamp}
  {value : Json} {r : α}

/-- A kind of record whose objects are read as their records survives being written, if what is read has
the timestamps that are held. -/
theorem Survives.of_read_write (hsame : ∀ r, read (write r) = .ok r)
    (hstamps : ∀ value r, read value = .ok r →
      value.Holds "created_at" (created r) ∧ value.Holds "modified_at" (modified r))
    (h : read value = .ok r) : Survives read write created modified value r := by
  have hpayload := hstamps value r h
  have hobject := hstamps (write r) r (hsame r)
  have hrewritten : ∀ again, read (write r) = .ok again → write again = write r := by
    intro again hagain
    rw [hsame r] at hagain
    cases hagain
    rfl
  exact ⟨hsame r, hrewritten, ⟨hpayload.1, hobject.1⟩, hpayload.2, hobject.2⟩

end

end Json

theorem Vault.holds_of_ofJson {value : Json} {v : Vault} (h : Vault.ofJson value = .ok v) :
    value.Holds "created_at" v.created ∧ value.Holds "modified_at" v.modified := by
  obtain ⟨members, hobject, hread⟩ := Vault.ofJson_eq_ok_iff.1 h
  exact ⟨⟨members, hobject, hread.created⟩, members, hobject, hread.modified⟩

theorem Account.holds_of_ofJson {value : Json} {a : Account} (h : Account.ofJson value = .ok a) :
    value.Holds "created_at" a.created ∧ value.Holds "modified_at" a.modified := by
  obtain ⟨members, hobject, hread⟩ := Account.ofJson_eq_ok_iff.1 h
  exact ⟨⟨members, hobject, hread.created⟩, members, hobject, hread.modified⟩

namespace Json

/-- **Every record that can be read survives being written**, in whatever form its payload held it. -/
theorem survives_of_read (value : Json) :
    (∀ v, Vault.ofJson value = .ok v →
      Survives Vault.ofJson Vault.toJson Vault.created Vault.modified value v) ∧
    ∀ a, Account.ofJson value = .ok a →
      Survives Account.ofJson Account.toJson Account.created Account.modified value a := by
  have hvault : ∀ value v, Vault.ofJson value = .ok v →
      value.Holds "created_at" v.created ∧ value.Holds "modified_at" v.modified :=
    fun _ _ => Vault.holds_of_ofJson
  have haccount : ∀ value a, Account.ofJson value = .ok a →
      value.Holds "created_at" a.created ∧ value.Holds "modified_at" a.modified :=
    fun _ _ => Account.holds_of_ofJson
  exact ⟨fun _ => Survives.of_read_write Vault.ofJson_toJson hvault,
    fun _ => Survives.of_read_write Account.ofJson_toJson haccount⟩

/-- A payload that is read as a vault and as an account: values for texts that are none, a week date by a
clock that is behind by a fraction of a second too, and the first day of the calendar without hyphens, by
no clock. -/
def samplePayload : Json :=
  .object
    [("id", .int 7), ("vault_id", .null), ("name", .array [.bool true]), ("username", .text ""),
      ("password", .text "p"), ("url", .bool false), ("description", .int 0),
      ("created_at", .text "2024-W09-4T10:20:30,1234567-05:30:15.00025"),
      ("modified_at", .text "0001W011 00")]

/-- The vault of this payload. -/
def samplePayloadVault : Vault where
  id := "7"
  name := "[True]"
  description := ""
  created := ⟨2024, 2, 29, 10, 20, 30, 123456, -19815000250, by decide⟩
  modified := ⟨1, 1, 1, 0, 0, 0, 0, 0, by decide⟩

/-- The account of this payload. -/
def samplePayloadAccount : Account where
  id := "7"
  vaultId := "None"
  name := "[True]"
  username := ""
  password := "p"
  url := ""
  notes := ""
  created := samplePayloadVault.created
  modified := samplePayloadVault.modified

theorem survives_samplePayload :
    Survives Vault.ofJson Vault.toJson Vault.created Vault.modified samplePayload samplePayloadVault ∧
      Survives Account.ofJson Account.toJson Account.created Account.modified samplePayload
        samplePayloadAccount := by
  have hvault : Vault.ofJson samplePayload = .ok samplePayloadVault := by decide +kernel
  have haccount : Account.ofJson samplePayload = .ok samplePayloadAccount := by decide +kernel
  obtain ⟨hvaults, haccounts⟩ := survives_of_read samplePayload
  exact ⟨hvaults _ hvault, haccounts _ haccount⟩

end Json

end VaultConsole
