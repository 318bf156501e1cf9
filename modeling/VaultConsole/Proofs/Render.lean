import VaultConsole.Proofs.Session.Secrecy
import VaultConsole.Render

/-!
# What is shown of accounts that are alike

An entry names records, and shows what there is to them at the time. A secret is shown only where an
account is to be shown unveiled. All other entries look the same on sessions that are alike.

* `Entry.Unveils`: entries that show a secret.
* `Snapshot.entryText_alike`, `Session.twins_showEntry`: **all other entries look the same.**
-/

namespace VaultConsole

open List (Forall₂)

/-- The secret of an account is among what a payload shows. -/
def Payload.Unveils : Payload → Prop
  | .accountDetail _ _ reveal => reveal = true
  | _ => False

/-- The secret of an account is among what an entry shows. -/
def Entry.Unveils (e : Entry) : Prop := ∃ p, e.payload = some p ∧ p.Unveils

/-- The same records, but for the secrets of accounts. -/
inductive Snapshot.Alike (S : Text → Text → Prop) : Snapshot → Snapshot → Prop
  | intro (s : Snapshot) {accounts : List Account} (h : Forall₂ (Account.Alike S) s.accounts accounts) :
      Alike S s { s with accounts }

namespace Snapshot

variable {S : Text → Text → Prop} {s s' : Snapshot}

/-- An account is found on both sides, the same but for its secret, or on none. -/
theorem Alike.found (h : s.Alike S s') (id : Text) :
    (s.account? id = none ∧ s'.account? id = none) ∨
      ∃ a secret, s.account? id = some a ∧ s'.account? id = some { a with password := secret } := by
  obtain ⟨h⟩ := h
  have hfound : Option.Rel (Account.Alike S) (s.account? id) (account? { s with accounts := _ } id) :=
    Records.rel_find? (List.rel_reverse h) (by rintro _ _ ⟨⟩; rfl)
  generalize s.account? id = found at hfound ⊢
  generalize account? _ id = found' at hfound ⊢
  cases hfound with
  | none => exact .inl ⟨rfl, rfl⟩
  | some ha =>
    obtain ⟨-⟩ := ha
    exact .inr ⟨_, _, rfl, rfl⟩

/-- What is shown of vaults and of times does not look at accounts. -/
theorem Alike.rest (h : s.Alike S s') : s' = { s with accounts := s'.accounts } := by
  obtain ⟨-⟩ := h
  rfl

theorem Alike.vault? (h : s.Alike S s') : s'.vault? = s.vault? := by
  rw [h.rest]
  rfl

theorem Alike.vaultName (h : s.Alike S s') : s'.vaultName = s.vaultName := by
  rw [h.rest]
  rfl

theorem Alike.wall (h : s.Alike S s') : s'.wall = s.wall := by
  have hzone : s'.zone = s.zone := by rw [h.rest]
  unfold Snapshot.wall
  rw [hzone]

theorem Alike.dateText (h : s.Alike S s') : s'.dateText = s.dateText := by
  unfold Snapshot.dateText
  rw [h.wall]

theorem Alike.momentText (h : s.Alike S s') : s'.momentText = s.momentText := by
  unfold Snapshot.momentText
  rw [h.wall]

theorem vaultRow_alike (h : s.Alike S s') : s.vaultRow = s'.vaultRow := by
  unfold vaultRow
  rw [h.vault?, h.dateText]

theorem accountRow_alike (h : s.Alike S s') (number id : Text) :
    s.accountRow number id = s'.accountRow number id := by
  unfold accountRow
  rcases h.found id with ⟨hnone, hnone'⟩ | ⟨a, secret, hsome, hsome'⟩
  · rw [hnone, hnone']
  · simp only [hsome, hsome', h.vaultName]

theorem accountName_alike (h : s.Alike S s') (id : Text) : s.accountName id = s'.accountName id := by
  unfold accountName
  rcases h.found id with ⟨hnone, hnone'⟩ | ⟨a, secret, hsome, hsome'⟩
  · rw [hnone, hnone']
  · rw [hsome, hsome']
    rfl

theorem foundAccount_alike (h : s.Alike S s') (id : Text) :
    s.foundAccount id = s'.foundAccount id := by
  unfold foundAccount
  rcases h.found id with ⟨hnone, hnone'⟩ | ⟨a, secret, hsome, hsome'⟩
  · rw [hnone, hnone']
  · simp only [hsome, hsome']

theorem recentAccount_alike (h : s.Alike S s') (id : Text) :
    s.recentAccount id = s'.recentAccount id := by
  unfold recentAccount
  rcases h.found id with ⟨hnone, hnone'⟩ | ⟨a, secret, hsome, hsome'⟩
  · rw [hnone, hnone']
  · simp only [hsome, hsome', h.dateText]

/-- A veiled secret is shown as all secrets are. -/
theorem accountDetail_alike (h : s.Alike S s') (id vaultId : Text) :
    s.accountDetail id vaultId false = s'.accountDetail id vaultId false := by
  unfold accountDetail
  rcases h.found id with ⟨hnone, hnone'⟩ | ⟨a, secret, hsome, hsome'⟩
  · rw [hnone, hnone']
  · simp only [hsome, hsome', h.vaultName, h.momentText, Bool.false_eq_true, if_false]

theorem vaultDetail_alike (h : s.Alike S s') (id : Text) (accounts : List Text) :
    s.vaultDetail id accounts = s'.vaultDetail id accounts := by
  have hnames : s.accountName = s'.accountName := funext fun id => accountName_alike h id
  unfold vaultDetail
  rw [hnames, h.vault?, h.momentText]

theorem searchResults_alike (h : s.Alike S s') (vaults accounts : List Text) :
    s.searchResults vaults accounts = s'.searchResults vaults accounts := by
  have hfound : s.foundAccount = s'.foundAccount := funext fun id => foundAccount_alike h id
  unfold searchResults
  rw [hfound, h.vault?]

/-- What is veiled looks the same. -/
theorem payloadLines_alike (h : s.Alike S s') {p : Payload} (hveiled : ¬ p.Unveils) :
    s.payloadLines p = s'.payloadLines p := by
  cases p with
  | vaultList ids => simp only [payloadLines, vaultRow_alike h]
  | accountList ids => simp only [payloadLines, accountRow_alike h]
  | vaultDetail id accounts => exact vaultDetail_alike h id accounts
  | accountDetail id vaultId reveal =>
    cases reveal with
    | false => exact accountDetail_alike h id vaultId
    | true => exact absurd rfl hveiled
  | searchResults vaults accounts => simp only [payloadLines, searchResults_alike h]
  | stats vaults accounts recent =>
    have hrecent : s.recentAccount = s'.recentAccount := funext fun id => recentAccount_alike h id
    simp only [payloadLines, hrecent]

theorem entryText_alike (h : s.Alike S s') {e : Entry} (hveiled : ¬ e.Unveils) :
    s.entryText e = s'.entryText e := by
  unfold entryText
  cases hp : e.payload with
  | none => rfl
  | some p => simp only [payloadText, payloadLines_alike h fun hu => hveiled ⟨p, hp, hu⟩]

end Snapshot

namespace Session

variable {S : Text → Text → Prop}

theorem twins_snapshot (zone : Zone) :
    (snapshot zone).Twins (Alike S) (Snapshot.Alike S) (snapshot zone) :=
  (twins_vaultsWith _).bind_eq fun vaults => (twins_accountsWith _).bind fun accounts _ ha =>
    .pure (.intro ⟨vaults, accounts, zone⟩ ha)

/-- **An entry that unveils no secret** looks the same on sessions that are alike. -/
theorem twins_showEntry (zone : Zone) {e : Entry} (hveiled : ¬ e.Unveils) :
    (showEntry zone e).Twins (Alike S) Eq (showEntry zone e) := by
  unfold showEntry
  cases e.payload with
  | none => exact .settle (.refl _)
  | some p =>
    refine (twins_snapshot zone).bind fun snapshot snapshot' h => ?_
    rw [Snapshot.entryText_alike h hveiled]
    exact .settle (.refl _)

end Session

end VaultConsole
