import VaultConsole.Proofs.Session.Alike
import VaultConsole.Proofs.Session.Steady

/-!
# Asking for a record to be made

A line asks for a vault or an account to be made if its command is to create one. Such a line is answered
by what making the record comes to, and never with a question.

* `Line.Creates`, `Line.Mutates`: lines that make a record, and lines that make or delete one.
* `Session.creationOf`: the making that a line asks for.
* `Session.execute_of_creates`: **what a line does whose command is to create.**
-/

namespace VaultConsole

/-- The line is to make or to delete a vault or an account. -/
def Line.Mutates (l : Line) : Prop :=
  (Verb.ofToken? l.verb = some .vault ∨ Verb.ofToken? l.verb = some .account) ∧
    (unaliasAction l.subVerb = "create" ∨ unaliasAction l.subVerb = "delete")

/-- Whether the command of a line is to make a record of a kind. -/
def Line.Creates (l : Line) (kind : Deletable) : Prop :=
  l.verb = kind.word ∧ unaliasAction l.subVerb = "create"

theorem Line.Mutates.cases {l : Line} (h : l.Mutates) : ∃ kind, l.Creates kind ∨ l.Deletes kind := by
  obtain ⟨hverb, haction⟩ := h
  have hkind : ∃ kind : Deletable, l.verb = kind.word := by
    rcases hverb with hverb | hverb
    · exact ⟨.vault, Verb.ofToken?_eq_vault.1 hverb⟩
    · exact ⟨.account, Verb.ofToken?_eq_account.1 hverb⟩
  obtain ⟨kind, hkind⟩ := hkind
  rcases haction with hcreate | hdelete
  · exact ⟨kind, .inl ⟨hkind, hcreate⟩⟩
  · exact ⟨kind, .inr ⟨hkind, unaliasAction_eq_delete.1 hdelete⟩⟩

namespace Session

/-- The making of a record of a kind that a line asks for. -/
def creationOf (l : Line) : Deletable → Act Failure Session Entry
  | .vault => executeVaultCreate l
  | .account => executeAccountCreate l

theorem execute_of_creates {l : Line} {kind : Deletable} (hl : l.Creates kind) :
    execute l = answering (creationOf l kind) := by
  obtain ⟨hverb, haction⟩ := hl
  cases kind with
  | vault =>
    rw [execute_of_verb (Verb.ofToken?_eq_vault.2 hverb), executeVerb, VaultAction.select,
      selectAction, haction]
    rfl
  | account =>
    rw [execute_of_verb (Verb.ofToken?_eq_account.2 hverb), executeVerb, AccountAction.select,
      selectAction, haction]
    rfl

theorem sound_creationOf (l : Line) (kind : Deletable) : (creationOf l kind).Sound Steady Blames := by
  cases kind with
  | vault => exact sound_executeVault l .create
  | account => exact sound_executeAccountCreate l

/-- That a record was made is told, with no question and no records. -/
theorem yields_creationOf (l : Line) (kind : Deletable) :
    (creationOf l kind).Yields fun entry => ∃ message, entry = .success message := by
  cases kind with
  | vault => exact .bind fun _ => .bind fun _ => .pure ⟨_, rfl⟩
  | account =>
    exact .bind fun _ => .bind fun _ => .bind fun _ => .bind fun _ => .bind fun _ => .bind fun _ =>
      .pure ⟨_, rfl⟩

theorem twins_creationOf {S : Text → Text → Prop} {W : World → World → Prop}
    {R : Session → Session → Prop} [OverDepots S W R] [World.Parallel W] [Std.Refl S] {l l' : Line}
    (hl : l.Alike S l') (kind : Deletable) :
    (creationOf l kind).Twins R Eq (creationOf l' kind) := by
  have hflag (name : Text) (hname : name ∉ Event.secretNames) : l'.flag name = l.flag name := by
    rw [Line.flag, Line.flag, hl.flag?_eq name hname]
  cases kind with
  | vault =>
    refine (twins_required hl _ (by decide)).bind_eq fun name => ?_
    rw [hflag "description" (by decide)]
    exact twins_createVault name _
  | account =>
    refine (twins_required hl _ (by decide)).bind_eq fun vault => ?_
    refine (twins_required hl _ (by decide)).bind_eq fun name => ?_
    refine (twins_required hl _ (by decide)).bind_eq fun username => ?_
    refine (twins_requiredSecret hl _ _).bind fun password password' hpassword => ?_
    rw [hflag "url" (by decide), hflag "notes" (by decide)]
    exact twins_createAccount vault name username hpassword.related _ _

end Session

end VaultConsole
