import VaultConsole.Proofs.Line.Places
import VaultConsole.Proofs.Secrecy
import VaultConsole.Proofs.Session.Answering

/-!
# Which lines unveil a secret

The secret of an account is shown if the line reports the name `reveal`, and of all commands only the one
that shows an account looks at that name. So a secret is unveiled where a flag of that name begins, and
there the name ends with its word: the line may go on in any way that is no word.

* `Session.unveiled_iff_begins`: **what is reported and what is unveiled, by the places where flags
  begin.**
* `Session.exists_unveiled_without_token`: a line that unveils a secret without the token `--reveal`.
-/

namespace VaultConsole

open Flags (mark)

theorem Line.hasSwitch_iff (l : Line) (name : Text) :
    l.hasSwitch name = true ↔ l.flags.Reports name := by
  simp [Line.hasSwitch, Flags.Reports, or_comm]

namespace Session

/-- **A name is reported exactly if a flag of that name begins somewhere in the line, and the secret of an
account is unveiled exactly if that is so of `reveal`.** Where a flag begins, a blank or the end of the
line may follow its name, and so may anything else that is no word. -/
theorem unveiled_iff_begins (line : Text) :
    (∀ name, (Flags.parse line).Reports name ↔ ∃ front after, Flags.Begins line name front after) ∧
      (∀ name front after, Flags.Begins line name front after →
        line = front ++ (mark ++ (name ++ after)) ∧
          (after.Pauses ∨ ∃ c rest, after = c :: rest ∧ c.isBlank = false ∧ c.isWord = false)) ∧
      ∀ (l : Line) (s s' : Session) (e : Entry) (account vault : Text) (reveal : Bool),
        Line.parse line = some l → execute l s = (.ok (.entry e), s') →
        e.payload = some (.accountDetail account vault reveal) →
        (reveal = true ↔ ∃ front after, Flags.Begins line.strip "reveal" front after) := by
  refine ⟨Flags.reports_iff_begins line, fun name front after h => ⟨h.reached.eq, ?_⟩,
    fun l s s' e account vault reveal hparse hrun hpayload => ?_⟩
  · cases after with
    | nil => exact .inl Text.pauses_nil
    | cons c rest =>
      cases hblank : c.isBlank with
      | false => exact .inr ⟨c, rest, rfl, hblank, h.ends c rfl⟩
      | true =>
        refine .inl fun d hd => ?_
        cases hd
        exact hblank
  · have hdetails := (answers_execute l s (.entry e) (by rw [hrun]) e rfl).details account vault reveal hpayload
    have hflags : l.flags = Flags.parse line.strip := by
      unfold Line.parse at hparse
      simp only at hparse
      split at hparse
      · cases hparse
      · cases hparse
        rfl
    rw [hdetails, l.hasSwitch_iff, hflags, Flags.reports_iff_begins]

/-- A line in which something follows the name `reveal` that is neither a blank nor a word. -/
def sampleUnveiling : Text := "account show --name Mail --reveal=no"

/-- What an account that is shown unveiled is answered with. -/
def sampleUnveiled : Entry := .found "Account: Mail" (.accountDetail "m" "v" true)

theorem begins_sampleUnveiling :
    ∃ l, Line.parse sampleUnveiling = some l ∧
      (execute l (sampleSecretive "one")).1 = .ok (.entry sampleUnveiled) ∧
      ∃ front after, Flags.Begins sampleUnveiling.strip "reveal" front after := by
  have hshown : ∃ l ∈ Line.parse sampleUnveiling,
      (execute l (sampleSecretive "one")).1 = .ok (.entry sampleUnveiled) := by
    decide +kernel
  obtain ⟨l, hl, hrun⟩ := hshown
  exact ⟨l, hl, hrun, ((unveiled_iff_begins sampleUnveiling).2.2 l (sampleSecretive "one") _
    sampleUnveiled "m" "v" true hl (Prod.ext hrun rfl) rfl).1 rfl⟩

/-- **A line reports a name of which it has no token**, and an account is shown with its secret by it. -/
theorem exists_unveiled_without_token :
    ¬ sampleUnveiling.HasToken "--reveal" ∧ (Flags.parse sampleUnveiling).Reports "reveal" ∧
      (∃ l ∈ Line.parse sampleUnveiling,
        (execute l (sampleSecretive "one")).1 = .ok (.entry sampleUnveiled)) ∧
      (showEntry .universal sampleUnveiled (sampleSecretive "one")).1.map (Text.occursIn "Password: one") =
        .ok true :=
  ⟨by decide +kernel, by decide +kernel, by decide +kernel, by decide +kernel⟩

end Session

end VaultConsole
