import VaultConsole.Proofs.Line.Written
import VaultConsole.Proofs.Session.Request
import VaultConsole.Proofs.Text.Blank
import VaultConsole.Proofs.Text.Lower

/-!
# Searching

A search compares small forms: a record is found if the small form of the query is part of the small
form of one of its fields. So what stands in a field is found there whatever its case, unless the field
disturbs it: a capital sigma that ends the query and does not end a word in the field has another small
form there, and a record that holds the query letter for letter can be missed.

* `Vault.searched`, `Account.searched`: the fields that are searched.
* `Text.FoundIn`: a text is found in one of some fields.
* `Text.foundIn_of_mem`: so it is where a field holds it undisturbed.
* `Session.Searched`: what a search does.
* `Session.searched_of_orderly`: **a search finds the records with the small form of the query in a
  field, and no others.**
-/

namespace VaultConsole

/-- The fields of a vault that are searched. -/
def Vault.searched (v : Vault) : List Text := [v.name, v.description]

/-- The fields of an account that are searched. The secret and the notes are not among them. -/
def Account.searched (a : Account) : List Text := [a.name, a.username, a.url]

/-! ## What is found -/

namespace Text

/-- A text is found in one of some fields, all of them in lower case. -/
def FoundIn (q : Text) (fields : List Text) : Prop := ∃ field ∈ fields, q.lower <:+: field.lower

instance (q : Text) (fields : List Text) : Decidable (q.FoundIn fields) :=
  inferInstanceAs (Decidable (∃ field ∈ fields, _))

/-- What a field holds is found in it by every text of the same small form, unless the field disturbs
it. -/
theorem foundIn_of_mem {q before form after : Text} {fields : List Text}
    (hfield : before ++ form ++ after ∈ fields) (hform : form.lower = q.lower)
    (h : Undisturbed before form after) : q.FoundIn fields := by
  refine ⟨before ++ form ++ after, hfield, ?_⟩
  rw [← hform]
  exact h.infix_lower

end Text

namespace Session

theorem vaultMatches_lower (q : Text) (v : Vault) :
    vaultMatches q.lower v = decide (q.FoundIn v.searched) := by
  rw [Bool.eq_iff_iff, decide_eq_true_iff, vaultMatches, Bool.or_eq_true, Text.occursIn_iff,
    Text.occursIn_iff]
  simp [Text.FoundIn, Vault.searched]

theorem accountMatches_lower (q : Text) (a : Account) :
    accountMatches q.lower a = decide (q.FoundIn a.searched) := by
  rw [Bool.eq_iff_iff, decide_eq_true_iff, accountMatches, Bool.or_eq_true, Bool.or_eq_true,
    Text.occursIn_iff, Text.occursIn_iff, Text.occursIn_iff]
  simp [Text.FoundIn, Account.searched, or_assoc]

variable {s : Session} {q : Text}

section
variable (h : s.depot.store.faults = []) (hq : q.isBlank = false)
include h hq

theorem search_run :
    search q s =
      (let vaults := s.depot.store.records.vaults.filter (q.FoundIn ·.searched)
      let accounts := s.depot.store.records.accounts.filter (q.FoundIn ·.searched)
      .ok (if vaults.isEmpty && accounts.isEmpty then
          .info ("No results found for " ++ Failure.named q ++ ".")
        else
          .found ("Search results for " ++ Failure.named q ++ ":")
            (.searchResults (vaults.map (·.id)) (accounts.map (·.id)))), s) := by
  have hvaults : vaultMatches q.lower = fun v => decide (q.FoundIn v.searched) :=
    funext (vaultMatches_lower q)
  have haccounts : accountMatches q.lower = fun a => decide (q.FoundIn a.searched) :=
    funext (accountMatches_lower q)
  unfold search
  simp only [hq, Bool.false_eq_true, if_false, hvaults, haccounts]
  rw [Act.run_bind, vaultsWith_of_orderly h, Act.after_ok, Act.run_bind, accountsWith_of_orderly h,
    Act.after_ok]
  split <;> rfl

end

/-! ## A line that searches -/

/-- A text without blanks at its ends is what a line searches for that names it. -/
theorem parse_search (hq : q.strip = q) (hne : q.isBlank = false) :
    ∃ l, Line.parse ("search " ++ q) = some l ∧ l.verb = "search" ∧ l.remainder = q := by
  let verb : Written.Word := ⟨"search", by decide, by decide, by decide⟩
  let gap : Written.Gap := ⟨" ", by decide, by decide⟩
  have hleft : q.stripLeft = q := by
    have hstripped := Text.dropWhile_strip q
    rwa [hq] at hstripped
  have hright : q.stripRight = q := by
    have hstripped := hq
    rwa [Text.strip, hleft] at hstripped
  have hnonempty : q ≠ [] := by
    rintro rfl
    cases hne
  have hline : ("search " : Text) ++ q = verb.text ++ (gap.text ++ q) := rfl
  have hraw : Text.strip ("search " ++ q) = "search " ++ q := by
    rw [Text.strip, hline, verb.stripLeft, ← List.append_assoc, Text.stripRight_append (by rwa [hright]),
      hright]
  have hremainder : Text.strip (gap.text ++ q) = q := by rw [Text.strip, gap.stripLeft, hleft, hright]
  have hword := verb.firstWord (gap.pauses q)
  rw [← hline] at hword
  have hparse : Line.parse ("search " ++ q) = some
      { raw := "search " ++ q
        verb := verb.text.lower
        subVerb := (Text.firstWord q).1.lower
        remainder := q
        flags := Flags.parse ("search " ++ q) } := by
    unfold Line.parse
    simp only [hraw, hword, hremainder]
    rfl
  have hverb : verb.text.lower = "search" := by decide +kernel
  exact ⟨_, hparse, hverb, rfl⟩

/-- What a search does in a session. -/
structure Searched (s : Session) (q : Text) : Prop where
  /-- If a record has the small form of the query in a field, the answer names the vaults that do and
  the accounts that do, in their order. -/
  found : (∃ v ∈ s.depot.store.records.vaults, q.FoundIn v.searched) ∨
      (∃ a ∈ s.depot.store.records.accounts, q.FoundIn a.searched) →
    search q s = (.ok (.found ("Search results for " ++ Failure.named q ++ ":") (.searchResults
      ((s.depot.store.records.vaults.filter (q.FoundIn ·.searched)).map (·.id))
      ((s.depot.store.records.accounts.filter (q.FoundIn ·.searched)).map (·.id)))), s)
  /-- If none does, the answer says so. -/
  missed : (∀ v ∈ s.depot.store.records.vaults, ¬ q.FoundIn v.searched) →
    (∀ a ∈ s.depot.store.records.accounts, ¬ q.FoundIn a.searched) →
    search q s = (.ok (.info ("No results found for " ++ Failure.named q ++ ".")), s)
  /-- What stands in a field is found whatever its case, if its capital sigmas end words there as they
  do on their own. -/
  undisturbed : ∀ fields before form after, before ++ form ++ after ∈ fields → form.lower = q.lower →
    Text.Undisturbed before form after → q.FoundIn fields
  /-- So it is always found if it has none. -/
  plain : ∀ fields before form after, before ++ form ++ after ∈ fields → form.lower = q.lower →
    Text.capitalSigma ∉ form → q.FoundIn fields
  /-- The query is typed after the word, and may hold any text. -/
  typed : q.strip = q → ∃ l, Line.parse ("search " ++ q) = some l ∧ execute l = answering (search q)

/-- **A search finds the records with the small form of the query in a field, and no others**, while no
part of the store is out of order. -/
theorem searched_of_orderly (h : s.depot.store.faults = []) (hq : q.isBlank = false) : Searched s q where
  found := by
    intro hsome
    rw [search_run h hq]
    have hne : ((s.depot.store.records.vaults.filter (q.FoundIn ·.searched)).isEmpty &&
        (s.depot.store.records.accounts.filter (q.FoundIn ·.searched)).isEmpty) = false := by
      rw [Bool.and_eq_false_iff, List.isEmpty_eq_false_iff, List.isEmpty_eq_false_iff]
      rcases hsome with ⟨v, hv, hfound⟩ | ⟨a, ha, hfound⟩
      · exact .inl (List.ne_nil_of_mem (List.mem_filter.2 ⟨hv, decide_eq_true hfound⟩))
      · exact .inr (List.ne_nil_of_mem (List.mem_filter.2 ⟨ha, decide_eq_true hfound⟩))
    simp only [hne, Bool.false_eq_true, if_false]
  missed := by
    intro hvaults haccounts
    rw [search_run h hq]
    have hv : s.depot.store.records.vaults.filter (q.FoundIn ·.searched) = [] :=
      List.filter_eq_nil_iff.2 fun v hv hfound => hvaults v hv (of_decide_eq_true hfound)
    have ha : s.depot.store.records.accounts.filter (q.FoundIn ·.searched) = [] :=
      List.filter_eq_nil_iff.2 fun a ha hfound => haccounts a ha (of_decide_eq_true hfound)
    simp only [hv, ha, List.isEmpty_nil, Bool.and_self, if_true]
  undisturbed _ _ _ _ hfield hform hundisturbed := Text.foundIn_of_mem hfield hform hundisturbed
  plain _ before _ after hfield hform hsigma :=
    Text.foundIn_of_mem hfield hform (Text.undisturbed_of_notMem hsigma before after)
  typed hstripped := by
    obtain ⟨l, hl, hverb, hremainder⟩ := parse_search hstripped hq
    refine ⟨l, hl, ?_⟩
    rw [execute_of_verb (Verb.ofToken?_eq_search.2 hverb), executeVerb, hremainder]

/-- A session over one vault, with a capital sigma in the middle of its name. -/
def sampleGreek : Session :=
  .bare ⟨World.fresh 0 [],
    .inMemory ⟨[⟨"v", "ΑΣΑ", "", Store.sampleMoment, Store.sampleMoment⟩], []⟩⟩

theorem searched_sampleGreek :
    sampleGreek.depot.store.faults = [] ∧ Text.isBlank "σα" = false ∧ Searched sampleGreek "σα" := by
  have hq : Text.isBlank "σα" = false := by decide +kernel
  exact ⟨rfl, hq, searched_of_orderly rfl hq⟩

/-- A vault whose name begins with the query letter for letter is not found: on its own the query ends
with a sigma that ends a word. -/
theorem exists_unfound_verbatim : ∃ (s : Session) (v : Vault) (q : Text),
    s.depot.store.faults = [] ∧ v ∈ s.depot.store.records.vaults ∧ q.isBlank = false ∧ q <+: v.name ∧
      (search q s).1 = .ok (.info ("No results found for " ++ Failure.named q ++ ".")) := by
  refine ⟨sampleGreek, ⟨"v", "ΑΣΑ", "", Store.sampleMoment, Store.sampleMoment⟩, "ΑΣ", rfl,
    List.mem_singleton_self _, by decide +kernel, by decide +kernel, ?_⟩
  rw [search_run rfl (by decide +kernel)]
  decide +kernel

end Session

end VaultConsole
