import VaultConsole.Proofs.Interpreter.Origins
import VaultConsole.Proofs.Layout
import VaultConsole.Proofs.Sheets

/-!
# Entries and what becomes of their records

The result log of an interpreter keeps its entries, and an entry is shown anew whenever the log is. In the
meantime records are renamed and deleted, and others come in. What an entry shows is always what there is
to its own records at the time: a name that has changed is shown as it is now, a record that has gone is
shown as deleted from then on, and what becomes of other records is not seen.

* `Records.dates`: all dates of the records of a store.
* `Store.Recalls`: how an entry is shown over all that may become of a store.
* `Store.recalls`: an entry is, whose records are there.
* `HostStep.recalls_of_mem`: **every entry with records in the log of a run is, from the turn on in which it
  was logged.**
-/

namespace VaultConsole

open Mutation Session

/-- All dates of the records of a store. -/
def Records.dates (r : Records) : List Timestamp :=
  r.vaults.flatMap (fun v => [v.created, v.modified]) ++ r.accounts.flatMap fun a => [a.created, a.modified]

/-- The dates of a payload are those of records that are there. -/
theorem Snapshot.payloadDates_subset (s : Snapshot) (p : Payload) : s.payloadDates p ⊆ s.records.dates := by
  intro t ht
  rw [Records.dates, List.mem_append, List.mem_flatMap, List.mem_flatMap]
  cases p with
  | vaultList ids =>
    obtain ⟨v, hv, rfl⟩ := List.mem_map.1 ht
    obtain ⟨id, -, hv⟩ := List.mem_filterMap.1 hv
    exact .inl ⟨v, mem_of_vault? hv, List.mem_cons_self⟩
  | accountList ids => exact absurd ht List.not_mem_nil
  | vaultDetail id accounts =>
    obtain ⟨v, hv, ht⟩ := List.mem_flatMap.1 ht
    exact .inl ⟨v, mem_of_vault? (Option.mem_toList.1 hv), ht⟩
  | accountDetail id vaultId reveal =>
    obtain ⟨a, ha, rfl⟩ := List.mem_map.1 ht
    exact .inr ⟨a, mem_of_account? (Option.mem_toList.1 ha), by simp⟩
  | searchResults vaults accounts => exact absurd ht List.not_mem_nil
  | stats vaults accounts recent =>
    obtain ⟨a, ha, rfl⟩ := List.mem_map.1 ht
    obtain ⟨id, -, ha⟩ := List.mem_filterMap.1 ha
    exact .inr ⟨a, mem_of_account? ha, by simp⟩

/-- Where no identifier is used twice and no date lies at an end of the calendar, an entry with records is
shown, and its lines tell of these one by one. -/
theorem Session.exists_sheet {s : Session} (h : s.depot.store.IsPlain)
    (hdistinct : s.depot.store.records.Distinct)
    (hdates : ∀ t ∈ s.depot.store.records.dates, 2 ≤ t.year ∧ t.year ≤ 9998) (zone : Zone)
    {e : Entry} {p : Payload} (hp : e.payload = some p) :
    ∃ lines, (s.view zone).Sheet p lines ∧
      showEntry zone e s = (.ok (Snapshot.layOut e (Text.unlines lines)), s) := by
  have hshows : (s.view zone).CanShow ((s.view zone).payloadDates p) := fun t ht =>
    have hyear := hdates t ((s.view zone).payloadDates_subset p ht)
    Timestamp.showsAt_of_year zone hyear.1 hyear.2
  obtain ⟨lines, hlines⟩ := ((s.view zone).dated_payloadLines p).shown hshows
  refine ⟨lines, Snapshot.sheet_of_payloadLines hdistinct.vaults hdistinct.accounts hlines, ?_⟩
  have hbody : (s.view zone).bodyText e = .ok (Text.unlines lines) := by
    simp only [Snapshot.bodyText, hp, Snapshot.payloadText, hlines]
    rfl
  rw [showEntry_of_orderly h.2, Snapshot.entryText_eq, hbody]
  rfl

/-- How an entry with records is shown over all that may become of a store in memory. -/
structure Store.Recalls (s : Store) (e : Entry) (p : Payload) : Prop where
  /-- After any calls, where no identifier was given out that had been in use and no date lies at an end of
  the calendar, the lines tell of its records one by one, as they are then. -/
  shown : ∀ calls, GiveUnused calls s →
    (∀ t ∈ (after calls s).records.dates, 2 ≤ t.year ∧ t.year ≤ 9998) →
    ∀ (zone : Zone) (σ : Session), σ.depot.store = after calls s →
      ∃ lines, (σ.view zone).Sheet p lines ∧
        showEntry zone e σ = (.ok (Snapshot.layOut e (Text.unlines lines)), σ)
  /-- A further call that is on none of its records, and on no vault that the line of an account names,
  changes nothing about it. -/
  framed : ∀ calls (c : Mutation.Call),
    (∀ ref ∈ p.references, ¬ c.operation.IsOn c.world (after calls s).records ref) →
    (∀ id ∈ p.namedVaults (after calls s).records,
      ¬ c.operation.IsOn c.world (after calls s).records (.vault id)) →
    ∀ (zone : Zone) (σ σ' : Session), σ.depot.store = after calls s →
      σ'.depot.store = after (calls ++ [c]) s →
      (showEntry zone e σ').1 = (showEntry zone e σ).1
  /-- A record of it that is not there after some calls is not there after any more, so it is shown as
  deleted from then on. -/
  gone : ∀ calls more, GiveUnused (calls ++ more) s → ∀ ref ∈ p.references,
    ¬ ref.IsIn (after calls s).records → ¬ ref.IsIn (after (calls ++ more) s).records

/-- **An entry whose records are there is recalled**, where no identifier is used twice. -/
theorem Store.recalls {s : Store} (h : s.IsPlain) (hdistinct : s.records.Distinct) {e : Entry} {p : Payload}
    (hp : e.payload = some p) (hthere : ∀ ref ∈ p.references, ref.IsIn s.records) : s.Recalls e p where
  shown calls hnew hdates zone σ hσ := by
    have hplain := isPlain_after calls h
    have hdistinct' := distinct_after h hdistinct hnew.giveNew
    rw [← hσ] at hplain hdistinct' hdates
    exact exists_sheet hplain hdistinct' hdates zone hp
  framed calls c hrefs hnamed zone σ σ' hσ hσ' := by
    have hplain := isPlain_after calls h
    rw [after_append] at hσ'
    have hcall : σ'.depot.store = (c.run (after calls s)).2 := hσ'
    have hsame : ∀ ref, ¬ c.operation.IsOn c.world (after calls s).records ref →
        ref.Same (σ.view zone).records (σ'.view zone).records := by
      intro ref hnot
      have hstays := same_call hplain hnot
      rw [← hcall, ← hσ] at hstays
      exact hstays
    have hfaults : σ.depot.store.faults = [] := hσ ▸ hplain.2
    have hfaults' : σ'.depot.store.faults = [] := hcall ▸ (records_call (c := c) hplain).1.2
    rw [showEntry_of_orderly hfaults, showEntry_of_orderly hfaults']
    have hzone : (σ'.view zone).zone = (σ.view zone).zone := rfl
    refine Snapshot.entryText_congr hzone hp (fun ref href => hsame ref (hrefs ref href)) fun id hid => ?_
    refine hsame _ (hnamed id ?_)
    rw [← hσ]
    exact hid
  gone _ _ hnew ref href hgone := gone_after h (hthere ref href) hnew hgone

namespace HostStep

open Interpreter

/-- **Entries in the log are shown with what has become of their records.** Over a store in memory, an
entry with records comes into the log of a run in a turn whose command found these records. From the store
of any such turn on it is recalled, if no identifier was used twice there. -/
theorem recalls_of_mem {session : Session} (h : session.depot.store.IsPlain) {steps : List HostStep}
    {e : Entry} {p : Payload} (he : e ∈ (sequence steps (start session)).log.entries)
    (hp : e.payload = some p) :
    (∃ t ∈ trace steps (start session), t.Finds e) ∧
      ∀ t ∈ trace steps (start session), t.Finds e → t.start.records.Distinct →
        t.start.session.depot.store.Recalls e p := by
  refine ⟨exists_turn_of_mem h he hp, fun t ht hfinds hdistinct => ?_⟩
  have hready := (passage_sequence steps (ready_start h)).starts t ht
  exact Store.recalls hready.plain hdistinct hp (hfinds.named p hp).there

/-- A session over a vault with an account in it. -/
def sampleLister : Session := Session.bare ⟨World.fresh 0 [], Mutation.sampleStore⟩

/-- The account, as it is listed. -/
def sampleListed : Entry := .found "Found 1 account:" (.accountList ["k"])

theorem recalls_sampleListed :
    sampleListed ∈ (sequence [.submit "account list"] (start sampleLister)).log.entries ∧
      Mutation.sampleStore.Recalls sampleListed (.accountList ["k"]) := by
  have hlogged : sampleListed ∈ (sequence [.submit "account list"] (start sampleLister)).log.entries := by
    decide +kernel
  have hplain : sampleLister.depot.store.IsPlain := ⟨rfl, rfl⟩
  obtain ⟨⟨t, ht, hfinds⟩, hall⟩ := recalls_of_mem hplain hlogged rfl
  refine ⟨hlogged, ?_⟩
  obtain rfl : t = ⟨0, "account list", start sampleLister⟩ := List.mem_singleton.1 ht
  exact hall _ ht hfinds Mutation.intact_sampleStore.distinct

/-- Once its vault is deleted, the account is listed as deleted. -/
example :
    let calls := [⟨World.fresh 0 [], .deleteVault "v"⟩]
    let later := Session.bare ⟨World.fresh 0 [], Mutation.after calls Mutation.sampleStore⟩
    (showEntry .universal sampleListed later).1 =
      .ok (Text.unlines [Snapshot.sign .success ++ " Found 1 account:", "  [1] (deleted)"]) := by
  decide +kernel

end HostStep

end VaultConsole
