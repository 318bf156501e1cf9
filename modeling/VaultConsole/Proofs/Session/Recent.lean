import VaultConsole.Proofs.Session.Request

/-!
# The accounts that changed last

The statistics name the accounts that changed last. A change is an instant, whatever clock it was read
from, and of two changes at one instant the one that stands first in the store comes first. So the
accounts with their places are in a strict order, and the named ones are the first of it.

* `Placed`: an account with its place. `Placed.Before`: the one is named in front of the other.
* `Recent`: the first accounts in that order.
* `byRecency_eq`: sorting by instants alone sorts by instants and places.
* `recent_mostRecent`: the first of the sorted accounts are the first in that order.
* `Session.surveyed_of_orderly`: **the statistics count the records and name these accounts.**
-/

namespace VaultConsole.Session

/-- An account with its place in the store. -/
abbrev Placed := Account × Nat

/-- The change of one account is later than that of another, or at the same instant and the account
stands in front of it in the store. -/
def Placed.Before (p q : Placed) : Prop :=
  q.1.modified.instant < p.1.modified.instant ∨
    q.1.modified.instant = p.1.modified.instant ∧ p.2 < q.2

/-- Some accounts of a store are the first in the order of their changes. -/
structure Recent (accounts : List Account) (named : List Placed) : Prop where
  length : named.length = min 5 accounts.length
  placed : ∀ p ∈ named, accounts[p.2]? = some p.1
  /-- No place is named twice. -/
  nodup : (named.map (·.2)).Nodup
  ordered : named.Pairwise Placed.Before
  /-- Whatever is not named comes after all that is, and so after the last of it. -/
  rest : ∀ q : Placed, accounts[q.2]? = some q.1 → q.2 ∉ named.map (·.2) → ∀ p ∈ named, p.Before q

/-! ## Sorting with places -/

/-- The order that accounts are sorted by. -/
def notBefore (a b : Account) : Bool := b.modified.instant ≤ a.modified.instant

theorem notBefore_trans (a b c : Account) (hab : notBefore a b) (hbc : notBefore b c) :
    notBefore a c := by
  simp only [notBefore, decide_eq_true_eq] at *
  omega

theorem notBefore_total (a b : Account) : notBefore a b || notBefore b a := by
  simp only [notBefore, Bool.or_eq_true, decide_eq_true_eq]
  omega

/-- All accounts with their places, sorted by both. -/
def mostRecent (accounts : List Account) : List Placed :=
  accounts.zipIdx.mergeSort (List.zipIdxLE notBefore)

variable {accounts : List Account}

/-- Sorting is stable, so the places need not be compared. -/
theorem byRecency_eq : byRecency accounts = (mostRecent accounts).map (·.1) :=
  List.mergeSort_zipIdx.symm

theorem length_mostRecent : (mostRecent accounts).length = accounts.length := by
  rw [mostRecent, List.length_mergeSort, List.length_zipIdx]

theorem mem_mostRecent {p : Placed} : p ∈ mostRecent accounts ↔ accounts[p.2]? = some p.1 := by
  rw [mostRecent, List.mem_mergeSort, List.mk_mem_zipIdx_iff_getElem?]

theorem nodup_mostRecent : ((mostRecent accounts).map (·.2)).Nodup := by
  have hperm := (List.mergeSort_perm accounts.zipIdx (List.zipIdxLE notBefore)).map (·.2)
  rw [mostRecent, hperm.nodup_iff, List.zipIdx_map_snd]
  exact List.nodup_range'

/-- Of two places one is in front. -/
theorem before_of_zipIdxLE {p q : Placed} (hle : List.zipIdxLE notBefore p q) (hne : p.2 ≠ q.2) :
    p.Before q := by
  simp only [List.zipIdxLE, notBefore] at hle
  unfold Placed.Before
  by_cases hlt : q.1.modified.instant < p.1.modified.instant
  · exact .inl hlt
  · by_cases hle' : q.1.modified.instant ≤ p.1.modified.instant
    · have heq : q.1.modified.instant = p.1.modified.instant := by omega
      simp only [heq, Int.le_refl, decide_true, if_true, decide_eq_true_eq] at hle
      exact .inr ⟨heq, by omega⟩
    · simp [hle'] at hle

theorem ordered_mostRecent : (mostRecent accounts).Pairwise Placed.Before := by
  have hsorted := List.pairwise_mergeSort (List.zipIdxLE_trans notBefore_trans)
    (List.zipIdxLE_total notBefore_total) accounts.zipIdx
  have hplaces := List.pairwise_map.1 (@nodup_mostRecent accounts)
  exact hsorted.imp₂ (fun _ _ => before_of_zipIdxLE) hplaces

/-- The first of the sorted accounts are the first in the order. -/
theorem recent_mostRecent : Recent accounts ((mostRecent accounts).take recentLimit) where
  length := by rw [List.length_take, length_mostRecent, recentLimit]
  placed _ hp := mem_mostRecent.1 (List.mem_of_mem_take hp)
  nodup := by
    rw [List.map_take]
    exact nodup_mostRecent.take
  ordered := ordered_mostRecent.take
  rest := by
    intro q hq hnot p hp
    -- an account that is not among the first is among the others
    have hmem := mem_mostRecent.2 hq
    rw [← List.take_append_drop recentLimit (mostRecent accounts), List.mem_append] at hmem
    rcases hmem with hnamed | hdropped
    · exact absurd (List.mem_map_of_mem hnamed) hnot
    · exact ordered_mostRecent.rel_of_mem_take_of_mem_drop hp hdropped

/-! ## The statistics -/

/-- What the statistics of a session say. -/
structure Surveyed (s : Session) : Prop where
  /-- They count the vaults and the accounts, and name the accounts that changed last. -/
  told : ∃ named, Recent s.depot.store.records.accounts named ∧
    stats s = (.ok (.found "System Statistics" (.stats s.depot.store.records.vaults.length
      s.depot.store.records.accounts.length (named.map (·.1.id)))), s)
  /-- The word asks for them. -/
  typed : ∃ l, Line.parse "stats" = some l ∧ execute l = answering stats

/-- **The statistics count the records and name the accounts that changed last**, while no part of the
store is out of order. -/
theorem surveyed_of_orderly {s : Session} (h : s.depot.store.faults = []) : Surveyed s where
  told := by
    refine ⟨_, recent_mostRecent, ?_⟩
    have hrun : stats s = (.ok (.found "System Statistics" (.stats s.depot.store.records.vaults.length
        s.depot.store.records.accounts.length
        (((byRecency s.depot.store.records.accounts).take recentLimit).map (·.id)))), s) := by
      unfold stats
      rw [Act.run_bind, inDepot_listVaults_of_orderly h, Act.after_ok, Act.run_bind,
        inDepot_listAccounts_of_orderly h, Act.after_ok]
      rfl
    rw [hrun, byRecency_eq, ← List.map_take, List.map_map]
    rfl
  typed := by
    let l : Line :=
      { raw := "stats", verb := "stats", subVerb := [], remainder := [], flags := ⟨[], []⟩ }
    have hparse : Line.parse "stats" = some l := by decide +kernel
    have hverb : Verb.ofToken? l.verb = some .stats := by decide +kernel
    refine ⟨l, hparse, ?_⟩
    rw [execute_of_verb hverb, executeVerb]

/-- Accounts that changed at half past eight by the universal clock, at the same instant by a clock two
hours ahead of it, and a quarter of an hour later. -/
def sampleClocks : Session :=
  let change (id : Text) (hour minute : Nat) (offset : Int)
      (h : isTimestamp 2026 3 10 hour minute 0 0 offset) : Account :=
    ⟨id, "v", id, "", "", "", "", Store.sampleMoment, ⟨2026, 3, 10, hour, minute, 0, 0, offset, h⟩⟩
  .bare ⟨World.fresh 0 [], .inMemory ⟨[],
    [change "universal" 8 30 0 (by decide), change "ahead" 10 30 7200000000 (by decide),
      change "later" 8 45 0 (by decide)]⟩⟩

theorem surveyed_sampleClocks :
    sampleClocks.depot.store.faults = [] ∧ Surveyed sampleClocks := ⟨rfl, surveyed_of_orderly rfl⟩

end VaultConsole.Session
