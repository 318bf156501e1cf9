import Mathlib.Data.List.Nodup
import VaultConsole.Proofs.Store.Keys

/-!
# Records that belong together

A store keeps two lists that refer to each other: every account names the vault that it is in.
The operations come in any order and with any arguments, and each finds a world of its own; all
that is asked is that an identifier that is given out is not in use.

* `Records.Intact`: no identifier is used twice, and every account is in a vault that is there.
* `Origin`, `Descends`: what a record never loses, and how a list comes from an earlier one.
* `Mutation.Makes`: what an operation may make of records.
* `Mutation.intact_after`: **the records stay intact.**
* `Mutation.descends_after`: **what stays, stays as it was and where it was.**
* `Mutation.integrity_of_calls`: both along a run, with what a refusal and a deletion leave.
-/

namespace VaultConsole

/-- No identifier is used twice, and every account is in a vault that is there. -/
structure Records.Intact (r : Records) : Prop where
  vaults : (r.vaults.map (·.id)).Nodup
  accounts : (r.accounts.map (·.id)).Nodup
  housed : ∀ a ∈ r.accounts, ∃ v ∈ r.vaults, v.id = a.vaultId

/-- No identifier is used twice for records of a kind. -/
structure Records.Distinct (r : Records) : Prop where
  vaults : (r.vaults.map (·.id)).Nodup
  accounts : (r.accounts.map (·.id)).Nodup

theorem Records.Intact.distinct {r : Records} (h : r.Intact) : r.Distinct := ⟨h.vaults, h.accounts⟩

/-- What a record never loses: its identifier, for an account its vault, and when it was made. -/
structure Origin where
  id : Text
  vaultId : Option Text
  created : Timestamp
  deriving DecidableEq

def Vault.origin (v : Vault) : Origin := ⟨v.id, none, v.created⟩

def Account.origin (a : Account) : Origin := ⟨a.id, some a.vaultId, a.created⟩

namespace Records

def vaultOrigins (r : Records) : List Origin := r.vaults.map Vault.origin

def accountOrigins (r : Records) : List Origin := r.accounts.map Account.origin

theorem map_id_vaultOrigins (r : Records) : r.vaultOrigins.map (·.id) = r.vaults.map (·.id) := by
  rw [vaultOrigins, List.map_map]
  rfl

theorem map_id_accountOrigins (r : Records) :
    r.accountOrigins.map (·.id) = r.accounts.map (·.id) := by
  rw [accountOrigins, List.map_map]
  rfl

theorem mem_vaults_of_hasVault {r : Records} {id : Text} (h : r.hasVault id = true) :
    ∃ v ∈ r.vaults, v.id = id := by
  simpa [hasVault] using h

end Records

/-- A list comes from an earlier one: those whose identifier stays are there as they were, in their
order, and behind them stand others. -/
def Descends (stays : Text → Bool) (before after : List Origin) : Prop :=
  ∃ added, after = (before.filter fun o => stays o.id) ++ added ∧ ∀ o ∈ added, stays o.id = false

/-- Whether an identifier is in a list. -/
def Origin.isIn (origins : List Origin) (id : Text) : Bool := origins.any (·.id == id)

/-- Whether an identifier is in a list all the time. -/
def remains (part : Records → List Origin) (visited : List Records) (id : Text) : Bool :=
  visited.all fun r => Origin.isIn (part r) id

/-- Some items of a list were taken away, and behind the others stand new ones. -/
def Grafted (before after : List Origin) : Prop :=
  ∃ p added, after = before.filter p ++ added ∧ (added.map (·.id)).Nodup ∧
    ∀ o ∈ added, ∀ o' ∈ before, o'.id ≠ o.id

section
variable {before after : List Origin}

theorem grafted_refl (before : List Origin) : Grafted before before :=
  ⟨fun _ => true, [], by simp, List.nodup_nil, fun _ h => absurd h List.not_mem_nil⟩

/-- Items that lose nothing of what tells them apart, taken away by a condition on that. -/
theorem grafted_map_filter {α : Type} {origin : α → Origin} {p : α → Bool} (q : Origin → Bool)
    (h : ∀ x, q (origin x) = p x) (items : List α) :
    Grafted (items.map origin) ((items.filter p).map origin) := by
  have hfilter : (items.filter p).map origin = (items.map origin).filter q := by
    rw [List.filter_map]
    congr 1
    exact List.filter_congr fun x _ => (h x).symm
  rw [hfilter]
  exact ⟨q, [], by simp, List.nodup_nil, fun _ h => absurd h List.not_mem_nil⟩

theorem grafted_map_append {α : Type} {origin : α → Origin} {items : List α} {x : α}
    (h : ∀ y ∈ items, (origin y).id ≠ (origin x).id) :
    Grafted (items.map origin) ((items ++ [x]).map origin) := by
  refine ⟨fun _ => true, [origin x], by simp, by simp, fun o ho o' ho' => ?_⟩
  obtain ⟨y, hy, rfl⟩ := List.mem_map.1 ho'
  rw [List.mem_singleton.1 ho]
  exact h y hy

theorem Grafted.nodup (h : Grafted before after) (hb : (before.map (·.id)).Nodup) :
    (after.map (·.id)).Nodup := by
  obtain ⟨p, added, rfl, hadded, hnew⟩ := h
  rw [List.map_append]
  refine List.Nodup.append ?_ hadded fun id hid hid' => ?_
  · exact hb.sublist (List.filter_sublist.map _)
  · obtain ⟨o', ho', rfl⟩ := List.mem_map.1 hid
    obtain ⟨o, ho, hsame⟩ := List.mem_map.1 hid'
    exact hnew o ho o' (List.mem_filter.1 ho').1 hsame.symm

/-- Where no identifier is used twice, an item that is still there by its identifier is the same. -/
theorem Grafted.descends (h : Grafted before after) (hb : (before.map (·.id)).Nodup) :
    Descends (fun id => Origin.isIn before id && Origin.isIn after id) before after := by
  obtain ⟨p, added, rfl, -, hnew⟩ := h
  have hsame : ∀ o ∈ before, ∀ o' ∈ before, o.id = o'.id → o = o' :=
    fun o ho o' ho' => List.inj_on_of_nodup_map hb ho ho'
  refine ⟨added, ?_, fun o ho => ?_⟩
  · congr 1
    refine List.filter_congr fun o ho => ?_
    rw [Bool.eq_iff_iff]
    simp only [Origin.isIn, Bool.and_eq_true, List.any_eq_true, beq_iff_eq, List.mem_append,
      List.mem_filter]
    constructor
    · intro hp
      exact ⟨⟨o, ho, rfl⟩, o, .inl ⟨ho, hp⟩, rfl⟩
    · rintro ⟨-, o', ⟨ho', hp⟩ | hadded, hid⟩
      · rwa [hsame o' ho' o ho hid] at hp
      · exact absurd hid.symm (hnew o' hadded o ho)
  · have hout : Origin.isIn before o.id = false := by
      rw [Origin.isIn, List.any_eq_false]
      intro o' ho'
      simpa using hnew o ho o' ho'
    simp only [hout, Bool.false_and]

/-- What stays in two stretches, one after the other, stays in both together. -/
theorem Descends.trans {stays : Text → Bool} {last : List Origin}
    (h : Descends (fun id => Origin.isIn before id && Origin.isIn after id) before after)
    (h' : Descends stays after last) (hall : ∀ id, stays id = true → Origin.isIn after id) :
    Descends (fun id => Origin.isIn before id && stays id) before last := by
  obtain ⟨added, hafter, hadded⟩ := h
  obtain ⟨more, rfl, hmore⟩ := h'
  refine ⟨added.filter (fun o => stays o.id) ++ more, ?_, fun o ho => ?_⟩
  · rw [← List.append_assoc]
    congr 1
    conv_lhs => rw [hafter]
    rw [List.filter_append, List.filter_filter]
    congr 1
    refine List.filter_congr fun o _ => ?_
    cases hs : stays o.id with
    | false => simp [hs]
    | true => simp [hs, hall _ hs]
  · -- what came in on the way was not there before, or it went again
    rcases List.mem_append.1 ho with ho | ho
    · obtain ⟨ho, hs⟩ := List.mem_filter.1 ho
      have hgone : (Origin.isIn before o.id && Origin.isIn after o.id) = false := hadded o ho
      rw [hall _ hs, Bool.and_true] at hgone
      simp only [hgone, Bool.false_and]
    · simp only [hmore o ho, Bool.and_false]

end

namespace Records

variable {r r' : Records} {id : Text}

theorem origins_changeVault {f : Vault → Vault} (hf : ∀ v, (f v).origin = v.origin)
    (h : r.changeVault id f = some r') :
    r'.vaultOrigins = r.vaultOrigins ∧ r'.accounts = r.accounts := by
  unfold changeVault at h
  simp only [Option.map_eq_some_iff] at h
  obtain ⟨vaults, hc, rfl⟩ := h
  exact ⟨map_changeFirst hf hc, rfl⟩

theorem origins_changeAccount {f : Account → Account} (hf : ∀ a, (f a).origin = a.origin)
    (h : r.changeAccount id f = some r') :
    r'.vaults = r.vaults ∧ r'.accountOrigins = r.accountOrigins := by
  unfold changeAccount at h
  simp only [Option.map_eq_some_iff] at h
  obtain ⟨accounts, hc, rfl⟩ := h
  exact ⟨rfl, map_changeFirst hf hc⟩

end Records

theorem Vault.origin_writeAll (updates : List (VaultField × Text)) (v : Vault) :
    (v.writeAll updates).origin = v.origin := by
  unfold Vault.writeAll
  induction updates generalizing v with
  | nil => rfl
  | cons u rest ih =>
    rw [List.foldl_cons, ih]
    cases u.1 <;> rfl

theorem Account.origin_writeAll (updates : List (AccountField × Text)) (a : Account) :
    (a.writeAll updates).origin = a.origin := by
  unfold Account.writeAll
  induction updates generalizing a with
  | nil => rfl
  | cons u rest ih =>
    rw [List.foldl_cons, ih]
    cases u.1 <;> rfl

namespace Mutation

/-- What an operation may make of records in a world. -/
inductive Makes (w : World) (r : Records) : Mutation → Records → Prop
  | vault (draft : VaultDraft) (now : Timestamp) :
    Makes w r (createVault draft) (r.addVault (draft.record w.freshId now))
  | account (draft : AccountDraft) (now : Timestamp) (housed : r.hasVault draft.vaultId = true) :
    Makes w r (createAccount draft) (r.addAccount (draft.record w.freshId now))
  /-- Records are given other values, which leaves what they never lose. -/
  | rewritten (m : Mutation) (r' : Records) (vaults : r'.vaultOrigins = r.vaultOrigins)
    (accounts : r'.accountOrigins = r.accountOrigins) : Makes w r m r'
  | withoutVault (id : Text) :
    Makes w r (deleteVault id)
      { vaults := r.vaults.filter (·.id != id), accounts := r.accounts.filter (·.vaultId != id) }
  | withoutAccount (id : Text) :
    Makes w r (deleteAccount id) { r with accounts := r.accounts.filter (·.id != id) }

/-- The records that a plan puts in place. -/
theorem makes_of_plan (m : Mutation) {w : World} {r r' : Records}
    (h : (m.plan w r).records? = some r') : Makes w r m r' := by
  cases m with
  | createVault draft =>
    simp only [plan] at h
    split at h <;> cases h
    exact .vault draft _
  | createAccount draft =>
    simp only [plan] at h
    split at h
    · next housed =>
      split at h <;> cases h
      exact .account draft _ housed
    · cases h
  | updateVault id updates =>
    have horigins : r'.vaultOrigins = r.vaultOrigins ∧ r'.accounts = r.accounts := by
      refine of_planUpdate (P := fun r' => r'.vaultOrigins = r.vaultOrigins ∧ r'.accounts = r.accounts)
        (fun updates now r' hr => ?_) (fun updates r' hr => ?_) h
      · exact Records.origins_changeVault (f := Vault.amend updates now)
          (Vault.origin_writeAll updates) hr
      · exact Records.origins_changeVault (Vault.origin_writeAll updates) hr
    exact .rewritten _ r' horigins.1 (congrArg (List.map _) horigins.2)
  | updateAccount id updates =>
    have horigins : r'.vaults = r.vaults ∧ r'.accountOrigins = r.accountOrigins := by
      refine of_planUpdate (P := fun r' => r'.vaults = r.vaults ∧ r'.accountOrigins = r.accountOrigins)
        (fun updates now r' hr => ?_) (fun updates r' hr => ?_) h
      · exact Records.origins_changeAccount (f := Account.amend updates now)
          (Account.origin_writeAll updates) hr
      · exact Records.origins_changeAccount (Account.origin_writeAll updates) hr
    exact .rewritten _ r' (congrArg (List.map _) horigins.1) horigins.2
  | deleteVault id =>
    simp only [plan, Plan.records?_ofChanged, Records.deleteVault] at h
    split at h <;> cases h
    exact .withoutVault id
  | deleteAccount id =>
    simp only [plan, Plan.records?_ofChanged, Records.deleteAccount] at h
    split at h <;> cases h
    exact .withoutAccount id

/-- The identifier that an operation gives out is not in use for a record of that kind. -/
def GivesNew (m : Mutation) (w : World) (r : Records) : Prop :=
  match m with
  | createVault _ => ∀ v ∈ r.vaults, v.id ≠ w.freshId
  | createAccount _ => ∀ a ∈ r.accounts, a.id ≠ w.freshId
  | _ => True

section
variable {m : Mutation} {w : World} {r r' : Records}

theorem Makes.grafted_vaults (h : Makes w r m r') (hnew : m.GivesNew w r) :
    Grafted r.vaultOrigins r'.vaultOrigins := by
  cases h with
  | vault draft now => exact grafted_map_append hnew
  | account draft now housed => exact grafted_refl _
  | rewritten m r' vaults accounts =>
    rw [vaults]
    exact grafted_refl _
  | withoutVault id => exact grafted_map_filter (·.id != id) (fun _ => rfl) r.vaults
  | withoutAccount id => exact grafted_refl _

theorem Makes.grafted_accounts (h : Makes w r m r') (hnew : m.GivesNew w r) :
    Grafted r.accountOrigins r'.accountOrigins := by
  cases h with
  | vault draft now => exact grafted_refl _
  | account draft now housed => exact grafted_map_append hnew
  | rewritten m r' vaults accounts =>
    rw [accounts]
    exact grafted_refl _
  | withoutVault id => exact grafted_map_filter (·.vaultId != some id) (fun _ => rfl) r.accounts
  | withoutAccount id => exact grafted_map_filter (·.id != id) (fun _ => rfl) r.accounts

/-- Whether every account is in a vault that is there shows in what records never lose. -/
theorem housed_of_origins (hv : r'.vaultOrigins = r.vaultOrigins)
    (ha : r'.accountOrigins = r.accountOrigins)
    (h : ∀ a ∈ r.accounts, ∃ v ∈ r.vaults, v.id = a.vaultId) :
    ∀ a ∈ r'.accounts, ∃ v ∈ r'.vaults, v.id = a.vaultId := by
  intro a hmem
  have horigin : a.origin ∈ r.accountOrigins := ha ▸ List.mem_map_of_mem hmem
  obtain ⟨a₀, hmem₀, hsame⟩ := List.mem_map.1 horigin
  obtain ⟨v₀, hv₀, hid⟩ := h a₀ hmem₀
  have horigin' : v₀.origin ∈ r'.vaultOrigins := hv ▸ List.mem_map_of_mem hv₀
  obtain ⟨v, hv', hsame'⟩ := List.mem_map.1 horigin'
  simp only [Account.origin, Vault.origin, Origin.mk.injEq, Option.some.injEq] at hsame hsame'
  exact ⟨v, hv', by rw [hsame'.1, hid, hsame.2.1]⟩

/-- After an operation no identifier is used twice if none was before. -/
theorem Makes.distinct (h : Makes w r m r') (hnew : m.GivesNew w r) (hr : r.Distinct) :
    r'.Distinct where
  vaults := by
    rw [← Records.map_id_vaultOrigins]
    exact (h.grafted_vaults hnew).nodup (r.map_id_vaultOrigins ▸ hr.vaults)
  accounts := by
    rw [← Records.map_id_accountOrigins]
    exact (h.grafted_accounts hnew).nodup (r.map_id_accountOrigins ▸ hr.accounts)

/-- **An operation leaves intact records intact.** -/
theorem Makes.intact (h : Makes w r m r') (hnew : m.GivesNew w r) (hr : r.Intact) :
    r'.Intact := by
  have hdistinct := h.distinct hnew hr.distinct
  refine ⟨hdistinct.vaults, hdistinct.accounts, ?_⟩
  cases h with
  | vault draft now =>
    intro a ha
    obtain ⟨v, hv, hid⟩ := hr.housed a ha
    exact ⟨v, List.mem_append_left _ hv, hid⟩
  | account draft now housed =>
    intro a ha
    rcases List.mem_append.1 ha with ha | ha
    · exact hr.housed a ha
    · rw [List.mem_singleton.1 ha]
      exact Records.mem_vaults_of_hasVault housed
  | rewritten m r' vaults accounts => exact housed_of_origins vaults accounts hr.housed
  | withoutVault id =>
    -- an account that stays is in another vault, and that one stays too
    intro a ha
    obtain ⟨ha, hother⟩ := List.mem_filter.1 ha
    obtain ⟨v, hv, hid⟩ := hr.housed a ha
    refine ⟨v, List.mem_filter.2 ⟨hv, ?_⟩, hid⟩
    rw [hid]
    exact hother
  | withoutAccount id =>
    intro a ha
    exact hr.housed a (List.mem_filter.1 ha).1

end

/-- A call of an operation in the world that it finds. -/
structure Call where
  world : World
  operation : Mutation

/-- The answer of a call, and the store after it. -/
def Call.run (c : Call) (s : Store) : Except Failure (Answer Outcome) × Store :=
  ((c.operation.run ⟨c.world, s⟩).1, (c.operation.run ⟨c.world, s⟩).2.store)

/-- The store after calls. -/
def after : List Call → Store → Store
  | [], s => s
  | c :: rest, s => after rest (c.run s).2

/-- The records before the first call, and after each. -/
def visited : List Call → Store → List Records
  | [], s => [s.records]
  | c :: rest, s => s.records :: visited rest (c.run s).2

/-- No call gives out an identifier that is in use. -/
def GiveNew : List Call → Store → Prop
  | [], _ => True
  | c :: rest, s => c.operation.GivesNew c.world s.records ∧ GiveNew rest (c.run s).2

section
variable {c : Call} {calls before rest : List Call} {s : Store}

theorem after_append : after (before ++ rest) s = after rest (after before s) := by
  induction before generalizing s with
  | nil => rfl
  | cons c before ih => exact ih

theorem giveNew_append : GiveNew (before ++ rest) s ↔ GiveNew before s ∧ GiveNew rest (after before s) := by
  induction before generalizing s with
  | nil => simp [GiveNew, after]
  | cons c before ih => simp only [List.cons_append, GiveNew, after, ih, and_assoc]

/-- A call of a store in memory puts the records of its plan in place, if it has any. -/
theorem records_call (h : s.IsPlain) :
    (c.run s).2.IsPlain ∧
      ((c.run s).2.records = s.records ∨
        Makes c.world s.records c.operation (c.run s).2.records) := by
  obtain ⟨hplain, hrecords⟩ := records_run c.operation (d := ⟨c.world, s⟩) h
  refine ⟨hplain, ?_⟩
  rw [Call.run, hrecords]
  cases hp : (c.operation.plan c.world s.records).records? with
  | none => exact .inl rfl
  | some r => exact .inr (makes_of_plan c.operation hp)

theorem isPlain_after (calls : List Call) (h : s.IsPlain) : (after calls s).IsPlain := by
  induction calls generalizing s with
  | nil => exact h
  | cons c rest ih => exact ih (records_call h).1

theorem intact_call (h : s.IsPlain) (hs : s.records.Intact)
    (hnew : c.operation.GivesNew c.world s.records) : (c.run s).2.records.Intact := by
  rcases (records_call (c := c) h).2 with hsame | hmakes
  · rwa [hsame]
  · exact hmakes.intact hnew hs

theorem grafted_call (h : s.IsPlain) (hnew : c.operation.GivesNew c.world s.records) :
    Grafted s.records.vaultOrigins (c.run s).2.records.vaultOrigins ∧
      Grafted s.records.accountOrigins (c.run s).2.records.accountOrigins := by
  rcases (records_call (c := c) h).2 with hsame | hmakes
  · rw [hsame]
    exact ⟨grafted_refl _, grafted_refl _⟩
  · exact ⟨hmakes.grafted_vaults hnew, hmakes.grafted_accounts hnew⟩

/-- **Intact records stay intact along every run.** -/
theorem intact_after (h : s.IsPlain) (hs : s.records.Intact) (hnew : GiveNew calls s) :
    (after calls s).records.Intact := by
  induction calls generalizing s with
  | nil => exact hs
  | cons c rest ih =>
    obtain ⟨hfirst, hrest⟩ := hnew
    exact ih (records_call h).1 (intact_call h hs hfirst) hrest

/-- **What stays along a run, stays as it was and where it was**, for one list of the two. -/
theorem descends_after {part : Records → List Origin}
    (hpart : ∀ (c : Call) (s : Store), s.IsPlain → c.operation.GivesNew c.world s.records →
      Grafted (part s.records) (part (c.run s).2.records))
    (hunique : ∀ r : Records, r.Intact → ((part r).map (·.id)).Nodup)
    (h : s.IsPlain) (hs : s.records.Intact) (hnew : GiveNew calls s) :
    Descends (remains part (visited calls s)) (part s.records) (part (after calls s).records) := by
  induction calls generalizing s with
  | nil =>
    refine ⟨[], ?_, fun _ ho => absurd ho List.not_mem_nil⟩
    rw [List.append_nil]
    refine (List.filter_eq_self.2 fun o ho => ?_).symm
    simp only [visited, remains, List.all_cons, List.all_nil, Bool.and_true]
    exact List.any_eq_true.2 ⟨o, ho, beq_self_eq_true _⟩
  | cons c rest ih =>
    obtain ⟨hfirst, hrest⟩ := hnew
    have hstep := (hpart c s h hfirst).descends (hunique _ hs)
    have hmore := ih (records_call h).1 (intact_call h hs hfirst) hrest
    refine hstep.trans hmore fun id hid => ?_
    -- the first of the records that the rest of the run visits are those after the call
    have hvisited : ∃ more, visited rest (c.run s).2 = (c.run s).2.records :: more := by
      cases rest with
      | nil => exact ⟨_, rfl⟩
      | cons c' rest => exact ⟨_, rfl⟩
    obtain ⟨more, hvisited⟩ := hvisited
    simp only [hvisited, List.all_cons, Bool.and_eq_true] at hid
    exact hid.1

end

/-- What a vault's deletion leaves when the records are intact: the others, in their order. -/
theorem split_of_hasVault {r : Records} (hr : r.Intact) {id : Text} (h : r.hasVault id = true) :
    ∃ front v back, r.vaults = front ++ v :: back ∧ v.id = id ∧
      r.vaults.filter (·.id != id) = front ++ back := by
  obtain ⟨v, hv, rfl⟩ := Records.mem_vaults_of_hasVault h
  obtain ⟨front, back, hsplit⟩ := List.append_of_mem hv
  refine ⟨front, v, back, hsplit, rfl, ?_⟩
  have hunique := hr.vaults
  rw [hsplit, List.map_append, List.map_cons] at hunique
  obtain ⟨-, hback, hapart⟩ := List.nodup_append.1 hunique
  have hv : v.id ∉ back.map (·.id) := (List.nodup_cons.1 hback).1
  rw [hsplit, List.filter_append, List.filter_cons]
  simp only [bne_self_eq_false, Bool.false_eq_true, if_false]
  congr 1 <;> refine List.filter_eq_self.2 fun v' hv' => bne_iff_ne.2 ?_
  · exact hapart _ (List.mem_map_of_mem hv') _ List.mem_cons_self
  · intro hsame
    exact hv (hsame ▸ List.mem_map_of_mem hv')

/-- A failure for want of a time is none of validation. -/
theorem kind_now {w : World} {failure : Failure} (h : w.now = .error failure) :
    failure.kind ≠ .validation := by
  unfold World.now at h
  cases hc : w.clock.now with
  | ok now =>
    rw [hc] at h
    cases h
  | error problem =>
    rw [hc] at h
    cases h
    cases problem with
    | noWhole reason => cases reason <;> exact nofun
    | tooManyDays _ | outsideCalendar | noYear _ => exact nofun

/-- What a plan tells of the world and of the records: it fails after a change only when the clock
shows no time, and it answers that there was no record only when nothing is going to change. -/
def Candid (w : World) : Plan → Prop
  | .refused _ => True
  | .undated failure _ => w.now = .error failure
  | .idle _ => True
  | .change outcome _ => outcome ≠ .found false

theorem candid_ofChanged (w : World) (changed : Option Records) :
    Candid w (Plan.ofChanged changed) := by
  cases changed with
  | none => trivial
  | some r => exact nofun

theorem candid_planUpdate {φ : Type} (w : World) (fields : Except Failure (List (φ × Text)))
    (dated : List (φ × Text) → Timestamp → Option Records)
    (undated : List (φ × Text) → Option Records) :
    Candid w (planUpdate w fields dated undated) := by
  unfold planUpdate
  split
  · trivial
  · split
    · exact candid_ofChanged w _
    · next hnow =>
      split
      · trivial
      · exact hnow

theorem candid_plan (m : Mutation) (w : World) (r : Records) : Candid w (m.plan w r) := by
  cases m with
  | createVault draft =>
    simp only [plan]
    split
    · trivial
    · intro hfound
      cases hfound
  | createAccount draft =>
    simp only [plan]
    split
    · split
      · trivial
      · intro hfound
        cases hfound
    · trivial
  | updateVault id updates => exact candid_planUpdate w _ _ _
  | updateAccount id updates => exact candid_planUpdate w _ _ _
  | deleteVault id => exact candid_ofChanged w _
  | deleteAccount id => exact candid_ofChanged w _

/-- The answer that a record was missing, or a failure of validation. -/
def Declines (answer : Except Failure (Answer Outcome)) : Prop :=
  answer = .ok (.own (.found false)) ∨ ∃ failure, answer = .error failure ∧ failure.kind = .validation

/-- **What declines, changes nothing.** -/
theorem records_of_declines {c : Call} {s : Store} (h : s.IsPlain) (hd : Declines (c.run s).1) :
    (c.run s).2.records = s.records := by
  have honly := h.onlySaveFails
  have hcandid := candid_plan c.operation c.world s.records
  cases hp : c.operation.plan c.world s.records with
  | refused failure =>
    rw [Call.run, run_eq c.operation honly, hp]
    rfl
  | idle outcome => rw [Call.run, run_memory_idle c.operation h hp]
  | undated failure r =>
    rw [Call.run, run_eq c.operation honly, hp] at hd
    rcases hd with hd | ⟨failure', hd, hkind⟩
    · cases hd
    · cases hd
      rw [hp] at hcandid
      exact absurd hkind (kind_now hcandid)
  | change outcome r =>
    rw [Call.run, run_memory c.operation h hp] at hd
    rcases hd with hd | ⟨failure', hd, -⟩
    · cases hd
      rw [hp] at hcandid
      exact absurd rfl hcandid
    · cases hd

/-- Deleting a vault that is there takes it away with its accounts, and nothing else. -/
theorem deleteVault_call {w : World} {s : Store} (h : s.IsPlain) (hs : s.records.Intact) {id : Text}
    (hv : s.records.hasVault id = true) :
    ((Call.mk w (deleteVault id)).run s).1 = .ok (.own (.found true)) ∧
      (∃ front v back, s.records.vaults = front ++ v :: back ∧ v.id = id ∧
        ((Call.mk w (deleteVault id)).run s).2.records.vaults = front ++ back) ∧
      ((Call.mk w (deleteVault id)).run s).2.records.accounts =
        s.records.accounts.filter (·.vaultId != id) := by
  obtain ⟨front, v, back, hsplit, hid, hrest⟩ := split_of_hasVault hs hv
  have hplan : (deleteVault id).plan w s.records = .change (.found true)
      { vaults := front ++ back, accounts := s.records.accounts.filter (·.vaultId != id) } := by
    simp only [plan, Records.deleteVault, hv, if_true, hrest, Plan.ofChanged]
  rw [Call.run, run_memory _ h hplan]
  exact ⟨rfl, ⟨front, v, back, hsplit, hid, rfl⟩, rfl⟩

/-- **Records that belong together stay so.** Of a store in memory whose records are intact, and
that is called in any order, with any arguments and in any worlds that give out new identifiers: at
every point the records are intact; from any point to any later one what stays all the time stays as
it was, in its order, with the others behind it; deleting a vault takes it away with its accounts and
nothing else; and what declines changes nothing. -/
theorem integrity_of_calls {s : Store} (hmemory : s.IsPlain) (hintact : s.records.Intact)
    {calls : List Call} (hnew : GiveNew calls s) :
    (∀ before stretch rest, calls = before ++ stretch ++ rest →
      (after (before ++ stretch) s).records.Intact ∧
      ∀ part ∈ [Records.vaultOrigins, Records.accountOrigins],
        Descends (remains part (visited stretch (after before s))) (part (after before s).records)
          (part (after (before ++ stretch) s).records)) ∧
    ∀ before c rest, calls = before ++ c :: rest →
      (∀ id, c.operation = deleteVault id → (after before s).records.hasVault id = true →
        (c.run (after before s)).1 = .ok (.own (.found true)) ∧
        (∃ front v back, (after before s).records.vaults = front ++ v :: back ∧ v.id = id ∧
          (c.run (after before s)).2.records.vaults = front ++ back) ∧
        (c.run (after before s)).2.records.accounts =
          (after before s).records.accounts.filter (·.vaultId != id)) ∧
      (Declines (c.run (after before s)).1 →
        (c.run (after before s)).2.records = (after before s).records) := by
  refine ⟨?_, ?_⟩
  · intro before stretch rest hcalls
    rw [hcalls, giveNew_append, giveNew_append] at hnew
    obtain ⟨⟨hbefore, hstretch⟩, -⟩ := hnew
    have hplain := isPlain_after before hmemory
    have hintact' := intact_after hmemory hintact hbefore
    rw [after_append]
    refine ⟨intact_after hplain hintact' hstretch, ?_⟩
    intro part hpart
    simp only [List.mem_cons, List.not_mem_nil, or_false] at hpart
    rcases hpart with rfl | rfl
    · refine descends_after (fun c s h hc => (grafted_call h hc).1) (fun r hr => ?_) hplain hintact'
        hstretch
      exact r.map_id_vaultOrigins ▸ hr.vaults
    · refine descends_after (fun c s h hc => (grafted_call h hc).2) (fun r hr => ?_) hplain hintact'
        hstretch
      exact r.map_id_accountOrigins ▸ hr.accounts
  · intro before c rest hcalls
    rw [hcalls, giveNew_append] at hnew
    have hplain := isPlain_after before hmemory
    have hintact' := intact_after hmemory hintact hnew.1
    refine ⟨?_, records_of_declines hplain⟩
    intro id hc hv
    obtain ⟨w, m⟩ := c
    cases hc
    exact deleteVault_call hplain hintact' hv

/-- A vault with an account in it. -/
def sampleStore : Store :=
  .inMemory
    { vaults := [⟨"v", "mail", "", Store.sampleMoment, Store.sampleMoment⟩]
      accounts := [⟨"k", "v", "me", "", "", "", "", Store.sampleMoment, Store.sampleMoment⟩] }

theorem intact_sampleStore : sampleStore.records.Intact where
  vaults := by decide +kernel
  accounts := by decide +kernel
  housed := by decide +kernel

/-- Another vault is made, and then the first one is deleted. -/
def sampleCalls : List Call :=
  [⟨World.fresh 0 [], createVault ⟨"home", ""⟩⟩, ⟨World.fresh 0 [], deleteVault "v"⟩]

theorem giveNew_sampleCalls : GiveNew sampleCalls sampleStore := by
  refine ⟨?_, trivial, trivial⟩
  show ∀ v ∈ sampleStore.records.vaults, v.id ≠ (World.fresh 0 []).freshId
  decide +kernel

theorem integrity_of_sampleCalls :
    (after sampleCalls sampleStore).records.Intact ∧
      ((Call.mk (World.fresh 0 []) (deleteVault "v")).run
          (after (sampleCalls.take 1) sampleStore)).1 = .ok (.own (.found true)) := by
  obtain ⟨hwhole, hcall⟩ :=
    integrity_of_calls ⟨rfl, rfl⟩ intact_sampleStore giveNew_sampleCalls
  refine ⟨(hwhole sampleCalls [] [] rfl).1, ?_⟩
  have hthere : (after (sampleCalls.take 1) sampleStore).records.hasVault "v" = true := by
    decide +kernel
  exact ((hcall (sampleCalls.take 1) _ [] rfl).1 "v" rfl hthere).1

end Mutation

end VaultConsole
