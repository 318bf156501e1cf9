import Mathlib.Data.List.Forall2
import VaultConsole.Proofs.Store.Refinement
import VaultConsole.Proofs.Twins

/-!
# Stores that are alike

Two stores in memory are alike if they differ at most in the secrets of their accounts, and these are
related in some way. No operation looks at a secret, so the same operation on both yields the same and
leaves them alike. Secrets that are equal make equal stores; secrets that are related in every case
make stores that differ in nothing but secrets.

* `Account.Alike`, `Records.Alike`, `Store.Alike`, `Depot.Alike`: the relations.
* `World.Parallel`: relations of worlds with one clock and one supply of identifiers.
* `Store.Alike.hold`, `Store.Alike.release`: an account is held on to, and let go.
* `Depot.twins_createVault` and its neighbours: the operations, side by side.
-/

namespace VaultConsole

open List (Forall₂)

/-! ## Lists that are related item by item -/

namespace Records

section
variable {α β : Type} {R : α → β → Prop} {p : α → Bool} {q : β → Bool} {l : List α} {l' : List β}

theorem rel_find? (h : Forall₂ R l l') (hpq : ∀ a b, R a b → p a = q b) :
    Option.Rel R (l.find? p) (l'.find? q) := by
  induction h with
  | nil => exact .none
  | @cons a b rest rest' hab _ ih =>
    rw [List.find?_cons, List.find?_cons, ← hpq a b hab]
    cases p a with
    | true => exact .some hab
    | false => exact ih

theorem rel_filter (h : Forall₂ R l l') (hpq : ∀ a b, R a b → p a = q b) :
    Forall₂ R (l.filter p) (l'.filter q) :=
  List.rel_filter (fun a b hab => Bool.eq_iff_iff.1 (hpq a b hab)) h

theorem map_eq_of_rel {γ : Type} {f : α → γ} {g : β → γ} (h : Forall₂ R l l')
    (hfg : ∀ a b, R a b → f a = g b) : l.map f = l'.map g := by
  rw [← List.forall₂_eq_eq_eq, List.forall₂_map_left_iff, List.forall₂_map_right_iff]
  exact h.imp hfg

theorem any_eq_of_rel (h : Forall₂ R l l') (hpq : ∀ a b, R a b → p a = q b) : l.any p = l'.any q := by
  induction h with
  | nil => rfl
  | cons hab _ ih => rw [List.any_cons, List.any_cons, hpq _ _ hab, ih]

theorem countP_eq_of_rel (h : Forall₂ R l l') (hpq : ∀ a b, R a b → p a = q b) :
    l.countP p = l'.countP q := by
  rw [List.countP_eq_length_filter, List.countP_eq_length_filter, (rel_filter h hpq).length_eq]

theorem rel_getElem? (h : Forall₂ R l l') (place : Nat) : Option.Rel R l[place]? l'[place]? := by
  induction h generalizing place with
  | nil => exact .none
  | cons hab _ ih =>
    cases place with
    | zero => exact .some hab
    | succ place => exact ih place

theorem rel_map {α' β' : Type} {Q : α' → β' → Prop} {f : α → α'} {g : β → β'} {x : Option α}
    {y : Option β} (h : Option.Rel R x y) (hfg : ∀ a b, R a b → Q (f a) (g b)) :
    Option.Rel Q (x.map f) (y.map g) := by
  cases h with
  | none => exact .none
  | some hab => exact .some (hfg _ _ hab)

theorem rel_getD {x : Option α} {y : Option β} {a : α} {b : β} (h : Option.Rel R x y) (hab : R a b) :
    R (x.getD a) (y.getD b) := by
  cases h with
  | none => exact hab
  | some hxy => exact hxy

theorem findIdx_eq_of_rel (h : Forall₂ R l l') (hpq : ∀ a b, R a b → p a = q b) :
    l.findIdx p = l'.findIdx q := by
  induction h with
  | nil => rfl
  | cons hab _ ih => rw [List.findIdx_cons, List.findIdx_cons, hpq _ _ hab, ih]

/-- The first item of a kind is the first one of its like. -/
theorem idxOf_of_find? [DecidableEq α] {a : α} (h : l.find? p = some a) :
    l.idxOf a = l.findIdx p := by
  induction l with
  | nil => cases h
  | cons b rest ih =>
    rw [List.find?_cons] at h
    rw [List.idxOf_cons, List.findIdx_cons]
    cases hb : p b with
    | true =>
      rw [hb] at h
      cases h
      simp
    | false =>
      rw [hb] at h
      -- an item in front of it is of another kind, and so is not equal to it
      have hne : (b == a) = false := by
        rw [beq_eq_false_iff_ne]
        rintro rfl
        exact absurd (List.find?_some h) (by simp [hb])
      rw [hne, cond_false, cond_false, ih h]

theorem rel_changeFirst {f : α → α} {g : β → β} (h : Forall₂ R l l')
    (hpq : ∀ a b, R a b → p a = q b) (hfg : ∀ a b, R a b → R (f a) (g b)) :
    Option.Rel (Forall₂ R) (changeFirst p f l) (changeFirst q g l') := by
  induction h with
  | nil => exact .none
  | @cons a b rest rest' hab hrest ih =>
    rw [changeFirst, changeFirst, ← hpq a b hab]
    cases p a with
    | true => exact .some (.cons (hfg a b hab) hrest)
    | false => exact rel_map ih fun _ _ hrest => .cons hab hrest

end

end Records

/-! ## The relations -/

/-- Two accounts that differ at most in their secrets, which are related. -/
inductive Account.Alike (S : Text → Text → Prop) : Account → Account → Prop
  | intro (a : Account) {secret : Text} (h : S a.password secret) :
      Alike S a { a with password := secret }

/-- Two drafts of accounts that differ at most in their secrets, which are related. -/
inductive AccountDraft.Alike (S : Text → Text → Prop) : AccountDraft → AccountDraft → Prop
  | intro (d : AccountDraft) {secret : Text} (h : S d.password secret) :
      Alike S d { d with password := secret }

/-- The same value for a field of an account, or secrets that are related. -/
inductive AccountField.Written (S : Text → Text → Prop) :
    AccountField × Text → AccountField × Text → Prop
  | same (u : AccountField × Text) : Written S u u
  | secret {v v' : Text} (h : S v v') : Written S (.password, v) (.password, v')

/-- The same update under a key, or secrets that are related. -/
inductive AccountField.Keyed (S : Text → Text → Prop) : Text × Text → Text × Text → Prop
  | same (u : Text × Text) : Keyed S u u
  | secret {v v' : Text} (h : S v v') : Keyed S ("password", v) ("password", v')

section
variable (S : Text → Text → Prop)

/-- The same vaults, and accounts that are alike one by one. -/
structure Records.Alike (r r' : Records) : Prop where
  vaults : r'.vaults = r.vaults
  accounts : Forall₂ (Account.Alike S) r.accounts r'.accounts

/-- Two accounts that are held at one place, or that were taken away and are alike. -/
inductive Held.Alike : Held → Held → Prop
  | present (place : Nat) : Alike (.present place) (.present place)
  | gone {a a' : Account} (h : Account.Alike S a a') : Alike (.gone a) (.gone a')

/-- Two stores in memory whose accounts are alike. -/
structure Store.Alike (s s' : Store) : Prop where
  plain : s.IsPlain
  plain' : s'.IsPlain
  records : s.records.Alike S s'.records
  held : Forall₂ (Held.Alike S) s.held s'.held

/-- Two such stores in worlds that are related. -/
structure Depot.Alike (W : World → World → Prop) (d d' : Depot) : Prop where
  world : W d.world d'.world
  store : d.store.Alike S d'.store

end

/-- A relation of worlds in which one clock runs and the same identifiers are given out. -/
class World.Parallel (W : World → World → Prop) : Prop where
  clock : ∀ {w w'}, W w w' → w'.clock = w.clock
  issued : ∀ {w w'}, W w w' → w'.issued = w.issued
  issue : ∀ {w w'}, W w w' → W w.issue w'.issue

variable {S : Text → Text → Prop}

theorem Account.alike_refl [Std.Refl S] (a : Account) : Account.Alike S a a :=
  .intro a (Std.Refl.refl a.password)

/-- A value that is written into a field comes to both accounts. -/
theorem Account.Alike.writeAll [Std.Refl S] {a a' : Account} (h : Account.Alike S a a')
    {updates updates' : List (AccountField × Text)}
    (hupdates : Forall₂ (AccountField.Written S) updates updates') :
    Account.Alike S (a.writeAll updates) (a'.writeAll updates') := by
  unfold Account.writeAll
  induction hupdates generalizing a a' with
  | nil => exact h
  | cons hwritten _ ih =>
    rw [List.foldl_cons, List.foldl_cons]
    refine ih ?_
    obtain ⟨hsecret⟩ := h
    rcases hwritten with ⟨field, value⟩ | hv
    · cases field with
      | password => exact Account.alike_refl _
      | name | username | url | notes => exact .intro (a.write value _) hsecret
    · exact .intro (a.write _ .password) hv

theorem Account.Alike.amend [Std.Refl S] {a a' : Account} (h : Account.Alike S a a')
    {updates updates' : List (AccountField × Text)}
    (hupdates : Forall₂ (AccountField.Written S) updates updates') (now : Timestamp) :
    Account.Alike S (a.amend updates now) (a'.amend updates' now) := by
  have hwritten := h.writeAll hupdates
  unfold Account.amend
  generalize a.writeAll updates = b at hwritten ⊢
  generalize a'.writeAll updates' = b' at hwritten ⊢
  obtain ⟨hsecret⟩ := hwritten
  exact .intro { b with modified := now } hsecret

namespace Records.Alike

variable {r r' : Records}

theorem addVault (h : r.Alike S r') (v : Vault) : (r.addVault v).Alike S (r'.addVault v) :=
  ⟨by rw [Records.addVault, Records.addVault, h.vaults], h.accounts⟩

theorem addAccount (h : r.Alike S r') {a a' : Account} (ha : Account.Alike S a a') :
    (r.addAccount a).Alike S (r'.addAccount a') :=
  ⟨h.vaults, List.rel_append h.accounts (.cons ha .nil)⟩

theorem hasVault (h : r.Alike S r') (id : Text) : r'.hasVault id = r.hasVault id := by
  rw [Records.hasVault, Records.hasVault, h.vaults]

theorem changeVault (h : r.Alike S r') (id : Text) (f : Vault → Vault) :
    Option.Rel (Records.Alike S) (r.changeVault id f) (r'.changeVault id f) := by
  rw [Records.changeVault, Records.changeVault, h.vaults]
  cases changeFirst (·.id == id) f r.vaults with
  | none => exact .none
  | some vaults => exact .some ⟨rfl, h.accounts⟩

theorem changeAccount (h : r.Alike S r') (id : Text) {f f' : Account → Account}
    (hf : ∀ a a', Account.Alike S a a' → Account.Alike S (f a) (f' a')) :
    Option.Rel (Records.Alike S) (r.changeAccount id f) (r'.changeAccount id f') := by
  have hid : ∀ a a', Account.Alike S a a' → (a.id == id) = (a'.id == id) := by
    rintro _ _ ⟨⟩
    rfl
  exact rel_map (rel_changeFirst h.accounts hid hf) fun _ _ haccounts => ⟨h.vaults, haccounts⟩

theorem deleteVault (h : r.Alike S r') (id : Text) :
    Option.Rel (Records.Alike S) (r.deleteVault id) (r'.deleteVault id) := by
  rw [Records.deleteVault, Records.deleteVault, h.hasVault, h.vaults]
  split
  · exact .some ⟨rfl, rel_filter h.accounts (by rintro _ _ ⟨⟩; rfl)⟩
  · exact .none

theorem deleteAccount (h : r.Alike S r') (id : Text) :
    Option.Rel (Records.Alike S) (r.deleteAccount id) (r'.deleteAccount id) := by
  have hid : ∀ a a', Account.Alike S a a' → (a.id == id) = (a'.id == id) := by
    rintro _ _ ⟨⟩
    rfl
  rw [Records.deleteAccount, Records.deleteAccount, ← any_eq_of_rel h.accounts hid]
  split
  · exact .some ⟨h.vaults, rel_filter h.accounts (by rintro _ _ ⟨⟩; rfl)⟩
  · exact .none

end Records.Alike

theorem AccountDraft.Alike.record {d d' : AccountDraft} (h : d.Alike S d') (id : Text)
    (now : Timestamp) : Account.Alike S (d.record id now) (d'.record id now) := by
  obtain ⟨h⟩ := h
  exact .intro (AccountDraft.record _ id now) h

/-- The same keys are refused, and those that name fields name the same ones. -/
theorem Records.outcomes_fieldsOf {updates updates' : Table Text Text}
    (h : Forall₂ (AccountField.Keyed S) updates updates') :
    Act.Outcomes (Forall₂ (AccountField.Written S)) (fieldsOf AccountField.ofKey? updates)
      (fieldsOf AccountField.ofKey? updates') := by
  have hkeys : Table.keys updates = Table.keys updates' :=
    map_eq_of_rel h (by rintro _ _ (u | hv) <;> rfl)
  unfold fieldsOf
  rw [hkeys]
  split
  · refine .ok (List.rel_filterMap ?_ h)
    rintro _ _ (⟨key, value⟩ | hv)
    · simp only
      cases AccountField.ofKey? key with
      | none => exact .none
      | some field => exact .some (.same (field, value))
    · exact .some (.secret hv)
  · exact .error _

theorem Held.Alike.account? {r r' : Records} (h : r.Alike S r') {held held' : Held}
    (hheld : Held.Alike S held held') :
    Option.Rel (Account.Alike S) (held.account? r.accounts) (held'.account? r'.accounts) := by
  cases hheld with
  | present place => exact Records.rel_getElem? h.accounts place
  | gone ha => exact .some ha

theorem Held.Alike.keep {r r' : Records} (h : r.Alike S r') {held held' : Held}
    (hheld : Held.Alike S held held') {stays : Account → Bool}
    (hstays : ∀ a a', Account.Alike S a a' → stays a = stays a') :
    Held.Alike S (held.keep stays r.accounts) (held'.keep stays r'.accounts) := by
  cases hheld with
  | gone ha => exact .gone ha
  | present place =>
    have hcount : (r.accounts.take place).countP stays = (r'.accounts.take place).countP stays :=
      Records.countP_eq_of_rel (List.forall₂_take place h.accounts) hstays
    have hfound := Records.rel_getElem? h.accounts place
    simp only [Held.keep, hcount]
    generalize r.accounts[place]? = found at hfound ⊢
    generalize r'.accounts[place]? = found' at hfound ⊢
    cases hfound with
    | none => exact .present place
    | some ha =>
      simp only [hstays _ _ ha]
      split
      · exact .present _
      · exact .gone ha

theorem Held.alike_refl [Std.Refl S] (held : Held) : Held.Alike S held held := by
  cases held with
  | present place => exact .present place
  | gone a => exact .gone (Account.alike_refl a)

theorem Store.alike_refl [Std.Refl S] {s : Store} (h : s.IsPlain) : s.Alike S s :=
  ⟨h, h, ⟨rfl, List.forall₂_same.2 fun a _ => Account.alike_refl a⟩,
    List.forall₂_same.2 fun held _ => Held.alike_refl held⟩

/-- Where the secrets are equal, so are the stores. -/
theorem Store.Alike.eq {s s' : Store} (h : s.Alike Eq s') : s' = s := by
  have haccount : ∀ a a', Account.Alike Eq a a' → a = a' := by
    rintro a _ ⟨hsecret⟩
    rw [← hsecret]
  have hheld : ∀ held held', Held.Alike Eq held held' → held = held' := by
    rintro _ _ (place | ha)
    · rfl
    · rw [haccount _ _ ha]
  have haccounts : s.records.accounts = s'.records.accounts := by
    rw [← List.forall₂_eq_eq_eq]
    exact h.records.accounts.imp haccount
  have hall : s.held = s'.held := by
    rw [← List.forall₂_eq_eq_eq]
    exact h.held.imp hheld
  obtain ⟨⟨vaults, accounts⟩, keeping, faults, held⟩ := s
  obtain ⟨⟨vaults', accounts'⟩, keeping', faults', held'⟩ := s'
  cases haccounts
  cases hall
  cases h.records.vaults
  cases h.plain.1.trans h.plain'.1.symm
  cases h.plain.2.trans h.plain'.2.symm
  rfl

theorem Store.Alike.letGo {s s' : Store} (h : s.Alike S s') {stays : Account → Bool}
    (hstays : ∀ a a', Account.Alike S a a' → stays a = stays a') :
    (s.letGo stays).Alike S (s'.letGo stays) := by
  refine ⟨h.plain, h.plain', h.records, ?_⟩
  exact List.rel_map (fun _ _ hheld => hheld.keep h.records hstays) h.held

/-- On both sides the first account of a kind is held at the same place. -/
theorem Store.Alike.hold {s s' : Store} (h : s.Alike S s') {p : Account → Bool}
    (hp : ∀ a a', Account.Alike S a a' → p a = p a') {a a' : Account}
    (hfirst : s.records.accounts.find? p = some a)
    (hfirst' : s'.records.accounts.find? p = some a') : (s.hold a).Alike S (s'.hold a') := by
  refine ⟨h.plain, h.plain', h.records, .cons ?_ h.held⟩
  rw [if_pos (List.mem_of_find?_eq_some hfirst), if_pos (List.mem_of_find?_eq_some hfirst'),
    Records.idxOf_of_find? hfirst, Records.idxOf_of_find? hfirst',
    ← Records.findIdx_eq_of_rel h.records.accounts hp]
  exact .present _

theorem Store.Alike.release {s s' : Store} (h : s.Alike S s') :
    Option.Rel (Account.Alike S) s.release.1 s'.release.1 ∧ s.release.2.Alike S s'.release.2 := by
  refine ⟨?_, h.plain, h.plain', h.records, List.forall₂_drop 1 h.held⟩
  have hheld := h.held
  unfold Store.release
  generalize s.held = held at hheld ⊢
  generalize s'.held = held' at hheld ⊢
  cases hheld with
  | nil => exact .none
  | cons hnewest _ => exact hnewest.account? h.records

/-! ## Operations -/

/-- Two own answers that are related. -/
inductive Answer.Owned {α α' : Type} (V : α → α' → Prop) : Answer α → Answer α' → Prop
  | own {a : α} {a' : α'} (h : V a a') : Owned V (.own a) (.own a')

theorem Answer.Owned.eq {α : Type} {answer answer' : Answer α} (h : Owned Eq answer answer') :
    answer = answer' := by
  obtain ⟨h⟩ := h
  rw [h]

namespace Depot

variable {W : World → World → Prop} {α α' : Type} {V : α → α' → Prop}

theorem Alike.now [World.Parallel W] {d d' : Depot} (h : d.Alike S W d') :
    d'.world.now = d.world.now := by
  rw [World.now, World.now, World.Parallel.clock h.world]

theorem Alike.localNow [World.Parallel W] {d d' : Depot} (h : d.Alike S W d') :
    d'.world.localNow = d.world.localNow := by
  rw [World.localNow, World.localNow, World.Parallel.clock h.world]

/-- Events say the same of an identifier on both sides. -/
theorem Alike.labelOf {d d' : Depot} (h : d.Alike S W d') (id : Text) :
    d'.store.labelOf id = d.store.labelOf id := by
  rw [Store.labelOf_of_none (by rw [h.store.plain'.2]; rfl),
    Store.labelOf_of_none (by rw [h.store.plain.2]; rfl)]

theorem twins_unlessFaulty (operation : Operation) {act : Act Failure Depot α}
    {act' : Act Failure Depot α'} (h : act.Twins (Depot.Alike S W) V act') :
    (unlessFaulty operation act).Twins (Depot.Alike S W) (Answer.Owned V)
      (unlessFaulty operation act') := by
  intro d d' hd
  have hown := (h.bind fun a a' ha => Act.Twins.pure (.own ha) :
    Act.Twins (Depot.Alike S W) (Answer.Owned V) _ _) d d' hd
  rw [unlessFaulty_eq (by rw [hd.store.plain.2]; rfl), unlessFaulty_eq (by rw [hd.store.plain'.2]; rfl)]
  exact hown

/-- Listings have the records of the two stores. -/
theorem Alike.listed {d d' : Depot} (hd : d.Alike S W d') (operation : Operation) :
    (d.store.listed operation).Alike S (d'.store.listed operation) := by
  rw [Store.listed_of_none (by rw [hd.store.plain.2]; rfl),
    Store.listed_of_none (by rw [hd.store.plain'.2]; rfl)]
  exact hd.store.records

theorem twins_listVaults :
    listVaults.Twins (Depot.Alike S W) (Answer.Owned Eq) listVaults :=
  twins_unlessFaulty _ (.look fun _ _ hd => (hd.listed .listVaults).vaults.symm)

theorem twins_listAccounts :
    listAccounts.Twins (Depot.Alike S W) (Answer.Owned (Forall₂ (Account.Alike S))) listAccounts :=
  twins_unlessFaulty _ (.look fun _ _ hd => (hd.listed .listAccounts).accounts)

theorem twins_setRecords {r r' : Records} (h : r.Alike S r') :
    (setRecords r).Twins (Depot.Alike S W) Eq (setRecords r') :=
  .change fun _ _ hd => ⟨hd.world, hd.store.plain, hd.store.plain', h, hd.store.held⟩

/-- In memory there is nothing to settle. -/
theorem twins_settle : settle.Twins (Depot.Alike S W) (Answer.Owned Eq) settle := by
  refine twins_unlessFaulty _ fun d d' hd => ?_
  rw [Act.run_bind, Act.run_bind, Act.run_look, Act.run_look, Act.after_ok, Act.after_ok,
    hd.store.plain.1, hd.store.plain'.1]
  exact ⟨.ok rfl, hd⟩

/-- Changed records that are put in place and settled. -/
theorem twins_put {a : α} {a' : α'} {r r' : Records} (h : r.Alike S r') (ha : V a a') :
    (do setRecords r; let _ ← settle; return a : Act Failure Depot α).Twins (Depot.Alike S W) V
      (do setRecords r'; let _ ← settle; return a') :=
  (twins_setRecords h).bind_eq fun _ => twins_settle.bind fun _ _ _ => .pure ha

theorem twins_replace {changed changed' : Option Records}
    (h : Option.Rel (Records.Alike S) changed changed') :
    (replace changed).Twins (Depot.Alike S W) Eq (replace changed') := by
  cases h with
  | none => exact .pure rfl
  | some hr => exact twins_put hr rfl

theorem twins_leaveUndated (failure : Failure) {changed changed' : Option Records}
    (h : Option.Rel (Records.Alike S) changed changed') :
    (leaveUndated failure changed).Twins (Depot.Alike S W) Eq (leaveUndated failure changed') := by
  cases h with
  | none => exact .pure rfl
  | some hr => exact (twins_setRecords hr).bind_eq fun _ => .fail failure

theorem twins_remove {stays : Account → Bool}
    (hstays : ∀ a a', Account.Alike S a a' → stays a = stays a') {changed changed' : Option Records}
    (h : Option.Rel (Records.Alike S) changed changed') :
    (remove stays changed).Twins (Depot.Alike S W) Eq (remove stays changed') := by
  have hletGo : (letGo stays).Twins (Depot.Alike S W) Eq (letGo stays) :=
    .change fun _ _ hd => ⟨hd.world, hd.store.letGo hstays⟩
  cases h with
  | none => exact .pure rfl
  | some hr => exact hletGo.bind_eq fun _ => twins_replace (.some hr)

theorem twins_deleteVault (id : Text) :
    (deleteVault id).Twins (Depot.Alike S W) (Answer.Owned Eq) (deleteVault id) := by
  refine twins_unlessFaulty _ ((Act.Twins.look fun _ _ hd => hd.store.records).bind fun r r' hr => ?_)
  exact twins_remove (by rintro _ _ ⟨⟩; rfl) (hr.deleteVault id)

theorem twins_deleteAccount (id : Text) :
    (deleteAccount id).Twins (Depot.Alike S W) (Answer.Owned Eq) (deleteAccount id) := by
  refine twins_unlessFaulty _ ((Act.Twins.look fun _ _ hd => hd.store.records).bind fun r r' hr => ?_)
  exact twins_remove (by rintro _ _ ⟨⟩; rfl) (hr.deleteAccount id)

section
variable [World.Parallel W]

theorem twins_stamp : stamp.Twins (Depot.Alike S W) Eq stamp := by
  intro d d' hd
  have hid : d'.world.freshId = d.world.freshId := by
    rw [World.freshId, World.freshId, World.Parallel.issued hd.world]
  unfold stamp
  simp only [Act.run_bind, Act.run_look, Act.run_settle, Act.after_ok, hd.now, hid]
  cases d.world.now with
  | error failure => exact ⟨.error failure, hd⟩
  | ok now => exact ⟨.ok rfl, World.Parallel.issue hd.world, hd.store⟩

theorem twins_createVault (draft : VaultDraft) :
    (createVault draft).Twins (Depot.Alike S W) (Answer.Owned Eq) (createVault draft) := by
  refine twins_unlessFaulty _ (twins_stamp.bind_eq fun (id, now) => ?_)
  exact (Act.Twins.look fun _ _ hd => hd.store.records).bind fun r r' hr =>
    twins_put (hr.addVault _) rfl

/-- An update finds one clock on both sides, and then changes both records. -/
theorem twins_update {φ : Type} {U : List (φ × Text) → List (φ × Text) → Prop}
    {fields fields' : Except Failure (List (φ × Text))} (hfields : Act.Outcomes U fields fields')
    (dated : Records → List (φ × Text) → Timestamp → Option Records)
    (undated : Records → List (φ × Text) → Option Records)
    (hdated : ∀ r r' updates updates' now, r.Alike S r' → U updates updates' →
      Option.Rel (Records.Alike S) (dated r updates now) (dated r' updates' now))
    (hundated : ∀ r r' updates updates', r.Alike S r' → U updates updates' →
      Option.Rel (Records.Alike S) (undated r updates) (undated r' updates')) :
    (do
      let fields ← Act.settle fields
      let d ← Act.state
      match d.world.now with
      | .ok now => replace (dated d.store.records fields now)
      | .error failure => leaveUndated failure (undated d.store.records fields) :
        Act Failure Depot Bool).Twins (Depot.Alike S W) Eq
    (do
      let fields ← Act.settle fields'
      let d ← Act.state
      match d.world.now with
      | .ok now => replace (dated d.store.records fields now)
      | .error failure => leaveUndated failure (undated d.store.records fields)) := by
  refine (Act.Twins.settle hfields).bind fun updates updates' hupdates => ?_
  have hstate : (Act.state : Act Failure Depot Depot).Twins (Depot.Alike S W) (Depot.Alike S W)
      Act.state := .look fun _ _ hd => hd
  refine hstate.bind fun d d' hd => ?_
  rw [hd.now]
  cases d.world.now with
  | ok now => exact twins_replace (hdated _ _ _ _ _ hd.store.records hupdates)
  | error failure => exact twins_leaveUndated failure (hundated _ _ _ _ hd.store.records hupdates)

theorem twins_updateVault (id : Text) (updates : Table Text Text) :
    (updateVault id updates).Twins (Depot.Alike S W) (Answer.Owned Eq) (updateVault id updates) := by
  refine twins_unlessFaulty _ (twins_update (U := Eq) (.refl _) (·.updateVault id · ·)
    (·.changeVault id <| Vault.writeAll ·) ?_ ?_)
  · rintro r r' updates _ now hr rfl
    exact hr.changeVault id _
  · rintro r r' updates _ hr rfl
    exact hr.changeVault id _

theorem twins_createAccount {draft draft' : AccountDraft} (h : draft.Alike S draft') :
    (createAccount draft).Twins (Depot.Alike S W) (Answer.Owned (Account.Alike S))
      (createAccount draft') := by
  refine twins_unlessFaulty _ ((Act.Twins.look fun _ _ hd => hd.store.records).bind fun r r' hr => ?_)
  have hvaultId : draft'.vaultId = draft.vaultId := by
    obtain ⟨-⟩ := h
    rfl
  have hmake : (do
      let stamped ← stamp
      let account := draft.record stamped.1 stamped.2
      setRecords (r.addAccount account)
      let _ ← settle
      return account : Act Failure Depot Account).Twins (Depot.Alike S W) (Account.Alike S) (do
      let stamped ← stamp
      let account := draft'.record stamped.1 stamped.2
      setRecords (r'.addAccount account)
      let _ ← settle
      return account) :=
    twins_stamp.bind_eq fun stamped =>
      twins_put (hr.addAccount (h.record stamped.1 stamped.2)) (h.record stamped.1 stamped.2)
  rw [hr.hasVault, hvaultId]
  split
  · exact (Act.Twins.fail (.unknownVaultId draft.vaultId)).bind_eq fun _ => hmake
  · exact hmake

variable [Std.Refl S]

theorem twins_updateAccount (id : Text) {updates updates' : Table Text Text}
    (h : Forall₂ (AccountField.Keyed S) updates updates') :
    (updateAccount id updates).Twins (Depot.Alike S W) (Answer.Owned Eq)
      (updateAccount id updates') := by
  refine twins_unlessFaulty _ (twins_update (Records.outcomes_fieldsOf h) (·.updateAccount id · ·)
    (·.changeAccount id <| Account.writeAll ·) ?_ ?_)
  · intro r r' updates updates' now hr hupdates
    exact hr.changeAccount id fun a a' ha => ha.amend hupdates now
  · intro r r' updates updates' hr hupdates
    exact hr.changeAccount id fun a a' ha => ha.writeAll hupdates

end

end Depot

end VaultConsole
