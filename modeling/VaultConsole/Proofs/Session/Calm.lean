import VaultConsole.Command.Dispatch
import VaultConsole.Proofs.Store.Keys
import VaultConsole.Proofs.Store.Steady

/-!
# Commands that delete nothing

Of all that a session does only two things matter to what is deleted: asking for a deletion, which
changes the gate, and carrying one out, which takes records away. All else is calm: it leaves the
gate as it is and takes no record away. Looking for records and calling parts outside is more than
that: the session stands still, so no record changes at all, and mostly it is even fixed, so no effect
comes to wait and the clock goes on as before. What parts outside are still going to do is used up on
the way and never grows, and a call of a part that submits lines uses some of it up.

* `Session.Fixed`, `Session.Still`, `Session.Calm`: the relations, each of which implies the next.
* `Session.Follows`, `Session.Coarse`: relations that the first implies, and that the second does.
* `Session.Reacts`: a call of a part outside.
* `Session.keeps_findVault` to `Session.reacts_touch`: what commands and effects are made of.
* `Session.keeps_openPage` to `Session.keeps_stats`: the commands.
-/

namespace VaultConsole

/-- What a part outside is going to do is used up by its calls. -/
theorem Behaviour.pending_next (b : Behaviour) :
    b.next.2.pending ≤ b.pending ∧
      (b.next.1.resubmits = [] ∨ b.next.2.pending < b.pending) := by
  unfold next
  split
  · exact ⟨le_rfl, .inl rfl⟩
  · next reaction rest h => simp [pending, h]

/-- What a scheduler is going to do is used up by its calls. -/
theorem Scheduler.pending_next (s : Scheduler) :
    s.next.2.pending ≤ s.pending ∧
      (s.next.1 = s.afterwards.handling ∨ s.next.2.pending < s.pending) := by
  unfold next
  split
  · exact ⟨le_rfl, .inl rfl⟩
  · next handling rest h => simp [pending, h]

namespace Session

/-- The gate and the records are left as they are. -/
structure Still (s s' : Session) : Prop where
  gate : s'.gate = s.gate
  records : s'.depot.store.records = s.depot.store.records
  keeping : s'.depot.store.keeping = s.depot.store.keeping
  faults : s'.depot.store.faults = s.depot.store.faults
  /-- Parts outside have no more to do than before. -/
  pending : s'.pendingReactions ≤ s.pendingReactions

instance : Std.Refl Still := ⟨fun _ => ⟨rfl, rfl, rfl, rfl, le_rfl⟩⟩

instance : IsTrans Session Still where
  trans _ _ _ h h' :=
    ⟨h'.gate.trans h.gate, h'.records.trans h.records, h'.keeping.trans h.keeping,
      h'.faults.trans h.faults, h'.pending.trans h.pending⟩

theorem Still.plain {s s' : Session} (h : Still s s') (hplain : s.depot.store.IsPlain) :
    s'.depot.store.IsPlain := ⟨h.keeping.trans hplain.1, h.faults.trans hplain.2⟩

/-- A relation that holds wherever a session stands still. -/
class Coarse (R : Session → Session → Prop) : Prop where
  of_still : ∀ {s s'}, Still s s' → R s s'

instance : Coarse Still := ⟨id⟩

/-- The gate, the records, the effects that wait and the clock are left as they are. -/
structure Fixed (s s' : Session) : Prop extends Still s s' where
  deferred : s'.deferred = s.deferred
  clock : s'.depot.world.clock = s.depot.world.clock

instance : Std.Refl Fixed := ⟨fun s => ⟨Std.Refl.refl s, rfl, rfl⟩⟩

instance : IsTrans Session Fixed where
  trans _ _ _ h h' :=
    ⟨trans_of Still h.toStill h'.toStill, h'.deferred.trans h.deferred, h'.clock.trans h.clock⟩

/-- A relation that holds wherever a session is fixed. -/
class Follows (R : Session → Session → Prop) : Prop where
  of_fixed : ∀ {s s'}, Fixed s s' → R s s'

instance : Follows Fixed := ⟨id⟩

instance {R : Session → Session → Prop} [Coarse R] : Follows R :=
  ⟨fun h => Coarse.of_still h.toStill⟩

/-- The gate is left as it is, and no record is taken away. -/
structure Calm (s s' : Session) : Prop where
  gate : s'.gate = s.gate
  depot : s.depot.Grows s'.depot
  /-- Parts outside have no more to do than before. -/
  pending : s'.pendingReactions ≤ s.pendingReactions

instance : Std.Refl Calm := ⟨fun s => ⟨rfl, Std.Refl.refl s.depot, le_rfl⟩⟩

instance : IsTrans Session Calm where
  trans _ _ _ h h' :=
    ⟨h'.gate.trans h.gate, trans_of Depot.Grows h.depot h'.depot, h'.pending.trans h.pending⟩

instance : Coarse Calm where
  of_still {_ s'} h := by
    refine ⟨h.gate, fun hplain => ⟨h.plain hplain, ?_⟩, h.pending⟩
    rw [h.records]
    exact List.Subset.refl _

@[simp] theorem keeps_inDepot {α : Type} {act : Act Failure Depot α} (h : act.Keeps Depot.Grows) :
    (inDepot act).Keeps Calm := h.within fun _ _ hd => ⟨rfl, hd, le_rfl⟩

/-! ## Small steps -/

section
variable {R : Session → Session → Prop} [Follows R]

@[simp] theorem keeps_emit (severity : Severity) (name : Text) (fields : Table Text Json) :
    (emit severity name fields).Keeps R := fun s =>
  Follows.of_fixed ⟨⟨rfl, rfl, rfl, rfl, le_rfl⟩, rfl,
    (Depot.sound_emit severity name fields).keeps s.depot |>.clock⟩

@[simp] theorem keeps_print (line : Text) : (inWorld (·.print line)).Keeps R :=
  fun _ => Follows.of_fixed ⟨⟨rfl, rfl, rfl, rfl, le_rfl⟩, rfl, rfl⟩

@[simp] theorem keeps_stop :
    (Act.change fun s => { s with running := false } : Act Failure Session Unit).Keeps R :=
  fun _ => Follows.of_fixed ⟨⟨rfl, rfl, rfl, rfl, le_rfl⟩, rfl, rfl⟩

@[simp] theorem keeps_hold (account : Account) : (hold account).Keeps R :=
  fun _ => Follows.of_fixed ⟨⟨rfl, rfl, rfl, rfl, le_rfl⟩, rfl, rfl⟩

@[simp] theorem keeps_release (account : Account) : (release account).Keeps R :=
  fun _ => Follows.of_fixed ⟨⟨rfl, rfl, rfl, rfl, le_rfl⟩, rfl, rfl⟩

@[simp] theorem keeps_enqueue (effect : Effect) : (enqueue effect).Keeps R :=
  fun _ => Follows.of_fixed ⟨⟨rfl, rfl, rfl, rfl, le_rfl⟩, rfl, rfl⟩

end

section
variable {R : Session → Session → Prop} [Coarse R]

@[simp] theorem keeps_inWorld (f : World → World) : (inWorld f).Keeps R :=
  fun _ => Coarse.of_still ⟨rfl, rfl, rfl, rfl, le_rfl⟩

theorem keeps_inDepotWorld {α : Type} (act : Act Failure World α) :
    (inDepot (Depot.inWorld act)).Keeps R := fun _ => Coarse.of_still ⟨rfl, rfl, rfl, rfl, le_rfl⟩

@[simp] theorem keeps_defer (effect : Effect) : (defer effect).Keeps R :=
  fun _ => Coarse.of_still ⟨rfl, rfl, rfl, rfl, le_rfl⟩

@[simp] theorem keeps_dropDeferred : (Act.change dropDeferred : Act Failure Session Unit).Keeps R :=
  fun _ => Coarse.of_still ⟨rfl, rfl, rfl, rfl, le_rfl⟩

@[simp] theorem keeps_takeDeferred : takeDeferred.Keeps R :=
  fun _ => Coarse.of_still ⟨rfl, rfl, rfl, rfl, le_rfl⟩

@[simp] theorem keeps_takeScheduled : takeScheduled.Keeps R :=
  fun _ => Coarse.of_still ⟨rfl, rfl, rfl, rfl, le_rfl⟩

end

/-! ## Looking for records -/

section
variable {R : Session → Session → Prop} [Std.Refl R]

/-- A listing, in order or out of order, changes nothing. -/
theorem keeps_listing {α : Type} (operation : Operation) (f : Depot → α) :
    (inDepot (Depot.unlessFaulty operation (Act.look f))).Keeps R := by
  intro s
  have hsame : (Depot.unlessFaulty operation (Act.look f) s.depot).2 = s.depot := by
    rcases Depot.unlessFaulty_cases operation (Act.look f) s.depot with
      ⟨failure, -, hrun⟩ | ⟨value, hrun⟩ | hrun <;> rw [hrun]
    rfl
  show R s { s with depot := (Depot.unlessFaulty operation (Act.look f) s.depot).2 }
  rw [hsame]
  exact Std.Refl.refl s

@[simp] theorem keeps_listVaultsIn : (inDepot Depot.listVaults).Keeps R := keeps_listing _ _

@[simp] theorem keeps_listAccountsIn : (inDepot Depot.listAccounts).Keeps R := keeps_listing _ _

variable [IsTrans Session R]

@[simp] theorem keeps_vaultsWith (field : Text) : (vaultsWith field).Keeps R := by
  simp [vaultsWith]

@[simp] theorem keeps_accountsWith (field : Text) : (accountsWith field).Keeps R := by
  simp [accountsWith]

@[simp] theorem keeps_findVault (name : Text) : (findVault name).Keeps R := by
  refine (keeps_vaultsWith _).bind fun vaults => ?_
  split <;> simp

@[simp] theorem keeps_findAccount (name : Text) : (findAccount name).Keeps R := by
  refine (keeps_accountsWith _).bind fun accounts => ?_
  split <;> simp

@[simp] theorem keeps_accountsIn (vaultId : Text) : (accountsIn vaultId).Keeps R := by
  simp [accountsIn]

@[simp] theorem keeps_requireNavigator : requireNavigator.Keeps R := by simp [requireNavigator]

@[simp] theorem keeps_requireExit : requireExit.Keeps R := by simp [requireExit]

@[simp] theorem keeps_requireClipboard : requireClipboard.Keeps R := by simp [requireClipboard]

@[simp] theorem keeps_pageSummary (page : Page) : (pageSummary page).Keeps R := by
  refine keeps_listVaultsIn.bind fun vaults => keeps_listAccountsIn.bind fun accounts => ?_
  cases page <;> simp

end

/-! ## Parts outside -/

/-- At a call of a part outside the session is fixed, and if the part submits lines, there is less to
come. -/
def Reacts (act : Act Failure Session Reaction) : Prop :=
  ∀ s, s.Fixed (act s).2 ∧ ∀ reaction, (act s).1 = .ok reaction →
    reaction.resubmits = [] ∨ (act s).2.pendingReactions < s.pendingReactions

theorem Reacts.keeps {R : Session → Session → Prop} [Follows R] {act : Act Failure Session Reaction}
    (h : Reacts act) : act.Keeps R := fun s => Follows.of_fixed (h s).1

/-- The states around a call of a part with a behaviour. -/
theorem fixed_of_next {s : Session} {b : Behaviour} (s' : Session) (hgate : s'.gate = s.gate)
    (hstore : s'.depot.store = s.depot.store) (hdeferred : s'.deferred = s.deferred)
    (hclock : s'.depot.world.clock = s.depot.world.clock)
    (hpending : s'.pendingReactions + b.pending = s.pendingReactions + b.next.2.pending) :
    s.Fixed s' ∧ ∀ reaction, (.ok b.next.1 : Except Failure Reaction) = .ok reaction →
      reaction.resubmits = [] ∨ s'.pendingReactions < s.pendingReactions := by
  obtain ⟨hle, hlt⟩ := b.pending_next
  refine ⟨⟨⟨hgate, ?_, ?_, ?_, by omega⟩, hdeferred, hclock⟩, fun reaction h => ?_⟩
  · rw [hstore]
  · rw [hstore]
  · rw [hstore]
  · cases h
    exact hlt.imp id fun hlt => by omega

/-- A part that does its work silently. -/
theorem quiet_of_ok {s s' : Session} :
    ∀ reaction, (.ok .quiet : Except Failure Reaction) = .ok reaction →
      reaction.resubmits = [] ∨ s'.pendingReactions < s.pendingReactions :=
  fun _ h => by cases h; exact .inl rfl

/-- What this program does itself submits no lines. -/
theorem reacts_of_keeps {act : Act Failure Session Unit} (h : act.Keeps Fixed) :
    Reacts (do act; return .quiet) := by
  intro s
  have hs := h s
  rw [Act.run_bind]
  rcases hact : act s with ⟨failure | _, s'⟩
  · rw [hact] at hs
    exact ⟨hs, fun _ h => (by cases h)⟩
  · rw [hact] at hs
    exact ⟨hs, quiet_of_ok⟩

theorem keeps_showOnScreen (leavesAtOverview : Bool) (page : Page) :
    (showOnScreen leavesAtOverview page).Keeps Fixed :=
  (keeps_pageSummary page).bind fun _ => (keeps_print _).bind fun _ => .ite keeps_stop (.pure _)

theorem reacts_showPage (page : Page) : Reacts (showPage page) := by
  intro s
  unfold showPage
  rw [Act.run_bind, Act.run_look, Act.after_ok]
  cases hnavigator : s.navigator with
  | none => exact ⟨Std.Refl.refl s, quiet_of_ok⟩
  | some navigator =>
    cases navigator with
    | outside b =>
      -- the sum of what is to come changes by what the navigator has used up
      refine fixed_of_next (b := b)
        { s with depot := { s.depot with world := s.depot.world.note (.navigate page) }
                 navigator := some (.outside b.next.2) } rfl rfl rfl rfl ?_
      simp only [pendingReactions, hnavigator]
      omega
    | screen leavesAtOverview =>
      exact reacts_of_keeps (keeps_showOnScreen leavesAtOverview page) s

theorem reacts_leave : Reacts leave := by
  intro s
  unfold leave
  rw [Act.run_bind, Act.run_look, Act.after_ok]
  cases hexit : s.exit with
  | none => exact ⟨Std.Refl.refl s, quiet_of_ok⟩
  | some exit =>
    cases exit with
    | outside b =>
      refine fixed_of_next (b := b)
        { s with depot := { s.depot with world := s.depot.world.note .exit }
                 exit := some (.outside b.next.2) } rfl rfl rfl rfl ?_
      simp only [pendingReactions, hexit]
      omega
    | loop => exact reacts_of_keeps keeps_stop s

theorem reacts_copy (text : Text) : Reacts (copy text) := by
  intro s
  unfold copy
  rw [Act.run_bind, Act.run_look, Act.after_ok]
  cases hclipboard : s.clipboard with
  | none => exact ⟨Std.Refl.refl s, quiet_of_ok⟩
  | some b =>
    refine fixed_of_next (b := b)
      { s with depot := { s.depot with world := s.depot.world.note (.copy text) }
               clipboard := some b.next.2 } rfl rfl rfl rfl ?_
    simp only [pendingReactions, hclipboard]
    omega

theorem reacts_touch (effect : Effect) : Reacts (touch effect) := by
  cases effect with
  | navigate page => exact reacts_showPage page
  | exit => exact reacts_leave

/-- At a call of the scheduler the session is fixed, and if it does not keep to its timing, there is less
to come. -/
theorem fixed_takeHandling (s : Session) :
    s.Fixed (takeHandling s).2 ∧ (s.scheduler.next.1 = s.scheduler.afterwards.handling ∨
      (takeHandling s).2.pendingReactions < s.pendingReactions) := by
  obtain ⟨hle, hlt⟩ := s.scheduler.pending_next
  have hpending : (takeHandling s).2.pendingReactions + s.scheduler.pending =
      s.pendingReactions + s.scheduler.next.2.pending := by
    simp only [takeHandling, pendingReactions]
    omega
  refine ⟨⟨⟨rfl, rfl, rfl, rfl, by omega⟩, rfl, rfl⟩, hlt.imp id fun hlt => ?_⟩
  omega

theorem keeps_takeHandling {R : Session → Session → Prop} [Follows R] : takeHandling.Keeps R :=
  fun s => Follows.of_fixed (fixed_takeHandling s).1

/-! ## Commands -/

theorem keeps_openPage (name : Text) : (openPage name).Keeps Calm := by
  refine keeps_requireNavigator.bind fun _ => ?_
  split <;> simp

theorem keeps_requestExit : requestExit.Keeps Calm := by simp [requestExit]

theorem keeps_listVaults : listVaults.Keeps Calm := by
  refine keeps_listVaultsIn.bind fun vaults => .ite (.pure _) ?_
  simp

@[simp] theorem keeps_createVaultIn (draft : VaultDraft) :
    (inDepot (Depot.createVault draft)).Keeps Calm :=
  keeps_inDepot ((Mutation.createVault draft).grows_run id).of_map

@[simp] theorem keeps_createAccountIn (draft : AccountDraft) :
    (inDepot (Depot.createAccount draft)).Keeps Calm :=
  keeps_inDepot ((Mutation.createAccount draft).grows_run id).of_map

@[simp] theorem keeps_updateVaultIn (id : Text) (updates : Table Text Text) :
    (inDepot (Depot.updateVault id updates)).Keeps Calm :=
  keeps_inDepot ((Mutation.updateVault id updates).grows_run fun h => h).of_map

@[simp] theorem keeps_updateAccountIn (id : Text) (updates : Table Text Text) :
    (inDepot (Depot.updateAccount id updates)).Keeps Calm :=
  keeps_inDepot ((Mutation.updateAccount id updates).grows_run fun h => h).of_map

theorem keeps_createVault (name description : Text) : (createVault name description).Keeps Calm := by
  simp [createVault]

theorem keeps_updateVault (name : Text) (newName description : Option Text) :
    (updateVault name newName description).Keeps Calm := by
  refine (keeps_findVault name).bind fun vault => .ite ?_ (.pure _)
  exact (keeps_updateVaultIn _ _).bind fun answer => by simp

theorem keeps_showVault (name : Text) : (showVault name).Keeps Calm := by simp [showVault]

theorem keeps_listAccounts (vaultName : Option Text) : (listAccounts vaultName).Keeps Calm := by
  unfold listAccounts
  simp only
  split
  · exact (keeps_findVault _).bind fun vault => (keeps_accountsIn _).bind fun items => by simp
  · exact (keeps_accountsWith _).bind fun items => by simp

theorem keeps_createAccount (vaultName name username password url notes : Text) :
    (createAccount vaultName name username password url notes).Keeps Calm := by
  simp [createAccount]

theorem keeps_updateAccount (name : Text) (newName username password url notes : Option Text) :
    (updateAccount name newName username password url notes).Keeps Calm := by
  refine (keeps_findAccount name).bind fun account => .ite ?_ (.pure _)
  exact (keeps_updateAccountIn _ _).bind fun answer => by simp

theorem keeps_showAccount (name : Text) (reveal : Bool) : (showAccount name reveal).Keeps Calm := by
  simp [showAccount]

theorem keeps_secretOf (name : Text) : (secretOf name).Keeps Calm := by simp [secretOf]

theorem keeps_search (query : Text) : (search query).Keeps Calm := by
  refine .ite (.bind (.fail _) fun _ => ?_) ?_
  all_goals exact (keeps_vaultsWith _).bind fun vaults =>
    (keeps_accountsWith _).bind fun accounts => by simp

theorem keeps_stats : stats.Keeps Calm := by
  refine keeps_listVaultsIn.bind fun vaults => keeps_listAccountsIn.bind fun accounts => ?_
  exact (Act.Keeps.settle _).bind fun items => by simp

end Session

end VaultConsole
