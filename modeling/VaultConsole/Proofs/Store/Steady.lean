import VaultConsole.Proofs.Store.Mutation

/-!
# What operations leave alone

Whatever becomes of an operation, in memory or with a data file, in order or out of order, the clock
goes on as before and what is out of order stays so. And every failure of an operation is an ordinary
one, with words and no interruption, unless it was put in its place.

* `Failure.IsOrdinary`, `Failure.Ordinarily`: failures that have words and are no interruptions.
* `Store.Raises`: the failures that were put in the place of operations.
* `Depot.Steady`, `Depot.Blames`: what is left alone, and how an operation can fail.
* `Depot.sound_listVaults` to `Depot.sound_deleteAccount`: the operations.
-/

namespace VaultConsole

namespace Failure

/-- A failure whose words can be made. -/
def HasWords (f : Failure) : Prop := f.words = .ok f.message

theorem hasWords_of_ok {f : Failure} {text : Text} (h : f.words = .ok text) : f.HasWords := by
  induction f with
  | badData cause ih => exact ih h
  | wordless kind cause => cases h
  | _ => rfl

/-- A failure that is no interruption by the user, and has words. -/
structure IsOrdinary (f : Failure) : Prop where
  goes : f.isInterruption = false
  words : f.HasWords

variable {α β : Type}

/-- A result that is no failure but an ordinary one. -/
def Ordinarily (result : Except Failure α) : Prop := ∀ f, result = .error f → f.IsOrdinary

namespace Ordinarily

theorem ok (a : α) : Ordinarily (.ok a) := fun _ h => by cases h

theorem error {f : Failure} (h : f.IsOrdinary) : Ordinarily (.error f : Except Failure α) := by
  rintro f' hf
  cases hf
  exact h

theorem bind {result : Except Failure α} {next : α → Except Failure β} (h : Ordinarily result)
    (hnext : ∀ a, Ordinarily (next a)) : Ordinarily (result >>= next) := by
  cases result with
  | ok a => exact hnext a
  | error f => exact error (h f rfl)

theorem mapM {items : List α} {f : α → Except Failure β} (h : ∀ a, Ordinarily (f a)) :
    Ordinarily (items.mapM f) := by
  induction items with
  | nil => exact ok []
  | cons a rest ih =>
    rw [List.mapM_cons]
    exact (h a).bind fun b => ih.bind fun bs => ok _

theorem map {f : α → β} {result : Except Failure α} (h : Ordinarily result) :
    Ordinarily (result.map f) := by
  cases result with
  | ok a => exact .ok (f a)
  | error failure => exact .error (h failure rfl)

theorem mapError {ε : Type} {result : Except ε α} {f : ε → Failure} (h : ∀ e, (f e).IsOrdinary) :
    Ordinarily (result.mapError f) := by
  cases result with
  | ok a => exact ok a
  | error e => exact error (h e)

/-- Such a result is caught, whatever it is. -/
theorem attempt {σ : Type} {act : Act Failure σ α} {s s' : σ} {result : Except Failure α}
    (h : Ordinarily result) (hrun : act s = (result, s')) : attempt act s = (.ok result, s') := by
  unfold Failure.attempt Act.attemptUnless
  rw [hrun]
  cases result with
  | ok a => rfl
  | error failure =>
    have hgoes : failure.isInterruption = false := (h failure rfl).goes
    simp only [hgoes, Bool.false_eq_true, if_false]

end Ordinarily

theorem isOrdinary_noTime (problem : Clock.Problem) : (noTime problem).IsOrdinary := by
  cases problem with
  | noWhole reason => cases reason <;> exact ⟨rfl, rfl⟩
  | tooManyDays days => exact ⟨rfl, rfl⟩
  | outsideCalendar => exact ⟨rfl, rfl⟩
  | noYear year => exact ⟨rfl, rfl⟩

end Failure

open Failure (Ordinarily)

/-! ## Reading records -/

theorem Json.ordinarily_timestampField (members : Table Text Json) (key : Text) :
    Ordinarily (timestampField members key) := by
  unfold timestampField
  split
  · split
    · exact .ok _
    · exact .error ⟨rfl, rfl⟩
  · exact .error ⟨rfl, rfl⟩

theorem Json.ordinarily_membersFor (operation : Text) (value : Json) :
    Ordinarily (membersFor operation value) := by
  unfold membersFor
  split
  · exact .ok _
  · exact .error ⟨rfl, rfl⟩

theorem Vault.ordinarily_ofJson (value : Json) : Ordinarily (ofJson value) := by
  refine (value.ordinarily_membersFor "keys").bind fun members => ?_
  split
  · exact (Json.ordinarily_timestampField _ _).bind fun created =>
      (Json.ordinarily_timestampField _ _).bind fun modified => .ok _
  · exact .error ⟨rfl, rfl⟩

theorem Account.ordinarily_ofJson (value : Json) : Ordinarily (ofJson value) := by
  refine (value.ordinarily_membersFor "keys").bind fun members => ?_
  split
  · exact (Json.ordinarily_timestampField _ _).bind fun created =>
      (Json.ordinarily_timestampField _ _).bind fun modified => .ok _
  · exact .error ⟨rfl, rfl⟩

namespace Records

theorem ordinarily_fieldsOf {φ : Type} (ofKey? : Text → Option φ) (updates : Table Text Text) :
    Ordinarily (fieldsOf ofKey? updates) := by
  unfold fieldsOf
  split
  · exact .ok _
  · exact .error ⟨rfl, rfl⟩

theorem ordinarily_memberOf (key : Text) (value : Json) : Ordinarily (memberOf key value) := by
  unfold memberOf
  split
  · split
    · exact .ok _
    · exact .error ⟨rfl, rfl⟩
  · exact .error ⟨rfl, rfl⟩

theorem ordinarily_itemsOf (value : Json) : Ordinarily (itemsOf value) := by
  unfold itemsOf
  split
  · exact .ok _
  · exact .ok _
  · exact .ok _
  · exact .error ⟨rfl, rfl⟩

theorem ordinarily_recordsUnder {α : Type} {ofJson : Json → Except Failure α}
    (h : ∀ value, Ordinarily (ofJson value)) (key : Text) (value : Json) :
    Ordinarily (recordsUnder ofJson key value) :=
  (ordinarily_memberOf key value).bind fun member =>
    (ordinarily_itemsOf member).bind fun _ => .mapM h

end Records

namespace Answer

variable {α : Type}

theorem ordinarily_itemsWith (field : Text) (answer : Answer (List α)) :
    Ordinarily (answer.itemsWith field) := by
  cases answer with
  | own items => exact .ok _
  | foreign value =>
    have hfirst : Ordinarily (firstKind? value) := by
      unfold firstKind?
      split
      · exact .ok _
      · exact .ok _
      · exact .ok _
      · exact .error ⟨rfl, rfl⟩
    refine hfirst.bind fun kind => ?_
    cases kind with
    | none => exact .ok _
    | some kind => exact .error ⟨rfl, rfl⟩

theorem ordinarily_count (answer : Answer (List α)) : Ordinarily answer.count := by
  unfold count
  split
  · exact .ok _
  · exact .ok _
  · exact .ok _
  · exact .ok _
  · exact .error ⟨rfl, rfl⟩

end Answer

/-! ## The world -/

namespace World

/-- The clock goes on as before. -/
def SameClock (w w' : World) : Prop := w'.clock = w.clock

instance : Std.Refl SameClock := ⟨fun _ => rfl⟩

instance : IsTrans World SameClock := ⟨fun _ _ _ h h' => h'.trans h⟩

theorem ordinarily_now (w : World) : Ordinarily w.now := .mapError Failure.isOrdinary_noTime

theorem ordinarily_localNow (w : World) : Ordinarily w.localNow :=
  .mapError Failure.isOrdinary_noTime

theorem clock_writeRunLog (e : Event) (w : World) : (writeRunLog e w).clock = w.clock := by
  unfold writeRunLog
  split
  · rfl
  · split
    · rfl
    · simp only
      split
      · rfl
      · split <;> rfl

/-- An event is no call of a part outside, and goes by none. -/
theorem record_withCalls (e : Event) (w : World) (calls : List Call) :
    ({ w with calls } : World).record e = { w.record e with calls } := by
  unfold record writeRunLog
  simp only
  split
  · rfl
  · split
    · rfl
    · split
      · rfl
      · split <;> rfl

theorem calls_record (e : Event) (w : World) : (w.record e).calls = w.calls := by
  have h := record_withCalls e w w.calls
  exact congrArg (·.calls) h

theorem sound_emit (severity : Severity) (name : Text) (fields : Table Text Json) :
    (emit severity name fields).Sound SameClock fun _ f => f.IsOrdinary := by
  intro w
  cases hc : w.localNow with
  | ok moment => exact .of_ok (emit_eq hc severity name fields) (clock_writeRunLog _ _)
  | error failure =>
    have hrun : emit severity name fields w = (.error failure, w) := by
      unfold emit
      rw [hc]
    exact .of_error hrun rfl (w.ordinarily_localNow failure hc)

theorem keeps_makeDirectories (path : Path) : (makeDirectories path).Keeps SameClock := fun _ => rfl

theorem keeps_writeFile (path : Path) (bytes : List UInt8) :
    (writeFile path bytes).Keeps SameClock := by
  intro w
  unfold writeFile
  split <;> rfl

theorem keeps_writeDocument (path : Path) (value : Json) :
    (writeDocument path value).Keeps SameClock := by
  refine (keeps_writeFile path _).bind fun _ => ?_
  split
  · exact .pure _
  · exact .fail _

end World

/-! ## The operations -/

/-- A failure was put in the place of an operation. -/
def Store.Raises (s : Store) (f : Failure) : Prop :=
  ∃ operation, Table.get? operation s.faults = some (.fails f)

/-- Only ordinary failures were put in the place of operations. -/
def Store.IsOrdinary (s : Store) : Prop := ∀ f, s.Raises f → f.IsOrdinary

namespace Depot

/-- The clock goes on as before, and what is out of order stays so. -/
structure Steady (d d' : Depot) : Prop where
  clock : d'.world.clock = d.world.clock
  faults : d'.store.faults = d.store.faults

instance : Std.Refl Steady := ⟨fun _ => ⟨rfl, rfl⟩⟩

instance : IsTrans Depot Steady where
  trans _ _ _ h h' := ⟨h'.clock.trans h.clock, h'.faults.trans h.faults⟩

/-- A failure is an ordinary one, or was put in the place of an operation. -/
def Blames (d : Depot) (f : Failure) : Prop := f.IsOrdinary ∨ d.store.Raises f

theorem Steady.raises {d d' : Depot} (h : d.Steady d') {f : Failure} :
    d'.store.Raises f ↔ d.store.Raises f := by rw [Store.Raises, Store.Raises, h.faults]

theorem Steady.labelOf {d d' : Depot} (h : d.Steady d') (id : Text) :
    d'.store.labelOf id = d.store.labelOf id := by rw [Store.labelOf, Store.labelOf, h.faults]

instance : Act.Backward Steady Blames := ⟨fun h hblames => hblames.imp_right h.raises.1⟩

variable {α : Type}

theorem sound_settle {result : Except Failure α} (h : Ordinarily result) :
    (Act.settle result).Sound Steady Blames := .settle fun _ f hf => .inl (h f hf)

theorem sound_fail {f : Failure} (h : f.IsOrdinary) :
    (Act.fail f : Act Failure Depot α).Sound Steady Blames := .fail fun _ => .inl h

theorem sound_unlessFaulty (operation : Operation) {act : Act Failure Depot α}
    (h : act.Sound Steady Blames) : (unlessFaulty operation act).Sound Steady Blames := by
  intro d
  rcases unlessFaulty_cases operation act d with ⟨failure, hfault, hrun⟩ | ⟨value, hrun⟩ | hrun
  · exact .of_error hrun (Std.Refl.refl d) (.inr ⟨operation, hfault⟩)
  · exact .of_ok hrun (Std.Refl.refl d)
  · have hown := h.map Answer.own d
    exact ⟨hrun ▸ hown.keeps, hrun ▸ hown.fails⟩

theorem sound_inWorld {act : Act Failure World α}
    (h : act.Sound World.SameClock fun _ f => f.IsOrdinary) : (inWorld act).Sound Steady Blames :=
  h.within (fun _ _ hclock => ⟨hclock, rfl⟩) fun _ _ hf => .inl hf

theorem sound_emit (severity : Severity) (name : Text) (fields : Table Text Json) :
    (emit severity name fields).Sound Steady Blames := sound_inWorld (World.sound_emit _ _ _)

theorem sound_setRecords (records : Records) : (setRecords records).Sound Steady Blames :=
  .change fun _ => ⟨rfl, rfl⟩

theorem sound_letGo (stays : Account → Bool) : (letGo stays).Sound Steady Blames :=
  .change fun _ => ⟨rfl, rfl⟩

theorem isOrdinary_writeFailure (path : Path) (problem : Disk.Problem) :
    (writeFailure path problem).IsOrdinary := by
  cases problem with
  | refused refusal p => exact ⟨rfl, rfl⟩
  | zeroInPath => exact ⟨rfl, rfl⟩
  | unencodable problem => exact ⟨rfl, rfl⟩
  | full => exact ⟨rfl, rfl⟩

theorem sound_writeDocument (path : Path) (document : Json) :
    (writeDocument path document).Sound Steady Blames := by
  refine sound_inWorld fun w => ⟨?_, fun f hf => ?_⟩
  · exact ((World.keeps_makeDirectories path.parent).bind fun _ =>
      World.keeps_writeDocument path document) w
  · rw [Act.run_rename] at hf
    exact Ordinarily.mapError (isOrdinary_writeFailure path) f hf

theorem sound_document : document.Sound Steady Blames := sound_unlessFaulty _ (.look _)

theorem sound_saveNow : saveNow.Sound Steady Blames := by
  refine (Act.Sound.look _).bind fun keeping => ?_
  cases keeping with
  | memory => exact sound_fail ⟨rfl, rfl⟩
  | file path saved =>
    refine sound_document.bind fun answer => (sound_writeDocument _ _).bind fun _ => ?_
    exact .change fun _ => ⟨rfl, rfl⟩

theorem sound_save : save.Sound Steady Blames := sound_unlessFaulty _ sound_saveNow

theorem sound_restore (saved : Json) : (restore saved).Sound Steady Blames := by
  refine (sound_settle (Records.ordinarily_recordsUnder Vault.ordinarily_ofJson _ _)).bind
    fun vaults => (Act.Sound.look _).bind fun records => (sound_setRecords _).bind fun _ => ?_
  refine (sound_settle (Records.ordinarily_recordsUnder Account.ordinarily_ofJson _ _)).bind
    fun accounts => (sound_letGo _).bind fun _ => ?_
  exact (Act.Sound.look _).bind fun records => sound_setRecords _

theorem sound_rollBack (path : Path) (saved : Json) : (rollBack path saved).Sound Steady Blames :=
  sound_unlessFaulty _ ((sound_restore saved).bind fun _ => sound_emit _ _ _)

theorem sound_saveOrRollBack (path : Path) (saved : Json) :
    (saveOrRollBack path saved).Sound Steady Blames := by
  intro d
  have hsave := sound_save d
  -- the failure that is passed on in the end is that of the save
  have hblame : ∀ f, (save d).1 = .error f → ∀ d', d.Steady d' →
      (Act.fail f : Act Failure Depot Unit).SoundAt Steady Blames d' := by
    intro f hf d' hsteady
    exact .of_error rfl (Std.Refl.refl d') ((hsave.fails f hf).imp_right hsteady.raises.2)
  refine Act.SoundAt.bind (.of_ok (Act.run_attempt save d) hsave.keeps) fun result d' hrun _ => ?_
  rw [Act.run_attempt] at hrun
  cases hrun
  cases hresult : (save d).1 with
  | ok answer => exact .of_ok rfl (Std.Refl.refl _)
  | error f =>
    simp only
    split
    · refine Act.SoundAt.bind (sound_rollBack path saved _) fun answer d' _ hroll => ?_
      exact hblame f hresult d' (trans_of Steady hsave.keeps hroll)
    · exact hblame f hresult _ hsave.keeps

theorem sound_settleChange : settle.Sound Steady Blames := by
  refine sound_unlessFaulty _ ((Act.Sound.look _).bind fun keeping => ?_)
  cases keeping with
  | memory => exact .pure _
  | file path saved => exact sound_saveOrRollBack path saved

@[simp] theorem sound_listVaults : listVaults.Sound Steady Blames := sound_unlessFaulty _ (.look _)

@[simp] theorem sound_listAccounts : listAccounts.Sound Steady Blames :=
  sound_unlessFaulty _ (.look _)

theorem sound_stamp : stamp.Sound Steady Blames := by
  refine (Act.Sound.look _).bind fun world => (sound_settle world.ordinarily_now).bind fun now => ?_
  exact (Act.Sound.change fun _ => ⟨rfl, rfl⟩).bind fun _ => .pure _

@[simp] theorem sound_createVault (draft : VaultDraft) :
    (createVault draft).Sound Steady Blames := by
  refine sound_unlessFaulty _ (sound_stamp.bind fun stamp => (Act.Sound.look _).bind fun records => ?_)
  exact (sound_setRecords _).bind fun _ => sound_settleChange.bind fun _ => .pure _

@[simp] theorem sound_createAccount (draft : AccountDraft) :
    (createAccount draft).Sound Steady Blames := by
  refine sound_unlessFaulty _ ((Act.Sound.look _).bind fun records => ?_)
  have hmake : (do
      let stamped ← stamp
      let account := draft.record stamped.1 stamped.2
      setRecords (records.addAccount account)
      let _ ← settle
      return account : Act Failure Depot Account).Sound Steady Blames :=
    sound_stamp.bind fun stamp => (sound_setRecords _).bind fun _ =>
      sound_settleChange.bind fun _ => .pure _
  have hrefuse :
      (Act.fail (.unknownVaultId draft.vaultId) : Act Failure Depot Unit).Sound Steady Blames :=
    sound_fail ⟨rfl, rfl⟩
  exact .ite (hrefuse.bind fun _ => hmake) hmake

theorem sound_replace (changed : Option Records) : (replace changed).Sound Steady Blames := by
  cases changed with
  | none => exact .pure _
  | some records =>
    exact (sound_setRecords records).bind fun _ => sound_settleChange.bind fun _ => .pure _

theorem sound_leaveUndated {failure : Failure} (h : failure.IsOrdinary) (changed : Option Records) :
    (leaveUndated failure changed).Sound Steady Blames := by
  cases changed with
  | none => exact .pure _
  | some records => exact (sound_setRecords records).bind fun _ => sound_fail h

theorem sound_remove (stays : Account → Bool) (changed : Option Records) :
    (remove stays changed).Sound Steady Blames :=
  .ite ((sound_letGo stays).bind fun _ => sound_replace changed) (sound_replace changed)

/-- An update of fields, with a time or without one. -/
theorem sound_update {φ : Type} {fields : Except Failure (List (φ × Text))}
    (h : Ordinarily fields) (dated : Records → List (φ × Text) → Timestamp → Option Records)
    (undated : Records → List (φ × Text) → Option Records) :
    (do
      let fields ← Act.settle fields
      let d ← Act.state
      match d.world.now with
      | .ok now => replace (dated d.store.records fields now)
      | .error failure => leaveUndated failure (undated d.store.records fields) :
        Act Failure Depot Bool).Sound Steady Blames := by
  refine (sound_settle h).bind fun fields => (Act.Sound.look _).bind fun d => ?_
  cases hnow : d.world.now with
  | ok now => exact sound_replace _
  | error failure => exact sound_leaveUndated (d.world.ordinarily_now failure hnow) _

@[simp] theorem sound_updateVault (id : Text) (updates : Table Text Text) :
    (updateVault id updates).Sound Steady Blames :=
  sound_unlessFaulty _ (sound_update (Records.ordinarily_fieldsOf _ _)
    (·.updateVault id · ·) (·.changeVault id <| Vault.writeAll ·))

@[simp] theorem sound_updateAccount (id : Text) (updates : Table Text Text) :
    (updateAccount id updates).Sound Steady Blames :=
  sound_unlessFaulty _ (sound_update (Records.ordinarily_fieldsOf _ _)
    (·.updateAccount id · ·) (·.changeAccount id <| Account.writeAll ·))

@[simp] theorem sound_deleteVault (id : Text) : (deleteVault id).Sound Steady Blames :=
  sound_unlessFaulty _ ((Act.Sound.look _).bind fun _ => sound_remove _ _)

@[simp] theorem sound_deleteAccount (id : Text) : (deleteAccount id).Sound Steady Blames :=
  sound_unlessFaulty _ ((Act.Sound.look _).bind fun _ => sound_remove _ _)

end Depot

end VaultConsole
