import VaultConsole.Proofs.Session.Removal
import VaultConsole.Proofs.Session.Request

/-!
# How commands fail

A command that fails has made no effect wait, and its failure is an ordinary one unless it was put in
the place of an operation of the store. Only two commands make an effect wait, and both do so last.

* `Session.Steady`, `Session.Blames`: what commands leave alone, and how they can fail.
* `Session.sound_createVault` to `Session.sound_stats`: the commands that make no effect wait.
* `Session.handing?`: the effect that a command makes wait.
* `Session.execute_cases`: **what a command leaves behind.**
-/

namespace VaultConsole

/-- In a store in memory nothing is made to fail. -/
theorem Store.IsPlain.isOrdinary {s : Store} (h : s.IsPlain) : s.IsOrdinary := by
  rintro failure ⟨operation, hfault⟩
  rw [h.2] at hfault
  cases hfault

namespace Session

open Failure (Ordinarily)

/-- All but the gate and the store is left as it is; the store goes on with the same clock, and with
what is out of order. -/
structure Steady (s s' : Session) : Prop where
  depot : s.depot.Steady s'.depot
  rest : s' = { s with depot := s'.depot, gate := s'.gate }

instance : Std.Refl Steady := ⟨fun s => ⟨Std.Refl.refl s.depot, rfl⟩⟩

instance : IsTrans Session Steady where
  trans s s' s'' h h' := by
    refine ⟨trans_of Depot.Steady h.depot h'.depot, ?_⟩
    rw [h'.rest, h.rest]

/-- A failure is an ordinary one, or was put in the place of an operation. -/
def Blames (s : Session) (f : Failure) : Prop := f.IsOrdinary ∨ s.depot.store.Raises f

instance : Act.Backward Steady Blames := ⟨fun h hblames => hblames.imp_right h.depot.raises.1⟩

variable {α : Type}

/-- What such an act comes to where nothing else was put in place of an operation. -/
theorem ordinarily_of_sound {act : Act Failure Session α} {s : Session}
    (h : act.SoundAt Steady Blames s) (hs : s.depot.store.IsOrdinary) : Ordinarily (act s).1 :=
  fun failure hfailure => (h.fails failure hfailure).elim id (hs failure)

theorem sound_settle {result : Except Failure α} (h : Ordinarily result) :
    (Act.settle result).Sound Steady Blames := .settle fun _ f hf => .inl (h f hf)

theorem sound_fail {f : Failure} (h : f.IsOrdinary) :
    (Act.fail f : Act Failure Session α).Sound Steady Blames := .fail fun _ => .inl h

theorem sound_inDepot {act : Act Failure Depot α} (h : act.Sound Depot.Steady Depot.Blames) :
    (inDepot act).Sound Steady Blames :=
  h.within (fun _ _ hd => ⟨hd, rfl⟩) fun _ _ hf => hf

theorem sound_emit (severity : Severity) (name : Text) (fields : Table Text Json) :
    (emit severity name fields).Sound Steady Blames := sound_inDepot (Depot.sound_emit _ _ _)

/-! ## Looking for records -/

theorem sound_vaultsWith (field : Text) : (vaultsWith field).Sound Steady Blames :=
  (sound_inDepot Depot.sound_listVaults).bind fun vaults =>
    sound_settle (vaults.ordinarily_itemsWith field)

theorem sound_accountsWith (field : Text) : (accountsWith field).Sound Steady Blames :=
  (sound_inDepot Depot.sound_listAccounts).bind fun accounts =>
    sound_settle (accounts.ordinarily_itemsWith field)

theorem sound_findVault (name : Text) : (findVault name).Sound Steady Blames := by
  refine (sound_vaultsWith _).bind fun vaults => ?_
  split
  · exact .pure _
  · exact sound_fail ⟨rfl, rfl⟩

theorem sound_findAccount (name : Text) : (findAccount name).Sound Steady Blames := by
  refine (sound_accountsWith _).bind fun accounts => ?_
  split
  · exact .pure _
  · exact sound_fail ⟨rfl, rfl⟩

theorem sound_accountsIn (vaultId : Text) : (accountsIn vaultId).Sound Steady Blames :=
  (sound_accountsWith _).bind fun _ => .pure _

theorem sound_requireClipboard : requireClipboard.Sound Steady Blames :=
  (Act.Sound.look _).bind fun _ => .ite (sound_fail ⟨rfl, rfl⟩) (.pure _)

theorem sound_pageSummary (page : Page) : (pageSummary page).Sound Steady Blames := by
  refine (sound_inDepot Depot.sound_listVaults).bind fun vaults =>
    (sound_inDepot Depot.sound_listAccounts).bind fun accounts => ?_
  cases page with
  | vaults =>
    exact (sound_settle (vaults.ordinarily_itemsWith _)).bind fun _ =>
      (sound_settle vaults.ordinarily_count).bind fun _ => .pure _
  | accounts =>
    exact (sound_settle (accounts.ordinarily_itemsWith _)).bind fun _ =>
      (sound_settle accounts.ordinarily_count).bind fun _ => .pure _
  | profile => exact .pure _
  | overview =>
    exact (sound_settle vaults.ordinarily_count).bind fun _ =>
      (sound_settle accounts.ordinarily_count).bind fun _ => .pure _

/-! ## Commands that make no effect wait -/

theorem sound_listVaults : listVaults.Sound Steady Blames := by
  refine (sound_inDepot Depot.sound_listVaults).bind fun vaults => .ite (.pure _) ?_
  exact (sound_settle vaults.ordinarily_count).bind fun _ =>
    (sound_settle (vaults.ordinarily_itemsWith _)).bind fun _ => .pure _

theorem sound_createVault (name description : Text) :
    (createVault name description).Sound Steady Blames :=
  (sound_inDepot (Depot.sound_createVault _)).bind fun _ => .pure _

/-- An update succeeds where something was updated. -/
theorem sound_updated {act : Act Failure Session (Answer Bool)} (h : act.Sound Steady Blames)
    (kind name : Text) (entry : Entry) :
    (do
      if !(← act).isYes then Act.fail (.notUpdated kind name)
      return entry : Act Failure Session Entry).Sound Steady Blames := by
  refine h.bind fun answer => .ite ?_ (.pure _)
  exact (sound_fail (f := .notUpdated kind name) ⟨rfl, rfl⟩).bind fun _ => .pure _

theorem sound_updateVault (name : Text) (newName description : Option Text) :
    (updateVault name newName description).Sound Steady Blames :=
  (sound_findVault name).bind fun _ =>
    .ite (sound_updated (sound_inDepot (Depot.sound_updateVault _ _)) _ _ _) (.pure _)

theorem sound_showVault (name : Text) : (showVault name).Sound Steady Blames :=
  (sound_findVault name).bind fun _ => (sound_accountsIn _).bind fun _ => .pure _

theorem sound_planVaultDeletion (name : Text) : (planVaultDeletion name).Sound Steady Blames :=
  (sound_findVault name).bind fun _ => (sound_accountsIn _).bind fun _ => .pure _

theorem sound_listAccounts (vaultName : Option Text) :
    (listAccounts vaultName).Sound Steady Blames := by
  unfold listAccounts
  simp only
  split
  · exact (sound_findVault _).bind fun _ => (sound_accountsIn _).bind fun _ =>
      .ite (.pure _) (.pure _)
  · exact (sound_accountsWith _).bind fun _ => .ite (.pure _) (.pure _)

theorem sound_createAccount (vaultName name username password url notes : Text) :
    (createAccount vaultName name username password url notes).Sound Steady Blames :=
  (sound_findVault vaultName).bind fun _ =>
    (sound_inDepot (Depot.sound_createAccount _)).bind fun _ => .pure _

theorem sound_updateAccount (name : Text) (newName username password url notes : Option Text) :
    (updateAccount name newName username password url notes).Sound Steady Blames :=
  (sound_findAccount name).bind fun _ =>
    .ite (sound_updated (sound_inDepot (Depot.sound_updateAccount _ _)) _ _ _) (.pure _)

theorem sound_showAccount (name : Text) (reveal : Bool) :
    (showAccount name reveal).Sound Steady Blames :=
  (sound_findAccount name).bind fun _ => .pure _

theorem sound_secretOf (name : Text) : (secretOf name).Sound Steady Blames :=
  sound_requireClipboard.bind fun _ => sound_findAccount name

theorem sound_planAccountDeletion (name : Text) : (planAccountDeletion name).Sound Steady Blames :=
  (sound_findAccount name).bind fun _ => .pure _

theorem sound_askToDelete (d : Deletion) : (askToDelete d).Sound Steady Blames := by
  refine (Act.Sound.look _).bind fun gate => ?_
  cases gate with
  | none => exact sound_fail ⟨rfl, rfl⟩
  | some gate =>
    have harm : Ordinarily (gate.arm d) := by
      unfold Gate.arm
      split
      · exact .error ⟨rfl, rfl⟩
      · exact .ok _
    refine (sound_settle harm).bind fun gate => Act.Sound.bind ?_ fun _ => .pure _
    exact .change fun s => ⟨Std.Refl.refl s.depot, rfl⟩

theorem sound_executeDeletion (d : Deletion) : (executeDeletion d).Sound Steady Blames := by
  have hdelete : (inDepot (deleteNow d)).Sound Steady Blames := by
    unfold deleteNow
    cases d.kind with
    | vault => exact sound_inDepot (Depot.sound_deleteVault _)
    | account => exact sound_inDepot (Depot.sound_deleteAccount _)
  refine Act.Sound.bind hdelete fun answer => .ite ?_ (.pure _)
  exact (sound_fail (f := .notDeleted d.kind.title d.targetName) ⟨rfl, rfl⟩).bind fun _ => .pure _

theorem sound_search (query : Text) : (search query).Sound Steady Blames := by
  have hfound : (do
      let vaults := (← vaultsWith "name").filter (vaultMatches query.lower)
      let accounts := (← accountsWith "name").filter (accountMatches query.lower)
      if vaults.isEmpty && accounts.isEmpty then
        return .info ("No results found for " ++ Failure.named query ++ ".")
      else
        return .found ("Search results for " ++ Failure.named query ++ ":")
          (.searchResults (vaults.map (·.id)) (accounts.map (·.id))) :
      Act Failure Session Entry).Sound Steady Blames :=
    (sound_vaultsWith _).bind fun _ => (sound_accountsWith _).bind fun _ =>
      .ite (.pure _) (.pure _)
  exact .ite ((sound_fail (f := .usage searchForm) ⟨rfl, rfl⟩).bind fun _ => hfound) hfound

theorem sound_stats : stats.Sound Steady Blames := by
  refine (sound_inDepot Depot.sound_listVaults).bind fun vaults =>
    (sound_inDepot Depot.sound_listAccounts).bind fun accounts => ?_
  refine (sound_settle (accounts.ordinarily_itemsWith _)).bind fun _ => ?_
  exact (sound_settle vaults.ordinarily_count).bind fun _ =>
    (sound_settle accounts.ordinarily_count).bind fun _ => .pure _

/-! ## Lines -/

theorem sound_required (manual : Manual) (name : Text) (l : Line) :
    (required manual name l).Sound Steady Blames := by
  refine sound_settle ?_
  unfold Line.requireFlag
  split
  · exact .ok _
  · exact .error ⟨rfl, rfl⟩

theorem sound_deletionOf (l : Line) (kind : Deletable) :
    (deletionOf l kind).Sound Steady Blames := by
  cases kind with
  | vault => exact (sound_required _ _ l).bind fun _ => sound_planVaultDeletion _
  | account => exact (sound_required _ _ l).bind fun _ => sound_planAccountDeletion _

theorem sound_answering {act : Act Failure Session Entry} (h : act.Sound Steady Blames) :
    (answering act).Sound Steady Blames := h.bind fun _ => .pure _

theorem sound_executeVault (l : Line) (action : VaultAction) :
    (executeVault l action).Sound Steady Blames := by
  cases action with
  | list => exact sound_listVaults
  | create => exact (sound_required _ _ l).bind fun _ => sound_createVault _ _
  | update => exact (sound_required _ _ l).bind fun _ => sound_updateVault _ _ _
  | delete => exact (sound_deletionOf l .vault).bind fun _ => sound_askToDelete _
  | detail => exact (sound_required _ _ l).bind fun _ => sound_showVault _

theorem sound_executeAccountCreate (l : Line) : (executeAccountCreate l).Sound Steady Blames := by
  refine (sound_required _ _ l).bind fun vault => (sound_required _ _ l).bind fun name => ?_
  refine (sound_required _ _ l).bind fun username => (sound_required _ _ l).bind fun password => ?_
  exact sound_createAccount _ _ _ _ _ _

theorem sound_executeAccount (l : Line) (action : AccountAction) :
    (executeAccount l action).Sound Steady Blames := by
  cases action with
  | list => exact sound_answering (sound_listAccounts _)
  | create => exact sound_answering (sound_executeAccountCreate l)
  | update =>
    exact sound_answering ((sound_required _ _ l).bind fun _ => sound_updateAccount _ _ _ _ _ _)
  | delete =>
    exact sound_answering ((sound_deletionOf l .account).bind fun _ => sound_askToDelete _)
  | detail => exact sound_answering ((sound_required _ _ l).bind fun _ => sound_showAccount _ _)
  | password =>
    exact Act.Sound.bind ((sound_required _ _ l).bind fun _ => sound_secretOf _) fun _ => .pure _

theorem sound_executeHelp (l : Line) : (executeHelp l).Sound Steady Blames := by
  refine .ite (.pure _) ((sound_settle ?_).bind fun _ => .pure _)
  unfold Help.topic
  split
  · exact .error ⟨rfl, rfl⟩
  · exact .ok _

theorem ordinarily_select {β : Type} (domain : Text) (actions : List β) (name : β → Text)
    (token : Text) : Ordinarily (selectAction domain actions name token) := by
  unfold selectAction
  split
  · exact .ok _
  · exact .error ⟨rfl, rfl⟩

/-- A session with an effect more that waits. -/
def deferring (effect : Effect) (s : Session) : Session :=
  { s with deferred := s.deferred ++ [effect] }

/-- A command for which an effect comes to wait. -/
def Defers (l : Line) (s : Session) (effect : Effect) : Prop :=
  ∃ entry, execute l s = (.ok (.entry entry), s.deferring effect)

/-- The entry and the effect of a line that opens a page or ends the session, where there is a part for
that. -/
def handing? (l : Line) (s : Session) : Option (Entry × Effect) :=
  match Verb.ofToken? l.verb with
  | some .openPage =>
    if s.navigator.isSome then
      (Page.ofName? l.subVerb).map fun page =>
        (.success ("Opening " ++ page.name ++ " page..."), .navigate page)
    else none
  | some .exit => if s.exit.isSome then some (.info "Exiting CLI...", .exit) else none
  | _ => none

/-- A command that opens a page or ends the session makes that wait. -/
theorem execute_of_handing {l : Line} {s : Session} {entry : Entry} {effect : Effect}
    (h : handing? l s = some (entry, effect)) :
    execute l s = (.ok (.entry entry), s.deferring effect) := by
  unfold handing? at h
  split at h
  · next hv =>
    split at h
    · next hnavigator =>
      obtain ⟨page, hpage, heffect⟩ := Option.map_eq_some_iff.1 h
      cases heffect
      have hrun : openPage l.subVerb s =
          (.ok (.success ("Opening " ++ page.name ++ " page...")), s.deferring (.navigate page)) := by
        unfold openPage requireNavigator
        rw [Act.run_bind, Act.run_bind, Act.run_look, Act.after_ok]
        obtain ⟨navigator, hn⟩ := Option.isSome_iff_exists.1 hnavigator
        simp only [hn, hpage]
        rfl
      rw [execute_of_verb hv, executeVerb, answering, Act.run_bind, hrun]
      rfl
    · cases h
  · next hv =>
    split at h
    · next hexit =>
      cases h
      have hrun : requestExit s = (.ok (.info "Exiting CLI..."), s.deferring .exit) := by
        unfold requestExit requireExit
        rw [Act.run_bind, Act.run_bind, Act.run_look, Act.after_ok]
        obtain ⟨exit, he⟩ := Option.isSome_iff_exists.1 hexit
        simp only [he]
        rfl
      rw [execute_of_verb hv, executeVerb, answering, Act.run_bind, hrun]
      rfl
    · cases h
  · cases h

theorem openPage_of_none {name : Text} {s : Session}
    (h : s.navigator = none ∨ Page.ofName? name = none) :
    ∃ failure : Failure, failure.IsOrdinary ∧ openPage name s = (.error failure, s) := by
  unfold openPage requireNavigator
  rw [Act.run_bind, Act.run_bind, Act.run_look, Act.after_ok]
  cases hn : s.navigator with
  | none => exact ⟨.noNavigator, ⟨rfl, rfl⟩, rfl⟩
  | some navigator =>
    rcases h with h | h
    · rw [hn] at h
      cases h
    · rw [h]
      exact ⟨.unknownPage name pageNames, ⟨rfl, rfl⟩, rfl⟩

theorem requestExit_of_none {s : Session} (h : s.exit = none) :
    requestExit s = (.error .noExit, s) := by
  unfold requestExit requireExit
  rw [Act.run_bind, Act.run_bind, Act.run_look, Act.after_ok, h]
  rfl

/-- Without a part for it, or without such a page, a command that opens a page or ends the session
fails, and leaves all as it is. -/
theorem execute_of_not_handing {l : Line} {s : Session}
    (hv : Verb.ofToken? l.verb = some .openPage ∨ Verb.ofToken? l.verb = some .exit)
    (h : handing? l s = none) :
    ∃ failure : Failure, failure.IsOrdinary ∧ execute l s = (.error failure, s) := by
  rcases hv with hv | hv <;> rw [handing?, hv] at h <;> rw [execute_of_verb hv]
  · have hpage : s.navigator = none ∨ Page.ofName? l.subVerb = none := by
      by_cases hn : s.navigator.isSome = true
      · exact .inr (by simpa [hn] using h)
      · exact .inl (by simpa using hn)
    obtain ⟨failure, hordinary, hrun⟩ := openPage_of_none hpage
    refine ⟨failure, hordinary, ?_⟩
    rw [executeVerb, answering, Act.run_bind, hrun]
    rfl
  · have hexit : s.exit = none := by simpa using h
    refine ⟨.noExit, ⟨rfl, rfl⟩, ?_⟩
    rw [executeVerb, answering, Act.run_bind, requestExit_of_none hexit]
    rfl

/-- Every other command leaves nothing behind but what is in the store and behind the gate. -/
theorem sound_execute {l : Line} {s : Session} (h : handing? l s = none) :
    (execute l).SoundAt Steady Blames s := by
  have hfails (hv : Verb.ofToken? l.verb = some .openPage ∨ Verb.ofToken? l.verb = some .exit) :
      (execute l).SoundAt Steady Blames s := by
    obtain ⟨failure, hordinary, hrun⟩ := execute_of_not_handing hv h
    exact .of_error hrun (Std.Refl.refl s) (.inl hordinary)
  cases hv : Verb.ofToken? l.verb with
  | none =>
    have hrun : execute l s = (.error (.unknownVerb l.verb), s) := by
      unfold execute verbOf
      rw [hv]
      rfl
    exact .of_error hrun (Std.Refl.refl s) (.inl ⟨rfl, rfl⟩)
  | some verb =>
    cases verb with
    | exit => exact hfails (.inr hv)
    | openPage => exact hfails (.inl hv)
    | help =>
      rw [execute_of_verb hv]
      exact sound_answering (sound_executeHelp l) s
    | clear =>
      rw [execute_of_verb hv]
      exact Act.Sound.pure _ s
    | vault =>
      rw [execute_of_verb hv]
      exact (sound_settle (ordinarily_select _ _ _ _)).bind
        (fun action => sound_answering (sound_executeVault l action)) s
    | account =>
      rw [execute_of_verb hv]
      exact (sound_settle (ordinarily_select _ _ _ _)).bind
        (fun action => sound_executeAccount l action) s
    | search =>
      rw [execute_of_verb hv]
      exact sound_answering (sound_search _) s
    | stats =>
      rw [execute_of_verb hv]
      exact sound_answering sound_stats s

/-- **What a command leaves behind**: an effect that waits, with an entry, or nothing but what is in
the store and behind the gate. -/
theorem execute_cases (l : Line) (s : Session) :
    (∃ effect, Defers l s effect) ∨ (execute l).SoundAt Steady Blames s := by
  cases h : handing? l s with
  | none => exact .inr (sound_execute h)
  | some handing => exact .inl ⟨handing.2, handing.1, execute_of_handing h⟩

end Session

end VaultConsole
