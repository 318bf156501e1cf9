import VaultConsole.Proofs.Session.Creation

/-!
# Sessions that are alike

Two sessions are alike if they are the same but for the secrets in their stores and the texts that
were copied. Only the command that copies a secret looks at one, so under every other command alike
sessions give the same reply and stay alike. A secret that is copied goes to the clipboard and, where
the answer names it, into the answer; nothing else comes to depend on it.

* `World.Alike`, `Session.Alike`: the relations.
* `Line.AsksForSecret`: the one command that looks at a secret.
* `Session.twins_execute`: **what every other command does on sessions that are alike.**
* `Session.Alike.secretAccountOf`, `Course.twinsAt_copySecret`: copying a secret.
-/

namespace VaultConsole

open List (Forall₂)

variable {S : Text → Text → Prop}

/-! ## Worlds -/

/-- The same call, or copies of texts that are related. -/
inductive Call.Alike (S : Text → Text → Prop) : Call → Call → Prop
  | same (call : Call) : Alike S call call
  | copy {text text' : Text} (h : S text text') : Alike S (.copy text) (.copy text')

/-- Two worlds that differ at most in the texts that were copied. -/
inductive World.Alike (S : Text → Text → Prop) : World → World → Prop
  | intro (w : World) {calls : List Call} (h : Forall₂ (Call.Alike S) w.calls calls) :
      Alike S w { w with calls }

namespace World

instance : Parallel (Alike S) where
  clock := by rintro _ _ ⟨⟩; rfl
  issued := by rintro _ _ ⟨⟩; rfl
  issue := by rintro w _ ⟨h⟩; exact .intro w.issue h

theorem alike_refl (w : World) : w.Alike S w :=
  .intro w (List.forall₂_same.2 fun call _ => .same call)

variable {w w' : World}

theorem Alike.rest (h : w.Alike S w') : w' = { w with calls := w'.calls } := by
  obtain ⟨-⟩ := h
  rfl

theorem Alike.calls (h : w.Alike S w') : Forall₂ (Call.Alike S) w.calls w'.calls := by
  obtain ⟨h⟩ := h
  exact h

theorem Alike.note (h : w.Alike S w') {call call' : Call} (hcall : call.Alike S call') :
    (w.note call).Alike S (w'.note call') := by
  obtain ⟨h⟩ := h
  exact .intro (w.note call) (List.rel_append h (.cons hcall .nil))

/-- Time passes on both sides. -/
theorem Alike.pass (h : w.Alike S w') (seconds : Binary64) :
    (w.pass seconds).Alike S (w'.pass seconds) := by
  obtain ⟨h⟩ := h
  exact .intro (w.pass seconds) h

theorem Alike.display (h : w.Alike S w') (item : Shown) :
    (w.display item).Alike S (w'.display item) := by
  obtain ⟨h⟩ := h
  exact .intro (w.display item) h

theorem Alike.record (h : w.Alike S w') (e : Event) : (w.record e).Alike S (w'.record e) := by
  obtain ⟨h⟩ := h
  rw [← calls_record e] at h
  exact (congrArg _ (record_withCalls e w _)).mpr (.intro (w.record e) h)

theorem twins_emit (severity : Severity) (name : Text) (fields : Table Text Json) :
    (emit severity name fields).Twins (Alike S) Eq (emit severity name fields) := by
  intro w w' hw
  have hnow : w'.localNow = w.localNow := by rw [localNow, localNow, Parallel.clock hw]
  unfold emit
  rw [hnow]
  cases w.localNow with
  | error failure => exact ⟨.error failure, hw⟩
  | ok moment => exact ⟨.ok rfl, hw.record _⟩

end World

/-! ## Sessions -/

/-- Two sessions that differ at most in the secrets of their stores and in the texts that were
copied. -/
inductive Session.Alike (S : Text → Text → Prop) : Session → Session → Prop
  | intro (s : Session) {depot : Depot} (h : s.depot.Alike S (World.Alike S) depot) :
      Alike S s { s with depot }

namespace Session

theorem Alike.rest {s s' : Session} (h : s.Alike S s') : s' = { s with depot := s'.depot } := by
  obtain ⟨-⟩ := h
  rfl

theorem Alike.depot {s s' : Session} (h : s.Alike S s') : s.depot.Alike S (World.Alike S) s'.depot := by
  obtain ⟨h⟩ := h
  exact h

theorem Alike.elapsed {s s' : Session} (h : s.Alike S s') : s'.elapsed = s.elapsed := by
  rw [Session.elapsed, Session.elapsed, World.Parallel.clock h.depot.world]

instance : OverDepots S (World.Alike S) (Alike S) where
  depot := Alike.depot
  withDepot := by
    intro s s' depot depot' h hdepot
    obtain ⟨-⟩ := h
    exact .intro { s with depot } hdepot

variable {α : Type}

/-- What is no part of the depot is the same on both sides. -/
theorem twins_look {f : Session → α} (hf : ∀ s depot, f { s with depot } = f s) :
    (Act.look f : Act Failure Session α).Twins (Alike S) Eq (Act.look f) :=
  .look fun s _ h => by
    obtain ⟨-⟩ := h
    exact (hf s _).symm

/-- What is no part of the depot can be changed on both sides. -/
theorem twins_change {f : Session → Session}
    (hf : ∀ s depot, f { s with depot } = { f s with depot }) (hdepot : ∀ s, (f s).depot = s.depot) :
    (Act.change f : Act Failure Session Unit).Twins (Alike S) Eq (Act.change f) := by
  refine .change fun s _ h => ?_
  obtain ⟨h⟩ := h
  rw [← hdepot] at h
  exact (congrArg _ (hf s _)).mpr (.intro (f s) h)

theorem twins_changing {f : Session → Session} (value : α)
    (hf : ∀ s depot, f { s with depot } = { f s with depot }) (hdepot : ∀ s, (f s).depot = s.depot) :
    (do Act.change f; return value : Act Failure Session α).Twins (Alike S) Eq
      (do Act.change f; return value) :=
  (twins_change hf hdepot).bind_eq fun _ => .pure rfl

theorem twins_inWorld {f f' : World → World} (h : ∀ w w', w.Alike S w' → (f w).Alike S (f' w')) :
    (inWorld f).Twins (Alike S) Eq (inWorld f') :=
  .change fun s s' hs => by
    obtain ⟨hs⟩ := hs
    exact .intro { s with depot := { s.depot with world := f s.depot.world } }
      ⟨h _ _ hs.world, hs.store⟩

theorem twins_note (call : Call) : (inWorld (·.note call)).Twins (Alike S) Eq (inWorld (·.note call)) :=
  twins_inWorld fun _ _ hw => hw.note (.same call)

theorem twins_emit (severity : Severity) (name : Text) (fields : Table Text Json) :
    (emit severity name fields).Twins (Alike S) Eq (emit severity name fields) := by
  refine twins_inDepot ((World.twins_emit (S := S) severity name fields).within ?_ ?_)
  · exact fun _ _ hd => hd.world
  · exact fun _ _ _ _ hd hw => ⟨hw, hd.store⟩

theorem twins_requireNavigator : requireNavigator.Twins (Alike S) Eq requireNavigator :=
  (twins_look fun _ _ => rfl).bind_eq fun _ => .ite (.fail _) (.pure rfl)

theorem twins_requireExit : requireExit.Twins (Alike S) Eq requireExit :=
  (twins_look fun _ _ => rfl).bind_eq fun _ => .ite (.fail _) (.pure rfl)

theorem twins_defer (effect : Effect) : (defer effect).Twins (Alike S) Eq (defer effect) :=
  twins_change (fun _ _ => rfl) fun _ => rfl

theorem twins_dropDeferred :
    (Act.change dropDeferred : Act Failure Session Unit).Twins (Alike S) Eq
      (Act.change dropDeferred) :=
  twins_change (fun _ _ => rfl) fun _ => rfl

theorem twins_takeDeferred : takeDeferred.Twins (Alike S) Eq takeDeferred := by
  rintro s _ ⟨h⟩
  exact ⟨.ok rfl, .intro s.dropDeferred h⟩

theorem twins_takeScheduled : takeScheduled.Twins (Alike S) Eq takeScheduled := by
  rintro s _ ⟨h⟩
  exact ⟨.ok rfl, .intro { s with scheduled := [] } h⟩

theorem twins_takeHandling : takeHandling.Twins (Alike S) Eq takeHandling := by
  rintro s _ ⟨h⟩
  exact ⟨.ok rfl, .intro { s with scheduler := s.scheduler.next.2 } h⟩

theorem twins_enqueue (effect : Effect) : (enqueue effect).Twins (Alike S) Eq (enqueue effect) :=
  (twins_look fun _ _ => rfl).bind_eq fun _ => (twins_note _).bind_eq fun _ =>
    twins_change (fun _ _ => rfl) fun _ => rfl

/-! ## Parts outside -/

theorem twins_showOnScreen (leavesAtOverview : Bool) (page : Page) :
    (showOnScreen leavesAtOverview page).Twins (Alike S) Eq (showOnScreen leavesAtOverview page) := by
  refine (twins_pageSummary page).bind_eq fun summary => ?_
  refine (twins_inWorld fun _ _ hw => hw.display _).bind_eq fun _ => ?_
  exact .ite (twins_change (fun _ _ => rfl) fun _ => rfl) (.pure rfl)

theorem twins_showPage (page : Page) : (showPage page).Twins (Alike S) Eq (showPage page) := by
  refine (twins_look fun _ _ => rfl).bind_eq fun navigator => ?_
  match navigator with
  | none => exact .pure rfl
  | some (.outside behaviour) =>
    exact (twins_note _).bind_eq fun _ => twins_changing _ (fun _ _ => rfl) fun _ => rfl
  | some (.screen leavesAtOverview) => exact (twins_showOnScreen _ page).bind_eq fun _ => .pure rfl

theorem twins_leave : leave.Twins (Alike S) Eq leave := by
  refine (twins_look fun _ _ => rfl).bind_eq fun exit => ?_
  match exit with
  | none => exact .pure rfl
  | some (.outside behaviour) =>
    exact (twins_note _).bind_eq fun _ => twins_changing _ (fun _ _ => rfl) fun _ => rfl
  | some .loop => exact twins_changing _ (fun _ _ => rfl) fun _ => rfl

theorem twins_touch (effect : Effect) : (touch effect).Twins (Alike S) Eq (touch effect) := by
  cases effect with
  | navigate page => exact twins_showPage page
  | exit => exact twins_leave

/-- The clipboard gets related texts and reacts to both in the same way. -/
theorem twins_copy {text text' : Text} (h : S text text') :
    (copy text).Twins (Alike S) Eq (copy text') := by
  refine (twins_look fun _ _ => rfl).bind_eq fun clipboard => ?_
  match clipboard with
  | none => exact .pure rfl
  | some behaviour =>
    exact (twins_inWorld fun _ _ hw => hw.note (.copy h)).bind_eq fun _ =>
      twins_changing _ (fun _ _ => rfl) fun _ => rfl

/-! ## Copying a secret -/

/-- The account whose secret a line asks for is found on both sides, and is held at the same place. -/
theorem Alike.secretAccountOf {s s' : Session} (h : s.Alike S s') {l l' : Line} (hl : l.Alike S l') :
    ∃ result result', secretAccountOf l s = (result, s) ∧ secretAccountOf l' s' = (result', s') ∧
      Act.Outcomes (fun a a' => Account.Alike S a a' ∧ (hold a s).2.Alike S (hold a' s').2)
        result result' := by
  have hclipboard : s'.clipboard = s.clipboard := by rw [h.rest]
  have hd := h.depot
  unfold Session.secretAccountOf secretOf requireClipboard required Line.requireFlag
  rw [hl.flag?_eq "name" (by decide)]
  cases l.flag? "name" with
  | none => exact ⟨_, _, rfl, rfl, .error _⟩
  | some name =>
    simp only [Act.run_bind, Act.run_settle, Act.run_look, Act.after_ok, hclipboard]
    cases s.clipboard with
    | none => exact ⟨_, _, rfl, rfl, .error _⟩
    | some clipboard =>
      refine ⟨_, _, findAccount_run hd.store.plain name, findAccount_run hd.store.plain' name, ?_⟩
      have hfound := Records.rel_find? hd.store.records.accounts fun _ _ ha => sameName_alike ha name
      generalize hfirst : s.depot.store.records.accounts.find? (sameName ·.name name) = found
        at hfound ⊢
      generalize hfirst' : s'.depot.store.records.accounts.find? (sameName ·.name name) = found'
        at hfound ⊢
      cases hfound with
      | none => exact .error _
      | some ha =>
        refine .ok ⟨ha, OverDepots.withDepot h ⟨hd.world, ?_⟩⟩
        exact hd.store.hold (fun _ _ ha => sameName_alike ha name) hfirst hfirst'

theorem twins_release {a a' : Account} (h : Account.Alike S a a') :
    (release a).Twins (Alike S) (Account.Alike S) (release a') := by
  intro s s' hs
  have hd := hs.depot
  obtain ⟨hheld, hstore⟩ := hd.store.release
  exact ⟨.ok (Records.rel_getD hheld h), OverDepots.withDepot hs ⟨hd.world, hstore⟩⟩

/-! ## Commands -/

theorem twins_openPage (name : Text) : (openPage name).Twins (Alike S) Eq (openPage name) := by
  refine twins_requireNavigator.bind_eq fun _ => ?_
  split
  · exact .fail _
  · exact (twins_defer _).bind_eq fun _ => .pure rfl

theorem yields_openPage (name : Text) : (openPage name).Yields (·.payload = none) := by
  refine .bind fun _ => ?_
  split
  · exact .fail _
  · exact .bind fun _ => .pure rfl

theorem twins_requestExit : requestExit.Twins (Alike S) Eq requestExit :=
  twins_requireExit.bind_eq fun _ => (twins_defer _).bind_eq fun _ => .pure rfl

theorem twins_askToDelete (d : Deletion) : (askToDelete d).Twins (Alike S) Eq (askToDelete d) := by
  refine (twins_look fun _ _ => rfl).bind_eq fun gate => ?_
  split
  · exact .fail _
  · exact (Act.Twins.settle (.refl _)).bind_eq fun _ =>
      twins_changing _ (fun _ _ => rfl) fun _ => rfl

variable {l l' : Line}

theorem twins_executeHelp (hl : l.Alike S l') :
    (executeHelp l).Twins (Alike S) Eq (executeHelp l') := by
  unfold executeHelp
  rw [hl.subVerb]
  exact .ite (.pure rfl) ((Act.Twins.settle (.refl _)).bind_eq fun _ => .pure rfl)

section
variable [Std.Refl S]

theorem twins_executeVault (hl : l.Alike S l') (action : VaultAction) :
    (executeVault l action).Twins (Alike S) Eq (executeVault l' action) := by
  cases action with
  | list => exact twins_listVaults
  | create => exact twins_creationOf hl .vault
  | update =>
    refine (twins_required hl _ (by decide)).bind_eq fun name => ?_
    rw [hl.flag?_eq "newname" (by decide), hl.flag?_eq "description" (by decide)]
    exact twins_updateVault _ _ _
  | delete => exact (twins_deletionOf hl .vault).bind_eq fun _ => twins_askToDelete _
  | detail => exact (twins_required hl _ (by decide)).bind_eq fun name => twins_showVault name

end

end Session

/-- The same reply on both sides, and no secret that is to be copied. -/
inductive Reply.Same : Reply → Reply → Prop
  | entry (entry : Entry) : Same (.entry entry) (.entry entry)
  | cleared : Same .cleared .cleared

/-- The command of the line is to copy the secret of an account. -/
def Line.AsksForSecret (l : Line) : Prop := l.verb = "account" ∧ l.subVerb = "password"

instance (l : Line) : Decidable l.AsksForSecret := inferInstanceAs (Decidable (_ ∧ _))

theorem Line.Alike.asksForSecret {l l' : Line} (hl : l.Alike S l') (h : l.AsksForSecret) :
    l'.AsksForSecret := ⟨hl.verb.trans h.1, hl.subVerb.trans h.2⟩

theorem AccountAction.select_eq_password {among : List AccountAction} {token : Text}
    (h : select among token = .ok password) : token = "password" := by
  have hname := name_of_selectAction h
  unfold unaliasAction at hname
  split at hname
  · exact absurd hname (by decide)
  · split at hname
    · exact absurd hname (by decide)
    · exact hname.symm

namespace Session

theorem execute_of_asksForSecret {l : Line} (h : l.AsksForSecret) :
    execute l = (do return .secret (← secretAccountOf l) true) := by
  rw [execute_of_verb (Verb.ofToken?_eq_account.2 h.1), executeVerb, h.2]
  rfl

theorem twins_answering {act act' : Act Failure Session Entry} (h : act.Twins (Alike S) Eq act') :
    (answering act).Twins (Alike S) Reply.Same (answering act') :=
  h.bind_eq fun entry => .pure (.entry entry)

variable [Std.Refl S] {l l' : Line}

theorem twins_executeAccount (hl : l.Alike S l') {action : AccountAction} (h : action ≠ .password) :
    (executeAccount l action).Twins (Alike S) Reply.Same (executeAccount l' action) := by
  cases action with
  | list =>
    unfold executeAccount
    rw [hl.flag?_eq "vault" (by decide)]
    exact twins_answering (twins_listAccounts _)
  | create => exact twins_answering (twins_creationOf hl .account)
  | update =>
    refine twins_answering ((twins_required hl _ (by decide)).bind_eq fun name => ?_)
    rw [hl.flag?_eq "newname" (by decide), hl.flag?_eq "username" (by decide),
      hl.flag?_eq "url" (by decide), hl.flag?_eq "notes" (by decide)]
    exact twins_updateAccount name _ _ (hl.rel_flag? "password") _ _
  | delete =>
    exact twins_answering ((twins_deletionOf hl .account).bind_eq fun _ => twins_askToDelete _)
  | detail =>
    refine twins_answering ((twins_required hl _ (by decide)).bind_eq fun name => ?_)
    rw [hl.hasSwitch_eq]
    exact twins_showAccount name _
  | password => exact absurd rfl h

/-- **A command that asks for no secret** gives the same reply on sessions that are alike, and leaves
them alike. -/
theorem twins_execute (hl : l.Alike S l') (h : ¬ l.AsksForSecret) :
    (execute l).Twins (Alike S) Reply.Same (execute l') := by
  cases hverb : Verb.ofToken? l.verb with
  | none =>
    unfold execute verbOf
    rw [hl.verb, hverb]
    exact Act.Twins.fail (Failure.unknownVerb l.verb)
  | some verb =>
    rw [execute_of_verb hverb, execute_of_verb (hl.verb ▸ hverb)]
    unfold executeVerb
    rw [hl.subVerb]
    cases verb with
    | help => exact twins_answering (twins_executeHelp hl)
    | clear => exact .pure .cleared
    | exit => exact twins_answering twins_requestExit
    | openPage => exact twins_answering (twins_openPage _)
    | vault =>
      exact (Act.Twins.settle (.refl _)).bind_eq fun action =>
        twins_answering (twins_executeVault hl action)
    | search =>
      rw [hl.sought (Verb.ofToken?_eq_search.1 hverb)]
      exact twins_answering (twins_search _)
    | stats => exact twins_answering twins_stats
    | account =>
      have hselect : ∀ action, AccountAction.select AccountAction.all l.subVerb = .ok action →
          action ≠ .password := by
        rintro _ hselect rfl
        exact h ⟨Verb.ofToken?_eq_account.1 hverb, AccountAction.select_eq_password hselect⟩
      simp only
      generalize AccountAction.select AccountAction.all l.subVerb = selected at hselect ⊢
      cases selected with
      | error failure => exact .fail failure
      | ok action => exact twins_executeAccount hl (hselect action rfl)

end Session

/-- **Copying a secret.** Once the accounts are held, the clipboard gets related texts; what comes of
it is the same on both sides, but for the secrets of the accounts. -/
theorem Course.twinsAt_copySecret {σ σ' : Type} {R : σ → σ' → Prop}
    {inSession : {β : Type} → Act Failure Session β → Act Failure σ β}
    {inSession' : {β : Type} → Act Failure Session β → Act Failure σ' β}
    (hlift : ∀ {β β' : Type} {V : β → β' → Prop} {act : Act Failure Session β}
      {act' : Act Failure Session β'}, act.Twins (Session.Alike S) V act' →
      (inSession act).Twins R V (inSession' act'))
    {a a' : Account} (ha : Account.Alike S a a') (s : σ) (s' : σ')
    (hheld : Act.Outcomes Eq (inSession (Session.hold a) s).1 (inSession' (Session.hold a') s').1 ∧
      R (inSession (Session.hold a) s).2 (inSession' (Session.hold a') s').2) :
    TwinsAt R (Account.Alike S) (copySecret inSession a) s (copySecret inSession' a') s' := by
  have hsecret : S a.password a'.password := by
    obtain ⟨h⟩ := ha
    exact h
  have hcopied : Twins R Eq
      (do undergo (← Course.ofAct (inSession (Session.copy a.password))))
      (do undergo (← Course.ofAct (inSession' (Session.copy a'.password)))) :=
    (Twins.ofAct (hlift (Session.twins_copy hsecret))).bind_eq Twins.undergo
  refine TwinsAt.proceed (.own (.done hheld.1 hheld.2)) fun result result' hresult => ?_
  rw [← hresult.eq]
  cases result with
  | error failure => exact .done (.error failure)
  | ok _ =>
    refine hcopied.attempt.bind fun copied copied' houtcome => ?_
    rw [← houtcome.eq]
    refine (Twins.ofAct (hlift (Session.twins_release ha))).bind fun b b' hb => ?_
    exact (Twins.done (.refl copied)).bind_eq fun _ => .pure hb

end VaultConsole
