import VaultConsole.Proofs.Interpreter.Deletion

/-!
# While a deletion waits

The accounts that go with a vault are counted when its deletion is asked for, and the number stands in
the question. When the deletion is confirmed the store looks for them anew. In between, however many
lines come, each of them changes nothing but the result log, so the number in the question is right.

* `Turn.finish_of_held`: the state after a line that came while a deletion waited.
* `Turn.leads_prompt`: the question that a line is answered with.
* `Turn.Truthful`: what a question says is so when it is confirmed.
* `HostStep.truthful_trace`: **every run of an interpreter over a store in memory is truthful.**
-/

namespace VaultConsole

open Interpreter

namespace Turn

variable {t : Turn} {d : Deletion}

/-- A blank line changes nothing. -/
theorem finish_of_blank (hline : t.line.strip = []) : t.finish = t.start := by
  rw [finish, submitNested_eq, course_of_blank hline]
  rfl

section
variable (h : t.start.Ready) (hslot : t.start.slot = some d)
include h hslot

/-- The state after a line that came while a deletion waited: it was announced, the gate was told, the
answer was logged, and what it decides followed. Where the clock shows no time nothing can be logged,
and the line ends there. -/
theorem finish_of_held (hline : t.line.strip ≠ []) :
    (t.start.ShowsTime ∧ ∃ world, t.finish =
        (follow t.line.strip d (Decision.ofLine t.line)
          (((announce t.line.strip t.start).2.withGate (gateAfter t.line d)).withWorld world)).2) ∨
      (¬ t.start.ShowsTime ∧
        t.finish = (announce t.line.strip t.start).2.withGate (gateAfter t.line d)) := by
  have hlabels : (announce t.line.strip t.start).2.Labels d := labels_of_plain h.plain d
  have hgate : (announce t.line.strip t.start).2.session.gate = some ⟨some d⟩ := by
    rw [← hslot]
    exact h.gate
  rw [finish_eq_answerGate h hslot hline]
  by_cases htime : t.start.ShowsTime
  · obtain ⟨event, hanswer⟩ := answerGate_of_showsTime hgate htime hlabels t.line.strip
    rw [hanswer, gateAfter_strip, Decision.ofLine_strip]
    exact .inl ⟨htime, _, rfl⟩
  · obtain ⟨failure, hlog⟩ := logDecision_of_not
      (i := (announce t.line.strip t.start).2.withGate (gateAfter t.line.strip d)) (d := d)
      (fun h => htime h.1) (Decision.ofLine t.line.strip)
    rw [answerGate_eq hgate, hlog, gateAfter_strip]
    exact .inr ⟨htime, rfl⟩

/-- A line that neither confirms nor refuses leaves the store, the history and the deletion. -/
theorem finish_of_reject (hline : Decision.ofLine t.line = .reject) :
    t.finish.session.depot.store = t.start.session.depot.store ∧
      t.finish.history = t.start.history ∧ t.finish.slot = some d := by
  by_cases hblank : t.line.strip = []
  · rw [finish_of_blank hblank]
    exact ⟨rfl, rfl, hslot⟩
  · have hkept : gateAfter t.line d = ⟨some d⟩ := if_pos hline
    rcases finish_of_held h hslot hblank with ⟨-, world, hfinish⟩ | ⟨-, hfinish⟩
    · rw [hfinish, hline, hkept]
      exact ⟨rfl, rfl, rfl⟩
    · rw [hfinish, hkept]
      exact ⟨rfl, rfl, rfl⟩

/-- A line that refuses empties the gate and leaves the store. -/
theorem finish_of_cancel (hline : Decision.ofLine t.line = .cancel) :
    t.finish.session.depot.store = t.start.session.depot.store ∧ t.finish.slot = none := by
  have hblank : t.line.strip ≠ [] := by
    intro hblank
    rw [← Decision.ofLine_strip, hblank] at hline
    exact absurd hline (by decide)
  have hidle : gateAfter t.line d = .idle := if_neg (by simp [hline])
  rcases finish_of_held h hslot hblank with ⟨-, world, hfinish⟩ | ⟨-, hfinish⟩
  · rw [hfinish, hline, hidle]
    exact ⟨rfl, rfl⟩
  · rw [hfinish, hidle]
    exact ⟨rfl, rfl⟩

/-- A line that confirms empties the gate, and exactly what the deletion hits is taken away. Where the
clock shows no time nothing is. -/
theorem finish_of_confirm (hline : Decision.ofLine t.line = .confirm) :
    t.finish.slot = none ∧ (t.start.ShowsTime → t.finish.records = d.rest t.start.records) ∧
      (¬ t.start.ShowsTime → t.finish.records = t.start.records) := by
  have hblank : t.line.strip ≠ [] := by
    intro hblank
    rw [← Decision.ofLine_strip, hblank] at hline
    exact absurd hline (by decide)
  have hidle : gateAfter t.line d = .idle := if_neg (by simp [hline])
  rcases finish_of_held h hslot hblank with ⟨htime, world, hfinish⟩ | ⟨htime, hfinish⟩
  · -- what is behind the gate fits the records, so the store cannot refuse
    let s : Session := (((announce t.line.strip t.start).2.withGate .idle).withWorld world).session
    have hrun := Session.executeDeletion_run (s := s) h.plain (h.fits d hslot)
    have hcarried : t.finish.session =
        { s with depot := d.mutation.staged (d.rest t.start.records) s.depot } := by
      rw [hfinish, hline, hidle]
      show (carryOutDeletion d _).2.session = _
      unfold carryOutDeletion
      rw [Act.run_bind, Failure.attempt, Act.attemptUnless, inSession, Act.run_within, hrun]
      rfl
    refine ⟨?_, fun _ => ?_, fun hno => absurd htime hno⟩
    · rw [slot, hcarried]
      rfl
    · rw [Interpreter.records, hcarried]
      exact d.mutation.staged_records _ _
  · rw [hfinish, hidle]
    exact ⟨rfl, fun hyes => absurd hyes htime, fun _ => rfl⟩

end

/-- A turn that asks for a deletion comes to a state in which the question stands in the result log,
right after the line. -/
theorem leads_prompt (h : t.start.Ready) (harms : t.Arms d) :
    ∃ rest mid, Course.Leads (course t.line) t.start rest mid ∧ mid.slot = some d ∧
      mid.session.depot.store = t.start.session.depot.store ∧
      mid.log.entries = t.start.log.entries ++
        [.info ("> " ++ t.line.strip), .prompt (Session.confirmationPrompt d)] := by
  obtain ⟨hslot, l, hl, hasks⟩ := harms
  have hgate : t.start.session.gate = some .idle := by
    rw [h.gate, hslot]
    rfl
  have hawaits := Session.isAwaiting_of_idle hgate
  have hline : t.line.strip ≠ [] := Line.strip_ne_nil_of_parse hl
  have hdeletes : ∃ kind, l.Deletes kind := by
    cases hasks with
    | vault command flag first => exact ⟨_, command⟩
    | account command flag first => exact ⟨_, command⟩
  obtain ⟨kind, hkind⟩ := hdeletes
  have hrun : Session.execute l t.start.session =
      (.ok (.entry (.prompt (Session.confirmationPrompt d))), t.start.session.armed d) := by
    rcases Session.execute_deletion hkind h.plain hgate with ⟨d', hd', hrun⟩ | ⟨hnot, -⟩
    · rw [hasks.eq hd']
      exact hrun
    · exact absurd hasks (hnot d)
  have hdispatch := leads_dispatch_entry (i := t.start.noted t.line) hrun
  have hconclude : conclude (some (.prompt (Session.confirmationPrompt d)))
      { t.start.noted t.line with session := t.start.session.armed d } =
      (.ok (), { t.start.noted t.line with
        session := t.start.session.armed d
        log := (t.start.noted t.line).log.append (.prompt (Session.confirmationPrompt d)) }) := rfl
  have hlead := hdispatch.trans (Course.Leads.bind_ofAct hconclude _)
  refine ⟨_, _, (leads_idle hawaits hline hl).trans (hlead.bind _), rfl, rfl, ?_⟩
  exact List.append_assoc t.start.log.entries [_] [_]

/-- In the turns of a run nothing changes while a deletion waits, and what was asked is what is done. -/
structure Truthful (trace : List Turn) : Prop where
  /-- Every turn, also one inside another, is one call of `submit`. -/
  submitted : ∀ t ∈ trace, t.finish = (Interpreter.submit t.line t.start).2
  /-- While a deletion waits, a line that neither confirms nor refuses leaves the store, the history
  and the deletion. -/
  rejected : ∀ t ∈ trace, ∀ d, t.start.slot = some d → Decision.ofLine t.line = .reject →
    t.finish.session.depot.store = t.start.session.depot.store ∧
      t.finish.history = t.start.history ∧ t.finish.slot = some d
  /-- A line that refuses empties the gate and leaves the store. -/
  cancelled : ∀ t ∈ trace, ∀ d, t.start.slot = some d → Decision.ofLine t.line = .cancel →
    t.finish.session.depot.store = t.start.session.depot.store ∧ t.finish.slot = none
  /-- A line that confirms empties the gate, whatever becomes of it: what the deletion hits is taken
  away, and nothing is where the clock shows no time for the log. -/
  confirmed : ∀ t ∈ trace, ∀ d, t.start.slot = some d → Decision.ofLine t.line = .confirm →
    t.finish.slot = none ∧ (t.start.ShowsTime → t.finish.records = d.rest t.start.records) ∧
      (¬ t.start.ShowsTime → t.finish.records = t.start.records)
  /-- A line that asks for a deletion is answered with the question. -/
  prompted : ∀ t ∈ trace, ∀ d, t.Arms d →
    ∃ rest mid, Course.Leads (course t.line) t.start rest mid ∧ mid.slot = some d ∧
      mid.session.depot.store = t.start.session.depot.store ∧
      mid.log.entries = t.start.log.entries ++
        [.info ("> " ++ t.line.strip), .prompt (Session.confirmationPrompt d)]
  /-- After any number of rejected lines a confirmation takes away the accounts of the vault, and as
  many as the question said. -/
  foretold : ∀ before a late t after d, trace = before ++ a :: (late ++ t :: after) → a.Arms d →
    d.kind = .vault → (∀ u ∈ late, Decision.ofLine u.line = .reject) →
    Decision.ofLine t.line = .confirm → t.start.ShowsTime →
    t.start.slot = some d ∧
      t.finish.records.accounts = t.start.records.accounts.filter (·.vaultId != d.targetId) ∧
      ∃ count : Nat,
        t.finish.records.accounts.length + count = t.start.records.accounts.length ∧
        Session.confirmationPrompt d =
          "WARNING: Delete vault " ++ Failure.named d.targetName ++ "? This will also delete "
            ++ Text.ofNat count ++ " account(s). "
            ++ "Type \"yes\" to confirm or \"cancel\" to abort."

end Turn

namespace HostStep

/-- **While a deletion waits nothing changes, and its question tells the truth.** Over a store in
memory this holds of every run, whatever the host does and whatever parts outside do. -/
theorem truthful_trace {session : Session} (h : session.depot.store.IsPlain)
    (steps : List HostStep) : Turn.Truthful (trace steps (Interpreter.start session)) := by
  have hpassage := passage_sequence steps (ready_start h)
  refine ⟨fun t ht => Turn.finish_eq_submit (pending_start_le ht),
    fun t ht d => Turn.finish_of_reject (hpassage.starts t ht),
    fun t ht d => Turn.finish_of_cancel (hpassage.starts t ht),
    fun t ht d => Turn.finish_of_confirm (hpassage.starts t ht),
    fun t ht d => Turn.leads_prompt (hpassage.starts t ht), ?_⟩
  intro before a late t after d htrace harms hkind hlate hline htime
  have hready : t.start.Ready := hpassage.starts t (by simp [htrace])
  have hchain := hpassage.chain
  rw [htrace] at hchain
  -- the deletion that was asked for is still behind the gate, and fits the records
  have hslot : t.start.slot = some d := (hchain.after_arms harms).slot_of_rejected hlate
  have hrecords := (Turn.finish_of_confirm hready hslot hline).2.1 htime
  have hfits : d.Fits t.start.records := hready.fits d hslot
  refine ⟨hslot, ?_, _, ?_, hfits.prompt_eq hkind⟩
  · rw [hrecords]
    simp [Deletion.rest, Deletion.hits, Account.key, hkind, bne]
  · rw [hrecords]
    exact hfits.length_rest hkind

/-- A session over a vault with two accounts. -/
def sampleVaultSession : Session :=
  Session.bare
    ⟨World.fresh 0 [],
      .inMemory
        ⟨[⟨"v", "Home", "", Store.sampleMoment, Store.sampleMoment⟩],
          ["a", "b"].map fun id =>
            ⟨id, "v", id, "me", "secret", "", "", Store.sampleMoment, Store.sampleMoment⟩⟩⟩

/-- Its vault is to be deleted; of three answers only the last confirms. -/
def sampleAnswers : List HostStep :=
  ["vault delete --name home", "maybe", "vault list", " YES "].map .submit

theorem truthful_sampleAnswers :
    sampleVaultSession.depot.store.IsPlain ∧
      Turn.Truthful (trace sampleAnswers (Interpreter.start sampleVaultSession)) ∧
      (trace sampleAnswers (Interpreter.start sampleVaultSession)).map
          (fun t => (t.start.slot.map (·.cascade), t.finish.records.accounts.length)) =
        [(none, 2), (some 2, 2), (some 2, 2), (some 2, 0)] :=
  ⟨⟨rfl, rfl⟩, truthful_trace ⟨rfl, rfl⟩ sampleAnswers, by decide +kernel⟩

end HostStep

end VaultConsole
