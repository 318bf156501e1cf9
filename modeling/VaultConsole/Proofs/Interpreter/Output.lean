import VaultConsole.Proofs.Interpreter.Growth

/-!
# What a line gives back

A line yields the entries that stand in the result log from the place on where the log ended when the
line came. The entries that came in while it was answered are told here act by act, those of lines
inside it among them; an entry that was dropped again is none of them. The two are the same so long as
the log only grows. A line that empties it shortens it, and the place lies too far back then.

* `Interpreter.added`: the entries that came in while a line was answered, and are still there.
* `Interpreter.Tells`: how such entries lie in the result log.
* `Interpreter.tells_course`, `Interpreter.tells_newsAt`: what came in along a course, and in a line.
* `Interpreter.givesBack`: **a line gives back the last ones of the entries that came in, and all of them
  just where nothing emptied the log in front of them.**
-/

namespace VaultConsole

/-- The entries that are new after an act, where `news` were before it. An act that does not add to the
log empties it. -/
def EntryLog.news (news : List Entry) (before after : EntryLog) : List Entry :=
  if before.entries <+: after.entries then news ++ after.entries.drop before.size else after.entries

namespace Interpreter

/-- The entries that are new after a course, where `before` were before it. `inside` tells those that
are new after a line that is submitted on the way. -/
def news {α : Type} (answer : Text → Act Failure Interpreter Unit)
    (inside : Text → Interpreter → List Entry → List Entry) :
    Course Interpreter α → Interpreter → List Entry → List Entry
  | .done _, _, before => before
  | .own act next, i, before =>
    news answer inside (next (act i).1) (act i).2 (EntryLog.news before i.log (act i).2.log)
  | .submit line next, i, before =>
    news answer inside (next (answer line i).1) (answer line i).2 (inside line i before)

/-- The entries that are new after a line, with further lines nested up to a depth. -/
def newsAt : (depth : Nat) → Text → Interpreter → List Entry → List Entry
  | 0, line => news (answerAt 0) (fun _ _ before => before) (course line)
  | depth + 1, line => news (answerAt (depth + 1)) (newsAt depth) (course line)

/-- The entries that came in while a line was answered, be it by itself or by a line inside it, and that
are still in the log afterwards. -/
def added (line : Text) (i : Interpreter) : List Entry := newsAt i.pending line i []

/-! ## Where news stand -/

/-- The log ends with what is new. In front of it stand the entries that were there already, unless the
log was emptied in the meantime. -/
structure Tells (emptied : Prop) (old news : List Entry) (i : Interpreter) : Prop where
  kept : ¬ emptied → i.log.entries = old ++ news
  lost : emptied → i.log.entries = news

section
variable {emptied emptied' : Prop} {old before : List Entry} {i i' : Interpreter}

theorem Tells.congr (h : Tells emptied old before i) (hiff : emptied ↔ emptied') :
    Tells emptied' old before i := propext hiff ▸ h

theorem tells_start (i : Interpreter) : Tells False i.log.entries [] i :=
  ⟨fun _ => (List.append_nil _).symm, False.elim⟩

/-- Where the log is added to, what is added is new. -/
theorem Tells.grow (h : Tells emptied old before i) (hgrows : Grows i i') :
    Tells emptied old (EntryLog.news before i.log i'.log) i' := by
  obtain ⟨more, hmore⟩ := hgrows
  have hnews : EntryLog.news before i.log i'.log = before ++ more := by
    have hadded : i'.log.entries.drop i.log.size = more := by
      rw [← hmore]
      exact List.drop_left
    rw [EntryLog.news, if_pos ⟨more, hmore⟩, hadded]
  rw [hnews]
  refine ⟨fun hkept => ?_, fun hlost => ?_⟩
  · rw [← hmore, h.kept hkept, List.append_assoc]
  · rw [← hmore, h.lost hlost]

/-- Where the log is emptied nothing is new, and nothing else is left. -/
theorem tells_of_emptied (hgrows : ¬ Grows i i') :
    Tells True old (EntryLog.news before i.log i'.log) i' :=
  ⟨fun hnot => absurd trivial hnot, fun _ => (if_neg hgrows).symm⟩

end

/-! ## What is new along a course -/

section
variable {α : Type} {answer : Text → Act Failure Interpreter Unit}
  {inside : Text → Interpreter → List Entry → List Entry} {empties : Text → Interpreter → Prop}

/-- Along a course the log is emptied where an act of its own does so, or a line on the way. -/
theorem tells_course {old : List Entry}
    (hanswer : ∀ emptied before line i, Tells emptied old before i →
      Tells (emptied ∨ empties line i) old (inside line i before) (answer line i).2)
    {c : Course Interpreter α} (hc : c.Keeps Moves) {emptied : Prop} {before : List Entry}
    {i : Interpreter} (h : Tells emptied old before i) :
    Tells (emptied ∨ ¬ c.KeepsAt Grows answer i ∨ ∃ call ∈ c.calls answer i, empties call.1 call.2) old
      (news answer inside c i before) (c.run answer i).2 := by
  -- the log either grows in an act or is emptied by it, and what is new is told anew from there
  induction c generalizing i emptied before with
  | done result =>
    exact h.congr (by simp [Course.KeepsAt, Course.calls])
  | own act next ih =>
    have hnext : (next (act i).1).Keeps Moves := hc.2 _
    by_cases hgrows : Grows i (act i).2
    · refine (ih _ hnext (h.grow hgrows)).congr ?_
      simp [Course.KeepsAt, Course.calls, hgrows]
    · refine (ih _ hnext (tells_of_emptied hgrows)).congr ?_
      simp [Course.KeepsAt, hgrows]
  | submit line next ih =>
    refine (ih _ (hc _) (hanswer emptied before line i h)).congr ?_
    simp only [Course.KeepsAt, Course.calls, List.exists_mem_cons_iff]
    tauto

end

/-- What is new in a line, and where it lies: the log was emptied if one of the turns emptied it. -/
theorem tells_newsAt (depth : Nat) (line : Text) {emptied : Prop} {old before : List Entry}
    {i : Interpreter} (h : Tells emptied old before i) :
    Tells (emptied ∨ ∃ t ∈ Turn.turnsAt depth line i, t.start.Clears t.line) old
      (newsAt depth line i before) (submitNested depth line i).2 := by
  induction depth generalizing line emptied before i with
  | zero =>
    have hquiet : ∀ emptied before (line : Text) i, Tells emptied old before i →
        Tells (emptied ∨ False) old before (answerAt 0 line i).2 :=
      fun _ _ _ _ h => h.congr (by simp)
    have hcourse := tells_course hquiet (moves_course line) h
    rw [submitNested_eq]
    refine hcourse.congr ?_
    simp [keepsAt_grows_iff, Turn.turnsAt]
  | succ depth ih =>
    have hinside : ∀ emptied before (line : Text) i, Tells emptied old before i →
        Tells (emptied ∨ ∃ t ∈ Turn.turnsAt depth line i, t.start.Clears t.line) old
          (newsAt depth line i before) (answerAt (depth + 1) line i).2 := by
      intro emptied before line i h
      rw [answerAt, Act.snd_discard]
      exact ih line h
    have hcourse := tells_course hinside (moves_course line) h
    rw [submitNested_eq]
    refine hcourse.congr ?_
    rw [keepsAt_grows_iff, not_not, Turn.turnsAt, List.exists_mem_cons_iff]
    have hlines : ∀ calls : List (Text × Interpreter), ∀ P : Turn → Prop,
        (∃ t ∈ calls.flatMap fun call => Turn.turnsAt depth call.1 call.2, P t) ↔
          ∃ call ∈ calls, ∃ t ∈ Turn.turnsAt depth call.1 call.2, P t := by
      intro calls P
      simp only [List.mem_flatMap]
      tauto
    exact or_congr_right (or_congr_right (hlines _ fun t => t.start.Clears t.line).symm)

/-! ## What a line gives back -/

/-- Where something is left out at the front, a list stays what it is only if it is empty. -/
theorem drop_eq_self_iff {α : Type} {items : List α} {n : Nat} :
    items.drop n = items ↔ n = 0 ∨ items = [] := by
  refine ⟨fun h => ?_, ?_⟩
  · have hlength : items.length - n = items.length := by rw [← List.length_drop, h]
    rcases Nat.eq_zero_or_pos n with hn | hn
    · exact .inl hn
    · exact .inr (List.length_eq_zero_iff.1 (by omega))
  · rintro (rfl | rfl)
    · rfl
    · exact List.drop_nil

theorem entriesSince_run (start : Nat) (i : Interpreter) :
    entriesSince start i = (.ok (i.log.entries.drop start), i) := by
  have hsince : i.log.since start = i.log.entries.drop start := by
    show i.log.entries.drop (min (start : Int).toNat i.log.entries.length) = _
    rw [Int.toNat_natCast]
    rcases Nat.le_total start i.log.entries.length with hle | hge
    · rw [Nat.min_eq_left hle]
    · rw [Nat.min_eq_right hge, List.drop_length, List.drop_eq_nil_of_le hge]
  rw [← hsince]
  rfl

section
variable {line : Text} {i i' : Interpreter} {entries : List Entry}

/-- A line that ends yields the entries from the place on where the log ended when it came. -/
theorem eq_drop_of_submit (h : submit line i = (.ok entries, i')) :
    entries = i'.log.entries.drop i.log.size := by
  rw [submit_eq] at h
  by_cases hline : line.strip = []
  · rw [course_of_blank hline] at h
    cases h
    exact List.drop_length.symm
  · rw [(leads_announce hline i).run_eq, Course.run_bind] at h
    rcases hprocess : (process line.strip).run (answerAt i.pending) (announce line.strip i).2 with
      ⟨failure | _, i''⟩ <;> rw [hprocess] at h
    · cases h
    · have hend : entriesSince i.log.size i'' = (.ok entries, i') := h
      rw [entriesSince_run] at hend
      cases hend
      rfl

/-- Something empties the result log while a line is answered: the line does, or one inside it. -/
def Empties (line : Text) (i : Interpreter) : Prop :=
  ∃ t ∈ HostStep.turnsOf line i, t.start.Clears t.line

theorem tells_submit (line : Text) (i : Interpreter) :
    Tells (i.Empties line) i.log.entries (added line i) (submit line i).2 := by
  have hnews := tells_newsAt i.pending line (tells_start i)
  rw [submitNested_eq_submit le_rfl] at hnews
  exact hnews.congr (by rw [false_or]; rfl)

/-- What a line gives back, of all the entries that came in while it was answered, the lines inside it
included, and that are still in the log. -/
structure GivesBack (line : Text) (i : Interpreter) : Prop where
  /-- Where all failures have words, events can say something of every identifier, and the clock shows a
  time, a line that is not interrupted gives back something. -/
  ends : i.session.Obeys .worded → ∀ failure, (submit line i).1 = .error failure →
    failure.isInterruption = true
  /-- These entries stand at the end of the log; in front of them all those that were there before, if
  nothing emptied the log, and none otherwise. -/
  kept : ¬ i.Empties line → (submit line i).2.log.entries = i.log.entries ++ added line i
  lost : i.Empties line → (submit line i).2.log.entries = added line i
  /-- The line gives back the last ones of them. -/
  last : ∀ entries, (submit line i).1 = .ok entries → entries <:+ added line i
  /-- It gives back all of them just where the log was not emptied, or was empty before, or where there
  are none. -/
  all_iff : ∀ entries, (submit line i).1 = .ok entries →
    (entries = added line i ↔ ¬ i.Empties line ∨ i.log.entries = [] ∨ added line i = [])

/-- **What a line gives back**, in every state, and whatever the parts outside do. Where a line empties
the log, as many entries are missing of those that came in after that as stood in the log before. -/
theorem givesBack (line : Text) (i : Interpreter) : GivesBack line i := by
  have htells := tells_submit line i
  have hentries : ∀ entries, (submit line i).1 = .ok entries →
      entries = (submit line i).2.log.entries.drop i.log.size :=
    fun entries hok => eq_drop_of_submit (Prod.ext hok rfl)
  refine ⟨fun hworded failure hfails => ?_, htells.kept, htells.lost, fun entries hok => ?_,
    fun entries hok => ?_⟩
  · exact (isInterruption_of_submit Conduct.isWorded_worded hworded hfails).1
  · rw [hentries entries hok]
    by_cases hempties : i.Empties line
    · rw [htells.lost hempties]
      exact List.drop_suffix _ _
    · have hdrop : (i.log.entries ++ added line i).drop i.log.size = added line i := List.drop_left
      simp only [htells.kept hempties, hdrop, List.suffix_rfl]
  · rw [hentries entries hok]
    by_cases hempties : i.Empties line
    · -- the log holds no more than what came in, and of that as many entries are left out as it had
      rw [htells.lost hempties, drop_eq_self_iff, EntryLog.size, List.length_eq_zero_iff]
      simp [hempties]
    · rw [htells.kept hempties, EntryLog.size, List.drop_left]
      simp [hempties]

end

/-- A session with one account, whose clipboard submits a line that empties the log. -/
def sampleEmptying : Session :=
  { Session.bare
      ⟨World.fresh 0 [],
        .inMemory
          ⟨[⟨"v", "Home", "", Store.sampleMoment, Store.sampleMoment⟩],
            [⟨"m", "v", "Mail", "me", "pw", "", "", Store.sampleMoment, Store.sampleMoment⟩]⟩⟩ with
    clipboard := some ⟨[⟨["clear"], none⟩], none⟩ }

/-- An interpreter over such a session, after one line. -/
def sampleListed : Interpreter := HostStep.run (.submit "vault list") (start sampleEmptying)

/-- A line whose answer came in last, and stands in the log, gives nothing back. -/
theorem exists_unreported_entry :
    sampleListed.Reachable ∧ sampleListed.AtRest ∧
      (submit "account password --name Mail" sampleListed).1 = .ok [] ∧
      added "account password --name Mail" sampleListed =
        [.success "Password for \"Mail\": pw\n\n(Copied to clipboard)"] ∧
      (submit "account password --name Mail" sampleListed).2.log.entries =
        [.success "Password for \"Mail\": pw\n\n(Copied to clipboard)"] := by
  have htime : (start sampleEmptying).ShowsTime :=
    ⟨⟨1970, 1, 1, 0, 0, 0, 0, 0, by decide⟩, by decide +kernel⟩
  have hreach : sampleListed.Reachable := .step _ (.start rfl) htime trivial
  have hrest : sampleListed.AtRest := by
    rw [sampleListed, HostStep.run_submit, ← submitNested_eq_submit le_rfl]
    exact atRest_submitNested _ "vault list" ⟨rfl, htime⟩
  exact ⟨hreach, hrest, by decide +kernel, by decide +kernel, by decide +kernel⟩

end Interpreter

end VaultConsole
