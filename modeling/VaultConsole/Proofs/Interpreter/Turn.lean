import VaultConsole.Proofs.Interpreter.Nesting

/-!
# Turns

A turn is one line that is submitted, by the host or by a part outside while another line is
answered. The turns of a line are its own and, in the order in which they begin, those of the lines
that are submitted along its course.

What passes between two states is told by the turns that began in between: each finds the deletion
behind the gate that the one before it left there, and what records are lost are lost in one of them.

* `Turn`, `Turn.turns`, `Turn.finish`: turns.
* `Turn.holds_of_mem_turnsAt`: what is so where every turn of a line begins and ends.
* `Turn.Arms`, `Turn.Executes`: turns that ask for a deletion, and turns that confirm one.
* `Turn.Chain`: the deletion behind the gate, from turn to turn.
* `Passage`: what passes between two states.
* `Turn.passage`: **what passes in a turn**.
-/

namespace VaultConsole

namespace Interpreter

/-- The deletion behind the gate. -/
def slot (i : Interpreter) : Option Deletion := i.session.gate.bind (·.pending)

/-- The records of the store. -/
def records (i : Interpreter) : Records := i.session.depot.store.records

/-- There is a gate, the store is one in memory, and what is behind the gate fits the records. -/
structure Ready (i : Interpreter) : Prop where
  gate : i.session.gate = some ⟨i.slot⟩
  plain : i.session.depot.store.IsPlain
  fits : ∀ d, i.slot = some d → d.Fits i.records

end Interpreter

open Interpreter

/-- One line that is submitted, the state from which it is, and the room for turns in it. -/
structure Turn where
  depth : Nat
  line : Text
  start : Interpreter

namespace Turn

/-- The state after a turn. -/
def finish (t : Turn) : Interpreter := (submitNested t.depth t.line t.start).2

/-- The turns of a line from a state on, in the order in which they begin. -/
def turnsAt : (depth : Nat) → Text → Interpreter → List Turn
  | 0, line, i => [⟨0, line, i⟩]
  | depth + 1, line, i =>
    ⟨depth + 1, line, i⟩ ::
      ((course line).calls (answerAt (depth + 1)) i).flatMap fun (line, i) => turnsAt depth line i

/-- A turn and the turns in it, in the order in which they begin. -/
def turns (t : Turn) : List Turn := turnsAt t.depth t.line t.start

/-- The turns in a turn that is part of a line are part of it too. -/
theorem turns_subset {depth : Nat} {line : Text} {i : Interpreter} {t : Turn}
    (h : t ∈ turnsAt depth line i) : t.turns ⊆ turnsAt depth line i := by
  induction depth generalizing line i with
  | zero =>
    rw [turnsAt, List.mem_singleton] at h
    rw [h]
    exact List.Subset.refl _
  | succ depth ih =>
    rw [turnsAt, List.mem_cons, List.mem_flatMap] at h
    rcases h with rfl | ⟨call, hcall, ht⟩
    · exact List.Subset.refl _
    · intro u hu
      rw [turnsAt, List.mem_cons, List.mem_flatMap]
      exact .inr ⟨call, hcall, ih ht hu⟩

/-- No turn of a line needs more room than there is for it. -/
theorem pending_start_le {depth : Nat} {line : Text} {i : Interpreter} (h : i.pending ≤ depth)
    {t : Turn} (ht : t ∈ turnsAt depth line i) : t.start.pending ≤ t.depth := by
  induction depth generalizing line i with
  | zero =>
    rw [turnsAt, List.mem_singleton] at ht
    rw [ht]
    exact h
  | succ depth ih =>
    rw [turnsAt, List.mem_cons, List.mem_flatMap] at ht
    rcases ht with rfl | ⟨call, hcall, ht⟩
    · exact h
    · have hlt := pending_of_mem_calls hcall
      -- a line inside has less to come, and one level less
      exact ih (by omega) ht

/-- What the courses of lines keep up is so where any turn of a line begins, and where it ends. -/
theorem holds_of_mem_turnsAt {I : Interpreter → Prop}
    (hcourse : ∀ line i, I i → (course line).Meets I (fun _ => I) (fun _ => I) i) {depth : Nat} {line : Text}
    {i : Interpreter} (h : I i) {t : Turn} (ht : t ∈ turnsAt depth line i) : I t.start ∧ I t.finish := by
  induction depth generalizing line i with
  | zero =>
    rw [turnsAt, List.mem_singleton] at ht
    rw [ht]
    exact ⟨h, holds_submitNested hcourse 0 line h⟩
  | succ depth ih =>
    rw [turnsAt, List.mem_cons, List.mem_flatMap] at ht
    rcases ht with rfl | ⟨call, hcall, ht⟩
    · exact ⟨h, holds_submitNested hcourse (depth + 1) line h⟩
    · have hcalled : I call.2 :=
        (hcourse line i h).of_mem_calls (fun line _ => holds_answerAt hcourse (depth + 1) line) hcall
      exact ih hcalled ht

/-- Where there is room for all that is to come, a turn is one call of `submit`. -/
theorem finish_eq_submit {t : Turn} (h : t.start.pending ≤ t.depth) :
    t.finish = (submit t.line t.start).2 := by rw [finish, submitNested_eq_submit h]

/-- While no deletion waits, the line asks for a deletion. -/
def Arms (t : Turn) (d : Deletion) : Prop :=
  t.start.slot = none ∧ ∃ l, Line.parse t.line = some l ∧ l.AsksFor t.start.records d

/-- A turn asks for one deletion only. -/
theorem Arms.eq {t : Turn} {d d' : Deletion} (h : t.Arms d) (h' : t.Arms d') : d = d' := by
  obtain ⟨-, l, hl, hd⟩ := h
  obtain ⟨-, l', hl', hd'⟩ := h'
  rw [hl] at hl'
  cases hl'
  exact hd.eq hd'

/-- A deletion waits, and the line confirms it. -/
def Executes (t : Turn) (d : Deletion) : Prop :=
  t.start.slot = some d ∧ (t.line.strip.lower = "yes" ∨ t.line.strip.lower = "confirm")

/-- A record is there before a turn that confirms a deletion which hits it, and not after. -/
def Removes (t : Turn) (key : RecordKey) : Prop :=
  ∃ d, t.Executes d ∧ d.hits key = true ∧ key ∈ t.start.records.keys ∧ key ∉ t.finish.records.keys

/-- The deletion behind the gate when a turn has come as far as its line alone takes it. -/
inductive Leaves (t : Turn) : Option Deletion → Prop
  | armed (d : Deletion) (arms : t.Arms d) : Leaves t (some d)
  /-- A line that confirms or refuses leaves none. -/
  | settled (held : t.start.slot ≠ none) (decided : Decision.ofLine t.line ≠ .reject) :
      Leaves t none
  | kept (arms : ∀ d, ¬ t.Arms d) (executes : ∀ d, ¬ t.Executes d) : Leaves t t.start.slot

/-- Every turn begins with the deletion behind the gate that the one before it left there. -/
def Chain : Option Deletion → List Turn → Option Deletion → Prop
  | slot, [], last => slot = last
  | slot, t :: rest, last => t.start.slot = slot ∧ ∃ next, t.Leaves next ∧ Chain next rest last

namespace Chain

theorem append {slot middle last : Option Deletion} {before after : List Turn}
    (h : Chain slot before middle) (h' : Chain middle after last) :
    Chain slot (before ++ after) last := by
  induction before generalizing slot with
  | nil =>
    rw [Chain] at h
    rw [h]
    exact h'
  | cons t rest ih =>
    obtain ⟨hslot, next, hleaves, hrest⟩ := h
    exact ⟨hslot, next, hleaves, ih hrest⟩

/-- A turn that confirms leaves no deletion behind the gate. -/
theorem after_executes {slot last : Option Deletion} {before after : List Turn} {t : Turn}
    {d : Deletion} (h : Chain slot (before ++ t :: after) last) (hexecutes : t.Executes d) :
    Chain none after last := by
  induction before generalizing slot with
  | cons u rest ih =>
    obtain ⟨-, next, -, hrest⟩ := h
    exact ih hrest
  | nil =>
    obtain ⟨-, next, hleaves, hrest⟩ := h
    cases hleaves with
    | armed d' arms => exact absurd (arms.1.symm.trans hexecutes.1) (by simp)
    | settled held decided => exact hrest
    | kept arms executes => exact absurd hexecutes (executes d)

/-- What a turn asks for is behind the gate afterwards. -/
theorem after_arms {slot last : Option Deletion} {before after : List Turn} {t : Turn}
    {d : Deletion} (h : Chain slot (before ++ t :: after) last) (harms : t.Arms d) :
    Chain (some d) after last := by
  induction before generalizing slot with
  | cons u rest ih =>
    obtain ⟨-, next, -, hrest⟩ := h
    exact ih hrest
  | nil =>
    obtain ⟨-, next, hleaves, hrest⟩ := h
    cases hleaves with
    | armed d' arms =>
      rw [harms.eq arms]
      exact hrest
    | settled held decided => exact absurd harms.1 held
    | kept arms executes => exact absurd harms (arms d)

/-- A deletion stays behind the gate while lines are rejected. -/
theorem slot_of_rejected {last : Option Deletion} {late after : List Turn} {t : Turn} {d : Deletion}
    (h : Chain (some d) (late ++ t :: after) last)
    (hlate : ∀ u ∈ late, Decision.ofLine u.line = .reject) : t.start.slot = some d := by
  induction late with
  | nil => exact h.1
  | cons u rest ih =>
    obtain ⟨hslot, next, hleaves, hrest⟩ := h
    cases hleaves with
    | armed d' arms => exact absurd (arms.1.symm.trans hslot) (by simp)
    | settled held decided => exact absurd (hlate u List.mem_cons_self) decided
    | kept arms executes =>
      rw [hslot] at hrest
      exact ih hrest fun v hv => hlate v (List.mem_cons_of_mem u hv)

end Chain

/-- A deletion waits, and the line does not confirm it. -/
def Holds (t : Turn) (d : Deletion) : Prop := t.start.slot = some d ∧ ∀ d', ¬ t.Executes d'

/-- A deletion that a turn confirms was behind the gate from the beginning, or an earlier turn asked
for it; since then all turns held it. -/
theorem Chain.origin {slot last : Option Deletion} {before after : List Turn} {t : Turn}
    {d : Deletion} (h : Chain slot (before ++ t :: after) last) (hexecutes : t.Executes d) :
    (slot = some d ∧ ∀ u ∈ before, u.Holds d) ∨
      ∃ early a late, before = early ++ a :: late ∧ a.Arms d ∧ ∀ u ∈ late, u.Holds d := by
  -- from the first turn on: what is behind the gate after it is the beginning of the rest
  induction before generalizing slot with
  | nil => exact .inl ⟨h.1.symm.trans hexecutes.1, by simp⟩
  | cons u rest ih =>
    obtain ⟨hslot, next, hleaves, hrest⟩ := h
    rcases ih hrest with ⟨hnext, hholds⟩ | ⟨early, a, late, hbefore, harms, hholds⟩
    · cases hleaves with
      | armed d' arms =>
        cases hnext
        exact .inr ⟨[], u, rest, rfl, arms, hholds⟩
      | settled held decided => cases hnext
      | kept arms executes =>
        refine .inl ⟨hslot.symm.trans hnext, fun v hv => ?_⟩
        rcases List.mem_cons.1 hv with rfl | hv
        · exact ⟨hnext, executes⟩
        · exact hholds v hv
    · exact .inr ⟨u :: early, a, late, by rw [hbefore]; rfl, harms, hholds⟩

end Turn

/-- What passes between two states in which some turns begin. -/
structure Passage (turns : List Turn) (i i' : Interpreter) : Prop where
  ready : i'.Ready
  starts : ∀ t ∈ turns, t.start.Ready
  chain : Turn.Chain i.slot turns i'.slot
  losses : ∀ key ∈ i.records.keys, key ∉ i'.records.keys → ∃ t ∈ turns, t.Removes key

namespace Interpreter

variable {i i' : Interpreter}

theorem slot_of_gate (hgate : i'.session.gate = i.session.gate) : i'.slot = i.slot :=
  congrArg (fun gate => gate.bind (·.pending)) hgate

/-- While the session stands still, all stays as it has to be. -/
theorem Ready.of_still (h : i.Ready) (hstill : Along Session.Still i i') : i'.Ready := by
  have hslot := slot_of_gate hstill.gate
  have hrecords : i'.records = i.records := hstill.records
  refine ⟨?_, hstill.plain h.plain, ?_⟩
  · rw [hstill.gate, hslot]
    exact h.gate
  · rw [hslot, hrecords]
    exact h.fits

/-- While no deletion waits, none can be wrong. -/
theorem Ready.of_idle (hgate : i.session.gate = some .idle) (hplain : i.session.depot.store.IsPlain) :
    i.Ready := by
  have hslot : i.slot = none := by
    rw [slot, hgate]
    rfl
  refine ⟨by rw [hgate, hslot]; rfl, hplain, fun d hd => ?_⟩
  rw [hslot] at hd
  cases hd

end Interpreter

namespace Passage

variable {turns turns' : List Turn} {i i' i'' : Interpreter}

/-- A step in which the session stands still takes no turn. -/
theorem of_still (h : i.Ready) (hstill : Along Session.Still i i') : Passage [] i i' := by
  have hrecords : i'.records = i.records := hstill.records
  refine ⟨h.of_still hstill, by simp, (slot_of_gate hstill.gate).symm, fun key hkey hlost => ?_⟩
  rw [hrecords] at hlost
  exact absurd hkey hlost

theorem trans (h : Passage turns i i') (h' : Passage turns' i' i'') :
    Passage (turns ++ turns') i i'' where
  ready := h'.ready
  starts t ht := (List.mem_append.1 ht).elim (h.starts t) (h'.starts t)
  chain := h.chain.append h'.chain
  losses key hkey hlost := by
    by_cases hmiddle : key ∈ i'.records.keys
    · obtain ⟨t, ht, hremoves⟩ := h'.losses key hmiddle hlost
      exact ⟨t, List.mem_append_right turns ht, hremoves⟩
    · obtain ⟨t, ht, hremoves⟩ := h.losses key hkey hmiddle
      exact ⟨t, List.mem_append_left turns' ht, hremoves⟩

/-- Along a course that leaves the session as it is only the turns of the lines count that are
submitted. -/
theorem of_keeps {α : Type} {answer : Text → Act Failure Interpreter Unit}
    (turnsOf : Text → Interpreter → List Turn)
    (hanswer : ∀ line i, i.Ready → Passage (turnsOf line i) i (answer line i).2)
    {c : Course Interpreter α} (hc : c.Keeps (Along Session.Still)) {i : Interpreter} (h : i.Ready) :
    Passage ((c.calls answer i).flatMap fun (line, i) => turnsOf line i) i (c.run answer i).2 := by
  -- an act of its own adds no turn, and a line that is submitted adds its own
  induction c generalizing i with
  | done result => exact of_still h (Std.Refl.refl i)
  | own act next ih =>
    have hact := of_still h (hc.1 i)
    exact hact.trans (ih _ (hc.2 _) hact.ready)
  | submit line next ih =>
    have hline := hanswer line i h
    exact hline.trans (ih _ (hc _) hline.ready)

/-- A turn up to a state that keeps the gate, where no record is missing. -/
theorem of_kept {t : Turn} {mid : Interpreter} (h : t.start.Ready) (hready : mid.Ready)
    (hcalm : Along Session.Calm t.start mid) (arms : ∀ d, ¬ t.Arms d)
    (executes : ∀ d, ¬ t.Executes d) : Passage [t] t.start mid := by
  have hslot := slot_of_gate hcalm.gate
  refine ⟨hready, by simpa using h, ⟨rfl, t.start.slot, .kept arms executes, hslot.symm⟩, ?_⟩
  exact fun key hkey hlost => absurd ((hcalm.depot h.plain).2 hkey) hlost

/-- A turn up to a state in which the deletion that waited does so no longer. -/
theorem of_settled {t : Turn} {mid : Interpreter} (h : t.start.Ready) (held : t.start.slot ≠ none)
    (decided : Decision.ofLine t.line ≠ .reject) (hgate : mid.session.gate = some .idle)
    (hplain : mid.session.depot.store.IsPlain)
    (hlosses : ∀ key ∈ t.start.records.keys, key ∉ mid.records.keys → t.Removes key) :
    Passage [t] t.start mid := by
  have hslot : mid.slot = none := by
    rw [slot, hgate]
    rfl
  refine ⟨.of_idle hgate hplain, by simpa using h, ?_, fun key hkey hlost => ?_⟩
  · exact ⟨rfl, none, .settled held decided, hslot.symm⟩
  · exact ⟨t, List.mem_singleton_self t, hlosses key hkey hlost⟩

end Passage

theorem Decision.ofLine_eq_confirm {line : Text} :
    Decision.ofLine line = .confirm ↔ line.strip.lower = "yes" ∨ line.strip.lower = "confirm" := by
  unfold Decision.ofLine
  simp only
  split
  · next h => simpa using h
  · next h =>
    split
    · simpa using h
    · simpa using h

namespace Turn

variable {t : Turn}

/-- A blank line does nothing. -/
theorem opens_blank (h : t.start.Ready) (hline : t.line.strip = []) :
    ∃ mid, Course.Opens (Along Session.Still) (course t.line) t.start mid ∧
      Passage [t] t.start mid := by
  have hparse : Line.parse t.line = none := by
    unfold Line.parse
    simp [hline]
  refine ⟨t.start, ⟨_, .refl _ _, by rw [course_of_blank hline]; exact .pure _⟩, ?_⟩
  refine .of_kept h h (Std.Refl.refl _) (fun d arms => ?_) (fun d executes => ?_)
  · obtain ⟨-, l, hl, -⟩ := arms
    rw [hparse] at hl
    cases hl
  · obtain ⟨-, hyes⟩ := executes
    rw [hline] at hyes
    exact absurd hyes (by decide)

/-- While a deletion waits, the line of a turn does nothing else than answer the gate. -/
theorem finish_eq_answerGate (h : t.start.Ready) {d : Deletion} (hslot : t.start.slot = some d)
    (hline : t.line.strip ≠ []) :
    t.finish = (answerGate t.line.strip (announce t.line.strip t.start).2).2 := by
  have hgate : t.start.session.gate = some ⟨some d⟩ := by rw [h.gate, hslot]
  obtain ⟨result, hlead⟩ := leads_held hgate hline
  rw [finish, submitNested_eq, hlead.run_eq]
  rfl

/-- While a deletion waits, a turn is over when the line has answered the gate. -/
theorem finish_held (h : t.start.Ready) {d : Deletion} (hslot : t.start.slot = some d)
    (hline : t.line.strip ≠ []) :
    (∃ result, Course.Leads (course t.line) t.start (.done result) t.finish) ∧
      Along (Session.Takes d) (t.start.withGate (gateAfter t.line.strip d)) t.finish ∧
      (Decision.ofLine t.line.strip ≠ .confirm →
        Along Session.Still (t.start.withGate (gateAfter t.line.strip d)) t.finish) := by
  have hgate : t.start.session.gate = some ⟨some d⟩ := by rw [h.gate, hslot]
  obtain ⟨result, hlead⟩ := leads_held hgate hline
  rw [finish_eq_answerGate h hslot hline]
  -- the line is announced before it answers, which leaves the session as it is
  exact ⟨⟨result, hlead⟩,
    answerGate_held (i := (announce t.line.strip t.start).2) hgate t.line.strip⟩

/-- A line that confirms takes away only what the deletion hits. -/
theorem removes_of_records {d : Deletion} (hexecutes : t.Executes d)
    (h : t.finish.records = t.start.records ∨ t.finish.records = d.rest t.start.records)
    {key : RecordKey} (hkey : key ∈ t.start.records.keys) (hlost : key ∉ t.finish.records.keys) :
    t.Removes key := by
  rcases h with hsame | hrest
  · rw [hsame] at hlost
    exact absurd hkey hlost
  · refine ⟨d, hexecutes, ?_, hkey, hlost⟩
    rw [hrest, Deletion.mem_keys_rest] at hlost
    -- what the deletion does not hit is among the rest
    by_contra hmiss
    exact hlost ⟨hkey, by simpa using hmiss⟩

/-- While a deletion waits, a line answers the gate. -/
theorem opens_held (h : t.start.Ready) {d : Deletion} (hslot : t.start.slot = some d)
    (hline : t.line.strip ≠ []) :
    ∃ mid, Course.Opens (Along Session.Still) (course t.line) t.start mid ∧
      Passage [t] t.start mid := by
  have hheld : t.start.slot ≠ none := by simp [hslot]
  obtain ⟨⟨result, hlead⟩, htakes, hstill⟩ := finish_held h hslot hline
  refine ⟨t.finish, ⟨_, hlead, trivial⟩, ?_⟩
  obtain ⟨hplain, hrecords⟩ := htakes.depot h.plain
  have hgateAfter : t.finish.session.gate = some (gateAfter t.line.strip d) := htakes.gate
  cases hdecision : Decision.ofLine t.line.strip with
  | reject =>
    have hstill := hstill (by rw [hdecision]; simp)
    have hkept : t.finish.session.gate = t.start.session.gate := by
      rw [hgateAfter, gateAfter, if_pos hdecision, h.gate, hslot]
    have hkeeps : Along Session.Still t.start t.finish :=
      ⟨hkept, hstill.records, hstill.keeping, hstill.faults, hstill.pending⟩
    refine .of_kept h (h.of_still hkeeps) (Session.Coarse.of_still hkeeps)
      (fun d' arms => hheld arms.1) ?_
    intro d' hd'
    have hconfirm := Decision.ofLine_eq_confirm.2 hd'.2
    rw [← Decision.ofLine_strip, hdecision] at hconfirm
    cases hconfirm
  | cancel =>
    have hidle : t.finish.session.gate = some .idle := by
      rw [hgateAfter, gateAfter, if_neg (by simp [hdecision])]
    have hrecords : t.finish.records = t.start.records := (hstill (by rw [hdecision]; simp)).records
    rw [Decision.ofLine_strip] at hdecision
    refine .of_settled h hheld (by simp [hdecision]) hidle hplain fun key hkey hlost => ?_
    rw [hrecords] at hlost
    exact absurd hkey hlost
  | confirm =>
    have hidle : t.finish.session.gate = some .idle := by
      rw [hgateAfter, gateAfter, if_neg (by simp [hdecision])]
    rw [Decision.ofLine_strip] at hdecision
    have hexecutes : t.Executes d := ⟨hslot, Decision.ofLine_eq_confirm.1 hdecision⟩
    exact .of_settled h hheld (by simp [hdecision]) hidle hplain fun key =>
      removes_of_records hexecutes hrecords

/-- While no deletion waits, the command of a line is carried out. -/
theorem opens_idle (h : t.start.Ready) (hslot : t.start.slot = none) (hline : t.line.strip ≠ []) :
    ∃ mid, Course.Opens (Along Session.Still) (course t.line) t.start mid ∧
      Passage [t] t.start mid := by
  have hgate : t.start.session.gate = some .idle := by
    rw [h.gate, hslot]
    rfl
  have hawaits := Session.isAwaiting_of_idle hgate
  obtain ⟨l, hl⟩ := Line.exists_of_parse hline
  obtain ⟨mid, hopens, hsession⟩ := opens_course (R := Session.Still) hawaits hline hl
  refine ⟨mid, hopens, ?_⟩
  have hexecutes : ∀ d, ¬ t.Executes d := by
    intro d hd
    rw [Executes, hslot] at hd
    exact absurd hd.1 (by simp)
  have hasks : ∀ {d}, t.Arms d → l.AsksFor t.start.records d := by
    rintro d ⟨-, l', hl', hd⟩
    rw [hl] at hl'
    cases hl'
    exact hd
  by_cases hdeletes : ∃ kind, l.Deletes kind
  · obtain ⟨kind, hkind⟩ := hdeletes
    rcases Session.execute_deletion hkind h.plain hgate with ⟨d, hd, hrun⟩ | ⟨hnot, hrun⟩
    · have harmed : mid.session = t.start.session.armed d := by rw [hsession, hrun]
      have hslot' : mid.slot = some d := by
        rw [slot, harmed]
        rfl
      have hrecords : mid.records = t.start.records := by
        rw [Interpreter.records, harmed]
        rfl
      refine ⟨⟨?_, ?_, fun d' hd' => ?_⟩, by simpa using h, ?_, fun key hkey hlost => ?_⟩
      · rw [hslot', harmed]
        rfl
      · rw [harmed]
        exact h.plain
      · rw [hslot'] at hd'
        cases hd'
        rw [hrecords]
        exact hd.fits
      · exact ⟨rfl, some d, .armed d ⟨hslot, l, hl, hd⟩, hslot'.symm⟩
      · rw [hrecords] at hlost
        exact absurd hkey hlost
    · have hsame : mid.session = t.start.session := hsession.trans hrun
      exact .of_kept h (h.of_still (along_of_same hsame)) (along_of_same hsame)
        (fun d arms => hnot d (hasks arms)) hexecutes
  -- a line that deletes nothing asks for no deletion either
  · have hcalm : Along Session.Calm t.start mid := by
      rw [Along, hsession]
      exact Session.keeps_execute (fun kind hkind => hdeletes ⟨kind, hkind⟩) t.start.session
    have hready : mid.Ready := .of_idle (hcalm.gate.trans hgate) (hcalm.depot h.plain).1
    refine .of_kept h hready hcalm (fun d arms => ?_) hexecutes
    · cases hasks arms with
      | vault command _ _ => exact hdeletes ⟨_, command⟩
      | account command _ _ => exact hdeletes ⟨_, command⟩

/-- The line of a turn alone takes it to a state from which on its course leaves the session as it
is. -/
theorem opens (h : t.start.Ready) :
    ∃ mid, Course.Opens (Along Session.Still) (course t.line) t.start mid ∧
      Passage [t] t.start mid := by
  by_cases hline : t.line.strip = []
  · exact opens_blank h hline
  · cases hslot : t.start.slot with
    | none => exact opens_idle h hslot hline
    | some d => exact opens_held h hslot hline

/-- What passes in a line that is submitted where there is room for so many levels of turns. -/
theorem passage_turnsAt (depth : Nat) {line : Text} {i : Interpreter} (h : i.Ready) :
    Passage (turnsAt depth line i) i (submitNested depth line i).2 := by
  induction depth generalizing line i with
  | zero =>
    obtain ⟨mid, ⟨rest, hlead, hkeeps⟩, hopening⟩ := opens (t := ⟨0, line, i⟩) h
    rw [submitNested_eq, hlead.run_eq]
    have hrest : Passage _ mid (rest.run (answerAt 0) mid).2 :=
      .of_keeps (fun _ _ => []) (fun line i hi => .of_still hi (Std.Refl.refl i)) hkeeps
        hopening.ready
    rw [List.flatMap_eq_nil_iff.2 fun _ _ => rfl] at hrest
    exact hopening.trans hrest
  | succ depth ih =>
    obtain ⟨mid, ⟨rest, hlead, hkeeps⟩, hopening⟩ := opens (t := ⟨depth + 1, line, i⟩) h
    rw [submitNested_eq, hlead.run_eq, turnsAt, hlead.calls_eq]
    -- the lines along the rest have one level less
    refine hopening.trans (.of_keeps (turnsAt depth) (fun line i hi => ?_) hkeeps
      hopening.ready)
    rw [answerAt, Act.snd_discard]
    exact ih hi

/-- **What passes in a turn**: the turns in it account for it. -/
theorem passage (h : t.start.Ready) : Passage t.turns t.start t.finish := passage_turnsAt t.depth h

/-- A turn that confirms a deletion takes away the records that the deletion hits, or none. -/
theorem records_finish {d : Deletion} (h : t.start.Ready) (hexecutes : t.Executes d) :
    t.finish.records = t.start.records ∨ t.finish.records = d.rest t.start.records := by
  have hline : t.line.strip ≠ [] := by
    intro hblank
    have hyes := hexecutes.2
    rw [hblank] at hyes
    exact absurd hyes (by decide)
  obtain ⟨-, htakes, -⟩ := finish_held h hexecutes.1 hline
  exact (htakes.depot h.plain).2

end Turn

end VaultConsole
