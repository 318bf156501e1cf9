import VaultConsole.Proofs.Interpreter.Turn

/-!
# No deletion without a request that was confirmed

A host drives an interpreter: it submits lines, edits the line that is being typed, runs the effects
that the scheduler holds, and the world goes on in between. Parts outside may fail and may submit
further lines, so a run is told by all turns that begin in it, those inside others included.

* `HostStep`, `HostStep.sequence`: what a host does, and a run of it.
* `HostStep.trace`: the turns of a run, in the order in which they begin.
* `HostStep.holds_sequence`: what is so throughout a run.
* `Turn.Accounted`: every record that is lost in a turn was asked for by name, confirmed, and lost
  once.
* `HostStep.accounted_trace`: **every run of an interpreter over a store in memory is accounted for**.
-/

namespace VaultConsole

open Interpreter

theorem Interpreter.session_recallBy (step : History → Option Text × History) (i : Interpreter) :
    (i.recallBy step).session = i.session := by
  unfold recallBy
  rcases step i.history with ⟨_ | text, history⟩ <;> rfl

/-- What a host does with an interpreter. -/
inductive HostStep
  | submit (line : Text)
  /-- The line that is being typed is submitted. -/
  | submitBuffer
  | edit (text : Text)
  | recallPrevious
  | recallNext
  | complete
  /-- The effects that the scheduler holds are carried out, each after a wait. -/
  | runScheduled (wait : Delay → Act Failure World Unit)
  /-- The world goes on. -/
  | elapse (change : World → World)

namespace HostStep

/-- What is done for a step of the host; its lines are submitted along the way. -/
def course : HostStep → Course Interpreter Unit
  | submit line => Course.call line
  | submitBuffer => do Course.call (← Course.ofAct (Act.look (·.buffer)))
  | edit text => Course.ofAct (Act.change (·.setBuffer text))
  | recallPrevious => Course.ofAct (Act.change (·.recallPrevious))
  | recallNext => Course.ofAct (Act.change (·.recallNext))
  | complete => Course.ofAct (Act.change (·.complete))
  | runScheduled wait =>
    scheduledCourse fun delay => inSession (Session.inDepot (Depot.inWorld (wait delay)))
  | elapse change => Course.ofAct (inSession (Session.inWorld change))

/-- A line of the host. -/
def answer (line : Text) : Act Failure Interpreter Unit := discard (Interpreter.submit line)

/-- The state after a step; a step that fails does not stop the host. -/
def run (s : HostStep) (i : Interpreter) : Interpreter := (s.course.run answer i).2

theorem run_submit (line : Text) (i : Interpreter) :
    (submit line).run i = (Interpreter.submit line i).2 := Act.snd_discard _ i

/-- A run of the host. -/
def sequence (steps : List HostStep) (i : Interpreter) : Interpreter :=
  steps.foldl (fun i s => s.run i) i

/-- The turns of a line of the host. -/
def turnsOf (line : Text) (i : Interpreter) : List Turn :=
  Turn.turnsAt i.session.pendingReactions line i

/-- The turns of a step. -/
def turns (s : HostStep) (i : Interpreter) : List Turn :=
  (s.course.calls answer i).flatMap fun (line, i) => turnsOf line i

/-- The turns of a run, in the order in which they begin. -/
def trace : List HostStep → Interpreter → List Turn
  | [], _ => []
  | s :: rest, i => s.turns i ++ trace rest (s.run i)

/-- What a host does itself keeps to a relation, if what becomes of scheduled effects and of the world
does. -/
theorem keeps_course_of {R : Session → Session → Prop} [Std.Refl R]
    (htaken : Session.takeScheduled.Keeps R)
    (hwait : ∀ act : Act Failure World Unit, (Session.inDepot (Depot.inWorld act)).Keeps R)
    (hcarried : ∀ effect, (carryOut effect).Keeps (Along R))
    (helapse : ∀ change, (Session.inWorld change).Keeps R) (s : HostStep) :
    s.course.Keeps (Along R) := by
  have hsame : ∀ {f : Interpreter → Interpreter}, (∀ i, (f i).session = i.session) →
      (Course.ofAct (Act.change f : Act Failure Interpreter Unit)).Keeps (Along R) :=
    fun hf => .ofAct fun i => along_of_same (hf i)
  cases s with
  | submit line => exact .call line
  | submitBuffer => exact (Course.Keeps.ofAct (Act.Keeps.look _)).bind fun line => .call line
  | edit text => exact hsame fun _ => rfl
  | recallPrevious => exact hsame (session_recallBy History.previous)
  | recallNext => exact hsame (session_recallBy History.next)
  | complete => exact hsame fun _ => rfl
  | runScheduled wait =>
    refine (Course.Keeps.ofAct (keeps_inSession htaken)).bind fun effects => ?_
    refine .forM fun effect _ => ?_
    exact (Course.Keeps.ofAct (keeps_inSession (hwait _))).bind fun _ => hcarried _
  | elapse change => exact .ofAct (keeps_inSession (helapse change))

/-- What a host does itself leaves the session as it is. -/
theorem keeps_course (s : HostStep) : s.course.Keeps (Along Session.Still) :=
  s.keeps_course_of Session.keeps_takeScheduled Session.keeps_inDepotWorld keeps_carryOut
    Session.keeps_inWorld

/-- A run keeps to a relation if what the host does itself and what is done for lines does. -/
theorem keeps_sequence {Q : Interpreter → Interpreter → Prop} [Std.Refl Q] [IsTrans Interpreter Q]
    (hstep : ∀ s : HostStep, s.course.Keeps Q) (hline : ∀ line, (Interpreter.course line).Keeps Q)
    (steps : List HostStep) (i : Interpreter) : Q i (sequence steps i) := by
  have hanswer : ∀ line, (answer line).Keeps Q := by
    intro line i
    rw [answer, Act.snd_discard]
    exact keeps_submitNested hline _ line i
  induction steps generalizing i with
  | nil => exact Std.Refl.refl i
  | cons s rest ih =>
    have hrun : Q i (s.run i) := (hstep s).run hanswer i
    exact trans_of Q hrun (ih (s.run i))

/-- What the courses of lines and of steps keep up is so throughout a run: after its steps, and where any
turn of it begins and where it ends. -/
theorem holds_sequence {I : Interpreter → Prop}
    (hline : ∀ line i, I i → (Interpreter.course line).Meets I (fun _ => I) (fun _ => I) i)
    (hstep : ∀ (s : HostStep) i, I i → s.course.Meets I (fun _ => I) (fun _ => I) i) {i : Interpreter} (h : I i)
    (steps : List HostStep) :
    I (sequence steps i) ∧ ∀ t ∈ trace steps i, I t.start ∧ I t.finish := by
  have hanswer : ∀ line i, I i → I (answer line i).2 := by
    intro line i hi
    rw [answer, Act.snd_discard]
    exact holds_submitNested hline _ line hi
  induction steps generalizing i with
  | nil => exact ⟨h, fun t ht => absurd ht List.not_mem_nil⟩
  | cons s rest ih =>
    have hrun : I (s.run i) := (hstep s i h).run hanswer
    obtain ⟨hend, hturns⟩ := ih hrun
    refine ⟨hend, fun t ht => ?_⟩
    rw [trace, List.mem_append] at ht
    rcases ht with ht | ht
    · obtain ⟨call, hcall, ht⟩ := List.mem_flatMap.1 ht
      have hcalled : I call.2 := (hstep s i h).of_mem_calls hanswer hcall
      exact Turn.holds_of_mem_turnsAt hline hcalled ht
    · exact hturns t ht

theorem passage_answer (line : Text) (i : Interpreter) (h : i.Ready) :
    Passage (turnsOf line i) i (answer line i).2 := by
  rw [answer, Act.snd_discard]
  exact Turn.passage_turnsAt _ h

theorem passage_run (s : HostStep) {i : Interpreter} (h : i.Ready) :
    Passage (s.turns i) i (s.run i) := .of_keeps turnsOf passage_answer s.keeps_course h

/-- What passes in a run. -/
theorem passage_sequence (steps : List HostStep) {i : Interpreter} (h : i.Ready) :
    Passage (trace steps i) i (sequence steps i) := by
  induction steps generalizing i with
  | nil => exact .of_still h (Std.Refl.refl i)
  | cons s rest ih =>
    have hstep := s.passage_run h
    exact hstep.trans (ih hstep.ready)

/-- The turns in a turn of a run are turns of the run. -/
theorem turns_subset_trace {steps : List HostStep} {i : Interpreter} {t : Turn}
    (h : t ∈ trace steps i) : t.turns ⊆ trace steps i := by
  induction steps generalizing i with
  | nil => cases h
  | cons s rest ih =>
    rw [trace, List.mem_append] at h
    rcases h with h | h
    · obtain ⟨call, hcall, ht⟩ := List.mem_flatMap.1 h
      intro u hu
      refine List.mem_append_left _ (List.mem_flatMap.2 ⟨call, hcall, ?_⟩)
      exact Turn.turns_subset ht hu
    · exact fun u hu => List.mem_append_right _ (ih h hu)

/-- The turns of a run have all the room that they need. -/
theorem pending_start_le {steps : List HostStep} {i : Interpreter} {t : Turn}
    (h : t ∈ trace steps i) : t.start.pending ≤ t.depth := by
  induction steps generalizing i with
  | nil => cases h
  | cons s rest ih =>
    rw [trace, List.mem_append] at h
    rcases h with h | h
    · obtain ⟨call, -, ht⟩ := List.mem_flatMap.1 h
      exact Turn.pending_start_le le_rfl ht
    · exact ih h

end HostStep

/-- What is lost in the turns of a run was asked for and confirmed. -/
structure Turn.Accounted (trace : List Turn) : Prop where
  /-- Every turn, also one inside another, is one call of `submit`. -/
  submitted : ∀ t ∈ trace, t.finish = (Interpreter.submit t.line t.start).2
  /-- A record that is there before a turn and not after it is taken away in the turn, by one that
  began with a deletion that hits the record behind the gate, and confirmed it. -/
  removed : ∀ t ∈ trace, ∀ key ∈ t.start.records.keys, key ∉ t.finish.records.keys →
    ∃ u ∈ t.turns, u ∈ trace ∧ u.Removes key
  /-- A turn that confirms a deletion takes away all records that the deletion hits, or none, and
  leaves all others as they are. -/
  exact : ∀ t ∈ trace, ∀ d, t.Executes d →
    t.finish.records = t.start.records ∨ t.finish.records = d.rest t.start.records
  /-- A turn that asks for a deletion puts it behind the gate, where the next turn finds it. -/
  armed : ∀ before t u after d, trace = before ++ t :: u :: after → t.Arms d →
    u.start.slot = some d
  /-- The deletion that a turn confirms was asked for by an earlier turn. Since then it was behind
  the gate, and no turn asked for a deletion or confirmed one. -/
  requested : ∀ before t after d, trace = before ++ t :: after → t.Executes d →
    ∃ early a late, before = early ++ a :: late ∧ a.Arms d ∧
      ∀ u ∈ late, u.start.slot = some d ∧ ∀ d', ¬ u.Arms d' ∧ ¬ u.Executes d'
  /-- After a turn that confirms, another one can confirm only what was asked for in between. -/
  once : ∀ before t between u after d d', trace = before ++ t :: between ++ u :: after →
    t.Executes d → u.Executes d' → ∃ a ∈ between, a.Arms d'

namespace HostStep

theorem ready_start {session : Session} (h : session.depot.store.IsPlain) :
    (Interpreter.start session).Ready := .of_idle rfl h

/-- **No record is deleted without a request that was confirmed.** Over a store in memory, whatever a
host does and whatever parts outside do, every turn of a run is accounted for. -/
theorem accounted_trace {session : Session} (h : session.depot.store.IsPlain)
    (steps : List HostStep) : Turn.Accounted (trace steps (Interpreter.start session)) := by
  have hpassage := passage_sequence steps (ready_start h)
  refine ⟨fun t ht => Turn.finish_eq_submit (pending_start_le ht), fun t ht key hkey hlost => ?_,
    fun t ht d hd => ?_, ?_, ?_, ?_⟩
  · obtain ⟨u, hu, hremoves⟩ := (Turn.passage (hpassage.starts t ht)).losses key hkey hlost
    exact ⟨u, hu, turns_subset_trace ht hu, hremoves⟩
  · exact Turn.records_finish (hpassage.starts t ht) hd
  · intro before t u after d htrace harms
    have hchain := hpassage.chain
    rw [htrace] at hchain
    exact (hchain.after_arms harms).1
  · intro before t after d htrace hexecutes
    have hchain := hpassage.chain
    rw [htrace] at hchain
    -- at the beginning nothing is behind the gate
    rcases hchain.origin hexecutes with ⟨hslot, -⟩ | ⟨early, a, late, hbefore, harms, hholds⟩
    · cases hslot
    · refine ⟨early, a, late, hbefore, harms, fun u hu => ⟨(hholds u hu).1, fun d' => ⟨?_, ?_⟩⟩⟩
      · exact fun ha => absurd (ha.1.symm.trans (hholds u hu).1) (by simp)
      · exact (hholds u hu).2 d'
  · intro before t between u after d d' htrace hexecutes hexecutes'
    have hchain := hpassage.chain
    rw [htrace, List.append_assoc, List.cons_append] at hchain
    -- the first of the two left nothing behind the gate
    have hchain' := hchain.after_executes hexecutes
    rcases hchain'.origin hexecutes' with ⟨hslot, -⟩ | ⟨early, a, late, hbetween, harms, -⟩
    · cases hslot
    · exact ⟨a, by simp [hbetween], harms⟩

/-- A session over one vault. The first page that is shown asks for the deletion of the vault, by a
name in other letters, and confirms it. -/
def sampleSession : Session :=
  { Session.bare
      ⟨World.fresh 0 [],
        .inMemory ⟨[⟨"v", "Home", "", Store.sampleMoment, Store.sampleMoment⟩], []⟩⟩ with
    navigator := some (.outside ⟨[⟨["vault rm --name HOME", " Yes "], none⟩], none⟩) }

theorem accounted_sampleSession :
    sampleSession.depot.store.IsPlain ∧
      Turn.Accounted (trace [.submit "open vaults"] (Interpreter.start sampleSession)) :=
  ⟨⟨rfl, rfl⟩, accounted_trace ⟨rfl, rfl⟩ [.submit "open vaults"]⟩

/-- The vault is lost, in the last of three turns. -/
example :
    (trace [.submit "open vaults"] (Interpreter.start sampleSession)).map
        (fun t => (t.line, t.finish.records.vaults.map (·.id))) =
      ([("open vaults", []), ("vault rm --name HOME", ["v"]), (" Yes ", [])] :
        List (Text × List Text)) := by
  decide +kernel

end HostStep

end VaultConsole
