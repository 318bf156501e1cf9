import VaultConsole.Proofs.Interpreter.Growth
import VaultConsole.Proofs.Session.Queries

/-!
# Where entries with records come from

An entry that names records comes into the result log in one way only. A line was submitted while no
deletion waited, by a host or by a part outside, and its command looked for these records. So every such
entry in the log of a run leads back to a turn of the run.

* `Interpreter.Finds`: a line whose command answers with records.
* `Interpreter.Adds`: which entries with records may come into the log.
* `Interpreter.keepsAt_adds`: the own acts of a line add no others than what its command found.
* `HostStep.exists_turn_of_mem`: **an entry with records in the log was found in a turn of the run.**
-/

namespace VaultConsole

namespace Course

variable {σ α : Type} {R : σ → σ → Prop} {answer : Text → Act Failure σ Unit}

/-- A course whose own acts keep to a relation from a state on keeps to it, if its lines do. -/
theorem KeepsAt.run [Std.Refl R] [IsTrans σ R] {c : Course σ α} {s : σ} (h : c.KeepsAt R answer s)
    (hcalls : ∀ call ∈ c.calls answer s, R call.2 (answer call.1 call.2).2) :
    R s (c.run answer s).2 := by
  induction c generalizing s with
  | done result => exact Std.Refl.refl s
  | own act next ih => exact trans_of R h.1 (ih _ h.2 hcalls)
  | submit line next ih =>
    have hline := hcalls _ List.mem_cons_self
    exact trans_of R hline (ih _ h fun call hcall => hcalls call (List.mem_cons_of_mem _ hcall))

end Course

namespace Interpreter

/-- No deletion waits, and the command of a line answers with an entry. Nothing changes by it, and the
records that the entry names are there. -/
structure Finds (line : Text) (i : Interpreter) (e : Entry) : Prop where
  idle : i.session.isAwaiting = false
  command : ∃ l, Line.parse line = some l ∧ Session.execute l i.session = (.ok (.entry e), i.session)
  named : ∀ p, e.payload = some p → p.IsOf i.records

/-- All entries with records in the log were there before, or are of a kind. -/
def Adds (P : Entry → Prop) (i i' : Interpreter) : Prop :=
  ∀ e ∈ i'.log.entries, e.payload ≠ none → e ∈ i.log.entries ∨ P e

variable {P Q : Entry → Prop} {i i' : Interpreter} {line : Text}

theorem adds_of_log (h : i'.log.entries = i.log.entries) : Adds P i i' := fun _ he _ => .inl (h ▸ he)

/-- An entry more. -/
theorem adds_append {entry : Entry} (h : entry.payload ≠ none → P entry)
    (hlog : i'.log.entries = i.log.entries ++ [entry]) : Adds P i i' := by
  intro e he hp
  rw [hlog, List.mem_append, List.mem_singleton] at he
  rcases he with he | rfl
  · exact .inl he
  · exact .inr (h hp)

theorem Adds.mono (h : Adds P i i') (hP : ∀ e, P e → Q e) : Adds Q i i' :=
  fun e he hp => (h e he hp).imp_right (hP e)

instance : Wide Session.Anyhow (Adds P) where
  refl _ := adds_of_log rfl
  trans _ _ _ h h' := fun e he hp => (h' e he hp).elim (fun he => h e he hp) .inr
  session _ _ _ := adds_of_log rfl
  answer _ _ hbare := adds_append (fun hp => absurd hbare hp) rfl
  remember _ _ := adds_of_log rfl

theorem adds_announce (line : Text) : (announce line).Keeps (Adds P) :=
  fun _ => adds_append (fun hp => absurd rfl hp) rfl

theorem adds_conclude {entry : Option Entry} (h : ∀ e, entry = some e → e.payload ≠ none → P e) :
    (conclude entry).Keeps (Adds P) := by
  cases entry with
  | some e => exact fun _ => adds_append (h e rfl) rfl
  | none => exact fun _ e he => absurd he List.not_mem_nil

/-- **The own acts of a line add no entries with records but what its command found.** -/
theorem keepsAt_adds {answer : Text → Act Failure Interpreter Unit}
    (h : i.session.depot.store.IsPlain) (hP : ∀ e, i.Finds line e → P e) :
    (course line).KeepsAt (Adds P) answer i := by
  refine keepsAt_course (adds_announce _ i) fun hidle l hl => ?_
  refine keepsAt_dispatch fun entry i' hexecute => adds_conclude fun e he hp => ?_
  rcases cases_of_execute hexecute with ⟨hnone, -⟩ | ⟨e', hsome, hrun⟩ | ⟨account, echo, hsome⟩
  · cases hnone.symm.trans he
  · cases hsome.symm.trans he
    have hrun : Session.execute l i.session = (.ok (.entry e), i'.session) := hrun
    have hlooks : ∀ p, e.payload = some p → i'.session = i.session ∧ p.IsOf i.records :=
      fun p hp => Session.looks_execute l i.session h _ _ p hrun hp
    obtain ⟨p, hp⟩ := Option.ne_none_iff_exists'.1 hp
    refine hP e ⟨hidle, ⟨l, hl, ?_⟩, fun p hp => (hlooks p hp).2⟩
    rw [hrun, (hlooks p hp).1]
  · -- what is told of a secret names no records
    have hbare : ∀ account echo, (Session.secretEntry echo account).payload = none := by
      intro account echo
      cases echo <;> rfl
    cases hsome.symm.trans he
    exact absurd (hbare account echo) hp

end Interpreter

open Interpreter

/-- A turn in which an entry was found. -/
def Turn.Finds (t : Turn) (e : Entry) : Prop := t.start.Finds t.line e

/-- A line begins with a turn of its own. -/
theorem Turn.mem_turnsAt (depth : Nat) (line : Text) (i : Interpreter) :
    ⟨depth, line, i⟩ ∈ turnsAt depth line i := by
  cases depth <;> exact List.mem_cons_self

/-- In a line, with all lines inside it, no entries with records come in but what its turns found. -/
theorem Turn.adds_turnsAt (depth : Nat) {line : Text} {i : Interpreter} (h : i.Ready) :
    Adds (fun e => ∃ t ∈ turnsAt depth line i, t.Finds e) i (submitNested depth line i).2 := by
  induction depth generalizing line i with
  | zero =>
    rw [submitNested_eq]
    refine (keepsAt_adds h.plain fun e he => ⟨_, List.mem_singleton_self _, he⟩).run fun call _ => ?_
    exact adds_of_log rfl
  | succ depth ih =>
    rw [submitNested_eq]
    refine (keepsAt_adds h.plain fun e he => ⟨_, List.mem_cons_self, he⟩).run fun call hcall => ?_
    have hmem : ∀ t ∈ turnsAt depth call.1 call.2, t ∈ turnsAt (depth + 1) line i := fun t ht =>
      List.mem_cons_of_mem _ (List.mem_flatMap.2 ⟨call, hcall, ht⟩)
    -- a line inside begins ready, as all turns of the line do
    have hready : call.2.Ready := (passage_turnsAt _ h).starts _ (hmem _ (mem_turnsAt depth call.1 call.2))
    rw [answerAt, Act.snd_discard]
    exact (ih hready).mono fun e => Exists.imp fun t ht => ⟨hmem t ht.1, ht.2⟩

namespace HostStep

/-- What a host does itself adds nothing to the log. -/
theorem adds_course {P : Entry → Prop} (s : HostStep) : s.course.Keeps (Adds P) := by
  have hrecall : ∀ i step, (Interpreter.recallBy step i).log = i.log := by
    intro i step
    unfold recallBy
    rcases step i.history with ⟨_ | text, history⟩ <;> rfl
  refine s.allows_step (fun _ _ => adds_of_log rfl) (fun i step => ?_) fun _ => adds_of_log rfl
  exact adds_of_log (congrArg (·.entries) (hrecall i step))

theorem adds_answer (line : Text) {i : Interpreter} (h : i.Ready) :
    Adds (fun e => ∃ t ∈ turnsOf line i, t.Finds e) i (answer line i).2 := by
  rw [answer, Act.snd_discard]
  exact Turn.adds_turnsAt _ h

theorem adds_run (s : HostStep) {i : Interpreter} (h : i.Ready) :
    Adds (fun e => ∃ t ∈ s.turns i, t.Finds e) i (s.run i) := by
  refine ((adds_course s).keepsAt i).run fun call hcall => ?_
  have hmem : ∀ t ∈ turnsOf call.1 call.2, t ∈ s.turns i := fun t ht =>
    List.mem_flatMap.2 ⟨call, hcall, ht⟩
  have hready : call.2.Ready := (s.passage_run h).starts _ (hmem _ (Turn.mem_turnsAt _ call.1 call.2))
  exact (adds_answer call.1 hready).mono fun e => Exists.imp fun t ht => ⟨hmem t ht.1, ht.2⟩

theorem adds_sequence (steps : List HostStep) {i : Interpreter} (h : i.Ready) :
    Adds (fun e => ∃ t ∈ trace steps i, t.Finds e) i (sequence steps i) := by
  induction steps generalizing i with
  | nil => exact adds_of_log rfl
  | cons s rest ih =>
    have hstep : Adds (fun e => ∃ t ∈ trace (s :: rest) i, t.Finds e) i (s.run i) :=
      (s.adds_run h).mono fun e => Exists.imp fun t ht => ⟨List.mem_append_left _ ht.1, ht.2⟩
    have hrest : Adds (fun e => ∃ t ∈ trace (s :: rest) i, t.Finds e) (s.run i) (sequence rest (s.run i)) :=
      (ih (s.passage_run h).ready).mono fun e => Exists.imp fun t ht => ⟨List.mem_append_right _ ht.1, ht.2⟩
    exact trans_of (Adds _) hstep hrest

/-- **An entry with records in the log of a run was found in a turn of it.** -/
theorem exists_turn_of_mem {session : Session} (h : session.depot.store.IsPlain)
    {steps : List HostStep} {e : Entry} {p : Payload}
    (he : e ∈ (sequence steps (start session)).log.entries) (hp : e.payload = some p) :
    ∃ t ∈ trace steps (start session), t.Finds e := by
  rcases adds_sequence steps (ready_start h) e he (by simp [hp]) with hbefore | hfound
  · cases hbefore
  · exact hfound

end HostStep

end VaultConsole
