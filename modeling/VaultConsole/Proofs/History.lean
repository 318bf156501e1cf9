import Mathlib.Logic.Function.Iterate
import VaultConsole.History

/-!
# Walking through the history

Read as a number, the cursor of a history is a place between the oldest line and the end behind the
newest one. A step back goes to the place before and stops at the oldest line, a step forward goes to
the place after and stops at the end, and a new line or a reset goes to the end. So steps back are
undone by as many steps forward.

* `HistoryStep`: what can be done with a history.
* `History.InRange`: the cursor is at a line. `HistoryStep.inRange_run`: so it is after every run.
* `History.InRange.next_previous`: a step forward undoes a step back.
* `History.Walks`: how a history of some lines answers and moves.
* `HistoryStep.walks_run`: **so does every history, whatever was done with it.**
-/

namespace VaultConsole

/-- One thing that is done with a history. -/
inductive HistoryStep
  | record (line : Text)
  | previous
  | next
  | resetCursor

namespace HistoryStep

/-- What a step gives for the input line, and the history after it. -/
def step : HistoryStep → History → Option Text × History
  | record line, h => (none, h.record line)
  | previous, h => h.previous
  | next, h => h.next
  | resetCursor, h => (none, h.resetCursor)

/-- The history after a run. -/
def run (steps : List HistoryStep) (h : History) : History := steps.foldl (fun h s => (s.step h).2) h

/-- The lines that are recorded in a run. -/
def recorded (steps : List HistoryStep) : List Text :=
  steps.filterMap fun
    | record line => some line
    | _ => none

end HistoryStep

namespace History

/-- The cursor is at a line, if there is one. -/
def InRange (h : History) : Prop := ∀ place, h.cursor = some place → place < h.entries.length

variable {h : History}

theorem InRange.position_le (hr : h.InRange) : h.position ≤ h.entries.length := by
  unfold position
  cases hc : h.cursor with
  | none => exact Nat.le_refl _
  | some place => exact Nat.le_of_lt (hr place hc)

/-- The cursor is told by its place. -/
theorem InRange.cursor_eq (hr : h.InRange) :
    h.cursor = if h.position < h.entries.length then some h.position else none := by
  cases hc : h.cursor with
  | none => simp [position, hc]
  | some place => simp [position, hc, hr place hc]

/-- The lines and the place tell a history. -/
theorem InRange.eq_of_position {h' : History} (hr : h.InRange) (hr' : h'.InRange)
    (hentries : h.entries = h'.entries) (hposition : h.position = h'.position) : h = h' := by
  have hcursor : h.cursor = h'.cursor := by
    rw [hr.cursor_eq, hr'.cursor_eq, hentries, hposition]
  cases h
  cases h'
  exact congr (congrArg _ hentries) hcursor

/-! ## Steps -/

theorem previous_of_ne_nil (hne : h.entries ≠ []) :
    h.previous = (h.entries[h.position - 1]?, { h with cursor := some (h.position - 1) }) := by
  rw [previous, if_neg (by simpa using hne)]

theorem previous_of_nil (hnil : h.entries = []) : h.previous = (none, h) := by
  rw [previous, if_pos (by simpa using hnil)]

/-- Without a cursor there is no step forward. -/
theorem InRange.next_of_end (hr : h.InRange) (hend : h.position = h.entries.length) :
    h.next = (none, h) := by
  have hcursor := hr.cursor_eq
  rw [if_neg (by omega)] at hcursor
  rw [next, hcursor]

/-- Before the end a step forward goes to the place after, where the line or the end is. -/
theorem InRange.next_of_lt (hr : h.InRange) (hlt : h.position < h.entries.length) :
    h.next =
      if h.position + 1 < h.entries.length then
        (h.entries[h.position + 1]?, { h with cursor := some (h.position + 1) })
      else (some [], { h with cursor := none }) := by
  have hcursor := hr.cursor_eq
  rw [if_pos hlt] at hcursor
  rw [next, hcursor]

/-- A step back from an end or a line goes to a line. -/
theorem InRange.pred_position_lt (hr : h.InRange) (hne : h.entries ≠ []) :
    h.position - 1 < h.entries.length := by
  have hpos := List.length_pos_iff.2 hne
  have hle := hr.position_le
  omega

theorem inRange_resetCursor (h : History) : h.resetCursor.InRange := by
  rintro place ⟨⟩

theorem InRange.previous (hr : h.InRange) : h.previous.2.InRange := by
  by_cases hnil : h.entries = []
  · rw [previous_of_nil hnil]
    exact hr
  · rw [previous_of_ne_nil hnil]
    rintro place ⟨⟩
    exact hr.pred_position_lt hnil

theorem InRange.next (hr : h.InRange) : h.next.2.InRange := by
  rcases Nat.eq_or_lt_of_le hr.position_le with hend | hlt
  · rw [hr.next_of_end hend]
    exact hr
  · rw [hr.next_of_lt hlt]
    split
    · next hinside =>
      rintro place ⟨⟩
      exact hinside
    · rintro place ⟨⟩

theorem entries_previous (h : History) : h.previous.2.entries = h.entries := by
  unfold previous
  split <;> rfl

theorem entries_next (h : History) : h.next.2.entries = h.entries := by
  unfold next
  split
  · rfl
  · split <;> rfl

/-- **A step forward undoes a step back.** -/
theorem InRange.next_previous (hr : h.InRange) (hpos : 0 < h.position) : h.previous.2.next.2 = h := by
  have hle := hr.position_le
  have hne : h.entries ≠ [] := List.ne_nil_of_length_pos (by omega)
  have hback : h.previous.2.position = h.position - 1 := by rw [previous_of_ne_nil hne]; rfl
  have hentries := h.entries_previous
  refine hr.previous.next.eq_of_position hr ((entries_next _).trans hentries) ?_
  rw [hr.previous.next_of_lt (by rw [hback, hentries]; omega), hback, hentries,
    Nat.sub_add_cancel hpos]
  -- the step back left a line or the end, and the step forward is there again
  split
  · rfl
  · show h.entries.length = h.position
    omega

/-- The history some steps back. -/
def back (k : Nat) (h : History) : History := (fun h => h.previous.2)^[k] h

/-- The history some steps forward. -/
def forward (k : Nat) (h : History) : History := (fun h => h.next.2)^[k] h

/-- Steps back are undone by as many steps forward. -/
theorem InRange.forward_back (hr : h.InRange) {k : Nat} (hk : k ≤ h.position) :
    (h.back k).forward k = h := by
  induction k generalizing h with
  | zero => rfl
  | succ k ih =>
    have hpos : 0 < h.position := by omega
    have hne : h.entries ≠ [] := List.ne_nil_of_length_pos (Nat.lt_of_lt_of_le hpos hr.position_le)
    have hback : h.previous.2.position = h.position - 1 := by rw [previous_of_ne_nil hne]; rfl
    have hinner : (h.previous.2.back k).forward k = h.previous.2 := ih hr.previous (by omega)
    calc (h.back (k + 1)).forward (k + 1)
        = ((h.previous.2.back k).forward k).next.2 := Function.iterate_succ_apply' _ k _
      _ = h := by rw [hinner, hr.next_previous hpos]

/-- How a history of some lines answers and moves. -/
structure Walks (lines : List Text) (h : History) : Prop where
  entries : h.entries = lines
  inRange : h.InRange
  /-- A step back goes to the place before, or stays at the oldest line, and gives the line there. -/
  previous : h.entries ≠ [] → ∃ hplace : h.position - 1 < h.entries.length,
    h.previous.1 = some h.entries[h.position - 1] ∧ h.previous.2.position = h.position - 1
  /-- A step forward to a line gives that line. -/
  next : ∀ hplace : h.position + 1 < h.entries.length,
    h.next.1 = some h.entries[h.position + 1] ∧ h.next.2.position = h.position + 1
  /-- A step forward from the newest line gives an empty one. -/
  next_newest : h.position + 1 = h.entries.length →
    h.next.1 = some [] ∧ h.next.2.position = h.entries.length
  /-- Where there are no lines, or none after the cursor, there is no step. -/
  previous_nil : h.entries = [] → h.previous = (none, h)
  next_end : h.position = h.entries.length → h.next = (none, h)
  /-- Steps leave the lines as they are. -/
  entries_previous : h.previous.2.entries = h.entries
  entries_next : h.next.2.entries = h.entries
  /-- A new line goes behind the others, and the cursor behind it. -/
  record : ∀ line, (h.record line).entries = h.entries ++ [line] ∧
    (h.record line).position = (h.record line).entries.length
  resetCursor : h.resetCursor.entries = h.entries ∧ h.resetCursor.position = h.entries.length
  /-- Steps back are undone by as many steps forward. -/
  forward_back : ∀ k ≤ h.position, (h.back k).forward k = h

theorem InRange.walks (hr : h.InRange) : Walks h.entries h where
  entries := rfl
  inRange := hr
  previous hne := by
    refine ⟨hr.pred_position_lt hne, ?_⟩
    rw [previous_of_ne_nil hne]
    exact ⟨List.getElem?_eq_getElem _, rfl⟩
  next hplace := by
    rw [hr.next_of_lt (by omega), if_pos hplace]
    exact ⟨List.getElem?_eq_getElem hplace, rfl⟩
  next_newest hnewest := by
    rw [hr.next_of_lt (by omega), if_neg (by omega)]
    exact ⟨rfl, rfl⟩
  previous_nil := previous_of_nil
  next_end := hr.next_of_end
  entries_previous := h.entries_previous
  entries_next := h.entries_next
  record _ := ⟨rfl, rfl⟩
  resetCursor := ⟨rfl, rfl⟩
  forward_back _ := hr.forward_back

end History

namespace HistoryStep

open History (InRange Walks)

theorem inRange_step (s : HistoryStep) {h : History} (hr : h.InRange) : (s.step h).2.InRange := by
  cases s with
  | record line => rintro place ⟨⟩
  | previous => exact hr.previous
  | next => exact hr.next
  | resetCursor => exact h.inRange_resetCursor

theorem inRange_run (steps : List HistoryStep) {h : History} (hr : h.InRange) :
    (run steps h).InRange := by
  induction steps generalizing h with
  | nil => exact hr
  | cons s rest ih => exact ih (s.inRange_step hr)

theorem entries_step (s : HistoryStep) (h : History) :
    (s.step h).2.entries = h.entries ++ recorded [s] := by
  cases s with
  | record line => rfl
  | previous => exact h.entries_previous.trans (List.append_nil _).symm
  | next => exact h.entries_next.trans (List.append_nil _).symm
  | resetCursor => exact (List.append_nil _).symm

theorem entries_run (steps : List HistoryStep) (h : History) :
    (run steps h).entries = h.entries ++ recorded steps := by
  induction steps generalizing h with
  | nil => exact (List.append_nil _).symm
  | cons s rest ih =>
    calc (run rest (s.step h).2).entries
        = (h.entries ++ recorded [s]) ++ recorded rest := by rw [ih, entries_step]
      _ = h.entries ++ recorded (s :: rest) := by
        rw [List.append_assoc, recorded, recorded, ← List.filterMap_append]
        rfl

/-- **A history walks through the lines that were recorded, whatever was done with it.** -/
theorem walks_run (steps : List HistoryStep) : Walks (recorded steps) (run steps .empty) := by
  have hr : (run steps .empty).InRange := inRange_run steps (by rintro place ⟨⟩)
  have hentries : (run steps .empty).entries = recorded steps := entries_run steps .empty
  rw [← hentries]
  exact hr.walks

/-- After two lines, three steps back and two forward lead behind the newest line. -/
example : run [.record "a", .record "b", .previous, .previous, .previous, .next, .next] .empty =
    ⟨["a", "b"], none⟩ := by decide

end HistoryStep

end VaultConsole
