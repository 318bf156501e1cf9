import Mathlib.Data.List.DropRight
import VaultConsole.Line.Basic

/-!
# Texts without blanks at their ends

A text that was stripped of its blanks has none to lose, so it does not matter how often a line is
stripped before it is read.

* `Text.strip_strip`: stripping twice.
* `Line.parse_strip`: the parts of a line that was stripped.
-/

namespace VaultConsole

theorem Text.strip_eq (t : Text) :
    t.strip = (t.dropWhile CodePoint.isBlank).rdropWhile CodePoint.isBlank := rfl

/-- A text that was stripped begins with no blank: it is the front of one that does not. -/
theorem Text.dropWhile_strip (t : Text) : t.strip.dropWhile CodePoint.isBlank = t.strip := by
  rw [List.dropWhile_eq_self_iff]
  intro hpos
  obtain ⟨rest, hrest⟩ := List.rdropWhile_prefix CodePoint.isBlank (t.dropWhile CodePoint.isBlank)
  rw [← Text.strip_eq] at hrest
  have hfront : 0 < (t.dropWhile CodePoint.isBlank).length := by
    rw [← hrest, List.length_append]
    omega
  have hhead : t.strip[0] = (t.dropWhile CodePoint.isBlank)[0] := by
    simp only [← hrest, List.getElem_append_left hpos]
  rw [hhead]
  exact List.dropWhile_eq_self_iff.1 (List.dropWhile_idempotent CodePoint.isBlank t) hfront

@[simp] theorem Text.strip_strip (t : Text) : t.strip.strip = t.strip := by
  rw [Text.strip_eq t.strip, Text.dropWhile_strip, Text.strip_eq]
  exact List.rdropWhile_idempotent _ _

@[simp] theorem Line.parse_strip (t : Text) : Line.parse t.strip = Line.parse t := by
  unfold Line.parse
  rw [Text.strip_strip]

/-- A line that is read is not blank. -/
theorem Line.strip_ne_nil_of_parse {t : Text} {l : Line} (h : Line.parse t = some l) :
    t.strip ≠ [] := by
  intro hblank
  unfold Line.parse at h
  simp [hblank] at h

theorem Line.exists_of_parse {t : Text} (h : t.strip ≠ []) : ∃ l, Line.parse t = some l := by
  unfold Line.parse
  simp [h]

end VaultConsole
