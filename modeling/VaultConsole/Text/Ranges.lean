import VaultConsole.Text.Basic

/-!
# Classes of code points

A class of code points is an ascending list of ranges; `inRanges` looks a number up in it and
stops at the first range that begins beyond it.
-/

namespace VaultConsole.Text

/-- Whether a number lies in one of the ranges, which are in ascending order. -/
def inRanges : List (Nat × Nat) → Nat → Bool
  | [], _ => false
  | (first, last) :: rest, n =>
    if n < first then false else n ≤ last || inRanges rest n

/-- The first code point of the range that a number lies in. -/
def rangeStart? : List (Nat × Nat) → Nat → Option Nat
  | [], _ => none
  | (first, last) :: rest, n =>
    if n < first then none else if n ≤ last then some first else rangeStart? rest n

theorem mem_of_inRanges {rs : List (Nat × Nat)} {n : Nat} (h : inRanges rs n = true) :
    ∃ r ∈ rs, r.1 ≤ n ∧ n ≤ r.2 := by
  induction rs with
  | nil => simp [inRanges] at h
  | cons r rest ih =>
    obtain ⟨a, b⟩ := r
    simp only [inRanges] at h
    split at h
    · exact absurd h (by simp)
    · next hn =>
      rcases Bool.or_eq_true _ _ |>.mp h with hb | hr
      · exact ⟨(a, b), by simp, by simpa using hn, by simpa using hb⟩
      · obtain ⟨r, hr, hle⟩ := ih hr
        exact ⟨r, by simp [hr], hle⟩

end VaultConsole.Text
