import Mathlib.Tactic.IntervalCases
import VaultConsole.Json.Reader
import VaultConsole.Json.Writer

/-!
# Quoted texts are read as they were written

A text stands between quotes with its quotes, backslashes and controls escaped. Each code point
is read from what stands for it in one turn of the reader, so the text is read again, whatever it
holds: line ends, surrogates on their own, or nothing.

* `Json.readQuoted_escapedPoint`: one code point.
* `Json.readQuoted_escaped`: **a text between quotes is read as the text.**
-/

namespace VaultConsole.Json

/-- The digits of a control, in an escape. -/
theorem hexFour?_paddedHex {n : Nat} (hn : n < 0x20) (next : CodePoint) (rest : Text) :
    hexFour? (Text.paddedHex 4 n ++ next :: rest) = some (n, next :: rest) := by
  interval_cases n <;> rfl

/-- What stands for a code point: a backslash and a letter, a backslash and a number, or the code
point itself. -/
theorem escapedPoint_cases (c : CodePoint) :
    (∃ e : CodePoint, e ≠ 'u' ∧ e ≠ '\r' ∧ shortEscape? e = some c ∧
      escapedPoint false c = [CodePoint.ofChar '\\', e]) ∨
    (c.val < 0x20 ∧ escapedPoint false c =
      CodePoint.ofChar '\\' :: CodePoint.ofChar 'u' :: Text.paddedHex 4 c.val) ∨
    (0x20 ≤ c.val ∧ c ≠ '"' ∧ c ≠ '\\' ∧ escapedPoint false c = [c]) := by
  unfold escapedPoint
  by_cases hq : c = Text.doubleQuote
  · rw [if_pos hq, hq]
    exact .inl ⟨'"', by decide, by decide, by decide, rfl⟩
  by_cases hb : c = Text.backslash
  · rw [if_neg hq, if_pos hb, hb]
    exact .inl ⟨'\\', by decide, by decide, by decide, rfl⟩
  by_cases hn : c = '\n'
  · rw [if_neg hq, if_neg hb, if_pos hn, hn]
    exact .inl ⟨'n', by decide, by decide, by decide, rfl⟩
  by_cases hr : c = '\r'
  · rw [if_neg hq, if_neg hb, if_neg hn, if_pos hr, hr]
    exact .inl ⟨'r', by decide, by decide, by decide, rfl⟩
  by_cases ht : c = '\t'
  · rw [if_neg hq, if_neg hb, if_neg hn, if_neg hr, if_pos ht, ht]
    exact .inl ⟨'t', by decide, by decide, by decide, rfl⟩
  rw [if_neg hq, if_neg hb, if_neg hn, if_neg hr, if_neg ht]
  by_cases hf : c.val = 0xC
  · rw [if_pos hf, show c = CodePoint.ofNat 0xC from CodePoint.ext hf]
    exact .inl ⟨'f', by decide, by decide, by decide, rfl⟩
  by_cases hbs : c.val = 0x8
  · rw [if_neg hf, if_pos hbs, show c = CodePoint.ofNat 0x8 from CodePoint.ext hbs]
    exact .inl ⟨'b', by decide, by decide, by decide, rfl⟩
  rw [if_neg hf, if_neg hbs]
  by_cases hc : c.val < 0x20
  · rw [if_pos hc]
    exact .inr (.inl ⟨hc, rfl⟩)
  · rw [if_neg hc, Bool.false_and, if_neg (by decide)]
    exact .inr (.inr ⟨by omega, hq, hb, rfl⟩)

section
variable (opening fuel : Nat)

theorem readQuoted_plain {c : CodePoint} (rest : Text) (hq : c ≠ '"') (hb : c ≠ '\\')
    (hc : 0x20 ≤ c.val) :
    readQuoted opening (fuel + 1) (c :: rest) =
      readQuoted.prepend c (readQuoted opening fuel rest) := by
  rw [readQuoted.eq_def]
  simp only
  rw [if_neg hq, if_neg hb, if_neg (by omega)]

theorem readQuoted_short {e d : CodePoint} (rest : Text) (hu : e ≠ 'u')
    (he : shortEscape? e = some d) :
    readQuoted opening (fuel + 1) ('\\' :: e :: rest) =
      readQuoted.prepend d (readQuoted opening fuel rest) := by
  rw [readQuoted, if_neg (by decide), if_pos rfl]
  simp only
  rw [if_neg hu, he]

theorem readQuoted_control {c next : CodePoint} (rest : Text) (hc : c.val < 0x20) :
    readQuoted opening (fuel + 1) ('\\' :: 'u' :: (Text.paddedHex 4 c.val ++ next :: rest)) =
      readQuoted.prepend c (readQuoted opening fuel (next :: rest)) := by
  rw [readQuoted, if_neg (by decide), if_pos rfl]
  simp only [if_true, hexFour?_paddedHex hc]
  rw [if_neg (by omega), show CodePoint.ofNat c.val = c by unfold CodePoint.ofNat; rw [dif_pos c.isLt]]

/-- **A code point is read from what stands for it**, in one turn, if something follows. -/
theorem readQuoted_escapedPoint (c next : CodePoint) (rest : Text) :
    readQuoted opening (fuel + 1) (escapedPoint false c ++ next :: rest) =
      readQuoted.prepend c (readQuoted opening fuel (next :: rest)) := by
  rcases escapedPoint_cases c with ⟨e, hu, -, he, hc⟩ | ⟨hlt, hc⟩ | ⟨hge, hq, hb, hc⟩
  · rw [hc]
    exact readQuoted_short opening fuel _ hu he
  · rw [hc]
    exact readQuoted_control opening fuel rest hlt
  · rw [hc]
    exact readQuoted_plain opening fuel _ hq hb hge

end

/-- **A text between quotes is read as the text**, with fuel for more turns than it has code
points. -/
theorem readQuoted_escaped (opening : Nat) (t rest : Text) {fuel : Nat} (hf : t.length < fuel) :
    readQuoted opening fuel (t.flatMap (escapedPoint false) ++ Text.doubleQuote :: rest) =
      .ok (t, rest) := by
  induction t generalizing fuel with
  | nil =>
    obtain ⟨fuel, rfl⟩ := Nat.exists_eq_succ_of_ne_zero (Nat.ne_of_gt hf)
    rfl
  | cons c t ih =>
    obtain ⟨fuel, rfl⟩ := Nat.exists_eq_succ_of_ne_zero (Nat.ne_of_gt (Nat.zero_lt_of_lt hf))
    have hrest := ih (Nat.lt_of_succ_lt_succ hf)
    -- what follows the code point has a first one: that of the text, or the closing quote
    obtain ⟨next, more, hm⟩ : ∃ next more,
        t.flatMap (escapedPoint false) ++ Text.doubleQuote :: rest = next :: more :=
      List.exists_cons_of_ne_nil (by simp)
    rw [List.flatMap_cons, List.append_assoc, hm, readQuoted_escapedPoint, ← hm, hrest]
    rfl

theorem escapedPoint_ne_nil (c : CodePoint) : escapedPoint false c ≠ [] := by
  rcases escapedPoint_cases c with ⟨e, -, -, -, hc⟩ | ⟨-, hc⟩ | ⟨-, -, -, hc⟩
  all_goals
    rw [hc]
    exact List.cons_ne_nil _ _

/-- What stands between the quotes is no shorter than the text. -/
theorem length_le_flatMap_escapedPoint (t : Text) :
    t.length ≤ (t.flatMap (escapedPoint false)).length := by
  induction t with
  | nil => exact Nat.zero_le _
  | cons c t ih =>
    have hpos := List.length_pos_iff.2 (escapedPoint_ne_nil c)
    rw [List.flatMap_cons, List.length_append, List.length_cons]
    omega

/-- A carriage return never stands for itself. -/
theorem not_mem_escapedPoint (c : CodePoint) : CodePoint.ofChar '\r' ∉ escapedPoint false c := by
  rcases escapedPoint_cases c with ⟨e, -, hr, -, hc⟩ | ⟨hlt, hc⟩ | ⟨hge, -, -, hc⟩
  · rw [hc, List.mem_cons, List.mem_singleton, not_or]
    exact ⟨by decide, Ne.symm hr⟩
  · have hdigits : CodePoint.ofChar '\r' ∉ Text.paddedHex 4 c.val := by
      generalize c.val = n at hlt
      interval_cases n <;> decide
    rw [hc, List.mem_cons, List.mem_cons, not_or, not_or]
    exact ⟨by decide, by decide, hdigits⟩
  · rw [hc, List.mem_singleton]
    intro h
    rw [← h] at hge
    exact absurd hge (by decide)

end VaultConsole.Json
