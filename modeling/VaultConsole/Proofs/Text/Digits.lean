import Mathlib.Algebra.Group.Nat.Defs
import VaultConsole.Text.Basic

/-!
# Decimal digits

A number that is written to a width has exactly that many digits as long as it fits, and the
digits spell it again. Without a width it has as many digits as it needs.

* `Text.length_padded`: the width is met.
* `Text.isAsciiDigit_of_mem_padded`: there is nothing but digits.
* `Text.foldl_padded`: the digits spell the number.
* `Text.ofNat_eq_cons`: the first digit is no zero.
-/

namespace VaultConsole.Text

theorem padded_eq_map (width n : Nat) :
    padded width n =
      (List.replicate (width - (Nat.toDigits 10 n).length) '0' ++ Nat.toDigits 10 n).map
        CodePoint.ofChar := by
  simp [padded, ofNat]

theorem length_padded {width n : Nat} (hw : 0 < width) (h : n < 10 ^ width) :
    (padded width n).length = width := by
  have hle := (Nat.length_toDigits_le_iff (b := 10) (by decide) hw).2 h
  rw [padded_eq_map, List.length_map, List.length_append, List.length_replicate]
  omega

theorem padded_ne_nil (width n : Nat) : padded width n ≠ [] := by
  rw [padded_eq_map]
  simp [Nat.toDigits_ne_nil]

theorem isAsciiDigit_ofChar {c : Char} (h : c.isDigit = true) :
    (CodePoint.ofChar c).isAsciiDigit = true := by
  simp only [Char.isDigit, Bool.and_eq_true, decide_eq_true_eq, ge_iff_le] at h
  have h0 : 48 ≤ c.toNat := h.1
  have h9 : c.toNat ≤ 57 := h.2
  simp [CodePoint.isAsciiDigit, CodePoint.ofChar, h0, h9]

theorem isAsciiDigit_of_mem_padded {width n : Nat} {c : CodePoint} (h : c ∈ padded width n) :
    c.isAsciiDigit = true := by
  rw [padded_eq_map, List.mem_map] at h
  obtain ⟨d, hd, rfl⟩ := h
  apply isAsciiDigit_ofChar
  rw [List.mem_append] at hd
  rcases hd with hd | hd
  · rw [List.eq_of_mem_replicate hd]; rfl
  · exact Nat.isDigit_of_mem_toDigits (by decide) (by decide) hd

theorem foldl_ofChar (cs : List Char) (n : Nat) :
    (cs.map CodePoint.ofChar).foldl (fun v d => v * 10 + d.digitValue) n =
      Nat.ofDigitChars 10 cs n := by
  induction cs generalizing n with
  | nil => rfl
  | cons c cs ih =>
    rw [List.map_cons, List.foldl_cons, ih, Nat.ofDigitChars_cons, Nat.mul_comm]
    rfl

/-- **The digits of a number spell it**, with or without zeros in front. -/
theorem foldl_padded (width n : Nat) :
    (padded width n).foldl (fun v d => v * 10 + d.digitValue) 0 = n := by
  rw [padded_eq_map, foldl_ofChar, Nat.ofDigitChars_append, Nat.ofDigitChars_replicate_zero,
    Nat.mul_zero, Nat.ofDigitChars_ten_toDigits]

/-! ## Without a width -/

theorem ofNat_eq_padded (n : Nat) : ofNat n = padded 0 n := by
  rw [padded, Nat.zero_sub, List.replicate_zero, List.nil_append]

/-- The first digit of a number other than zero is no zero. -/
theorem toDigits_eq_cons {n : Nat} (hn : n ≠ 0) :
    ∃ c rest, Nat.toDigits 10 n = c :: rest ∧ c ≠ '0' := by
  induction n using Nat.strongRecOn with
  | ind n ih =>
    rcases Nat.lt_or_ge n 10 with hlt | hge
    · exact ⟨_, _, Nat.toDigits_of_lt_base hlt, fun hzero => hn (Nat.digitChar_eq_zero.1 hzero)⟩
    · obtain ⟨c, rest, hdigits, hc⟩ := ih (n / 10) (by omega) (by omega)
      refine ⟨c, rest ++ [(n % 10).digitChar], ?_, hc⟩
      rw [Nat.toDigits_of_base_le (by decide) hge, hdigits, List.cons_append]

theorem ofNat_eq_cons {n : Nat} (hn : n ≠ 0) :
    ∃ c rest, ofNat n = c :: rest ∧ c ≠ CodePoint.ofChar '0' := by
  obtain ⟨c, rest, hdigits, hc⟩ := toDigits_eq_cons hn
  refine ⟨CodePoint.ofChar c, rest.map CodePoint.ofChar, by rw [ofNat, hdigits, List.map_cons], ?_⟩
  intro hzero
  exact hc (Char.toNat_inj.1 (congrArg CodePoint.val hzero))

end VaultConsole.Text
