import Mathlib.Algebra.Order.Field.Basic
import Mathlib.Data.Rat.Cast.Order
import Mathlib.Tactic.FieldSimp
import Mathlib.Tactic.Linarith
import Mathlib.Tactic.LinearCombination
import Mathlib.Tactic.Positivity
import Mathlib.Tactic.Qify
import Mathlib.Tactic.Ring
import VaultConsole.Number.Shortest
import VaultConsole.Proofs.Number.Rounding

/-!
# The shortest decimal of a number

Around a finite number there is an interval, and every decimal in it is taken for the number. Above the
number it reaches half a step, and below it too, but for a power of two, below which the steps are half as
long. The search for the shortest decimal goes from coarse grids to finer ones and takes the first that has
a point in the interval, so it has to be shown that the finest one, with seventeen digits, has one.

* `Binary64.Near`: a real number is in the interval of a finite one.
* `Binary64.contains_iff`: what the search takes for a hit.
* `Binary64.ofDecimal_of_near`: **a decimal in the interval is taken for the number.**
* `Binary64.near_shortest`: **the shortest decimal is in the interval.**
-/

namespace VaultConsole.Binary64

/-! ## Powers -/

section
variable {b : ℚ} {n : Nat} {e : Int}

/-- A power with a whole exponent, which may be negative, as a ratio of two powers without. -/
theorem zpow_eq_div (hb : b ≠ 0) (e : Int) : b ^ e = b ^ e.toNat / b ^ (-e).toNat := by
  rw [← zpow_natCast, ← zpow_natCast, ← zpow_sub₀ hb, show (e.toNat : Int) - (-e).toNat = e by omega]

/-- A number other than zero has as many digits as the power of ten above it says. -/
theorem length_toDigits_spec (hn : n ≠ 0) :
    (10 : ℚ) ^ ((Nat.toDigits 10 n).length - 1 : Int) ≤ n ∧ (n : ℚ) < 10 ^ (Nat.toDigits 10 n).length := by
  have hpos : 0 < (Nat.toDigits 10 n).length := List.length_pos_iff.2 Nat.toDigits_ne_nil
  generalize hk : (Nat.toDigits 10 n).length = k at hpos
  obtain ⟨k, rfl⟩ := Nat.exists_eq_succ_of_ne_zero (Nat.ne_of_gt hpos)
  have hupper : n < 10 ^ (k + 1) :=
    (Nat.length_toDigits_le_iff (by decide) (Nat.succ_pos k)).1 (Nat.le_of_eq hk)
  have hlower : 10 ^ k ≤ n := by
    by_contra hlt
    rcases Nat.eq_zero_or_pos k with rfl | hk0
    · exact hlt (Nat.one_le_iff_ne_zero.2 hn)
    · have := (Nat.length_toDigits_le_iff (b := 10) (by decide) hk0).2 (Nat.lt_of_not_le hlt)
      omega
  refine ⟨?_, by exact_mod_cast hupper⟩
  rw [Nat.cast_succ, add_sub_cancel_right, zpow_natCast]
  exact_mod_cast hlower

end

/-! ## The interval of a number -/

/-- How far below a number its interval begins, in quarters of its step. -/
def below (biased : Fin 2047) (fraction : Fin fractions) : Nat :=
  if fraction.val = 0 ∧ 1 < biased.val then 1 else 2

/-- The ends of the interval of a number, in quarters of a unit. -/
def lowEnd (biased : Fin 2047) (fraction : Fin fractions) : Nat :=
  (4 * significand biased fraction - below biased fraction) * 2 ^ (biased.val - 1)

@[inherit_doc lowEnd] def highEnd (biased : Fin 2047) (fraction : Fin fractions) : Nat :=
  (4 * significand biased fraction + 2) * 2 ^ (biased.val - 1)

/-- How many quarters of a unit one has. -/
def quartersOfOne : Nat := 4 * unitsOfOne

/-- A real number is in the interval of a finite one. The ends belong to it if the finite number is
even. -/
structure Near (biased : Fin 2047) (fraction : Fin fractions) (v : ℚ) : Prop where
  low : (lowEnd biased fraction : ℚ) ≤ v * quartersOfOne
  high : v * quartersOfOne ≤ highEnd biased fraction
  odd : significand biased fraction % 2 = 1 →
    (lowEnd biased fraction : ℚ) ≠ v * quartersOfOne ∧ v * quartersOfOne ≠ highEnd biased fraction

theorem quartersOfOne_pos : 0 < quartersOfOne := Nat.mul_pos (by decide) unitsOfOne_pos

section
variable {biased : Fin 2047} {fraction : Fin fractions}

theorem two_mul_le_lowEnd (hm : significand biased fraction ≠ 0) : 2 ≤ lowEnd biased fraction := by
  have hbelow : 2 ≤ 4 * significand biased fraction - below biased fraction := by
    unfold below
    split <;> omega
  exact Nat.le_trans hbelow (Nat.le_mul_of_pos_right _ (Nat.two_pow_pos _))

/-- The denominator of the interval, where its ends are in quarters of a step. -/
theorem scale_rounding (biased : Fin 2047) (fraction : Fin fractions) :
    2 ^ (scale biased - 2).toNat * quartersOfOne =
      2 ^ (biased.val - 1) * (rounding biased fraction).den := by
  obtain ⟨m, hm⟩ : ∃ m, m = 1074 := ⟨_, rfl⟩
  have hq : scale biased = (biased.val - 1 : Nat) - (m : Int) := by
    unfold scale
    omega
  have hsum : (scale biased - 2).toNat + (2 + m) = (biased.val - 1) + (-(scale biased - 2)).toNat := by
    omega
  have hquarters : quartersOfOne = 2 ^ (2 + m) := by
    rw [quartersOfOne, unitsOfOne_eq hm, Nat.pow_add]
  show _ = _ * 2 ^ (-(scale biased - 2)).toNat
  rw [hquarters, ← Nat.pow_add, ← Nat.pow_add, hsum]

/-- An end of the interval is compared with a decimal on whole numbers as on rational ones: both sides are
multiplied by the same number. -/
theorem compare_end (biased : Fin 2047) (fraction : Fin fractions) (digits : Nat) (exponent : Int)
    (quarters : Nat) :
    (quarters * 2 ^ (scale biased - 2).toNat * 10 ^ (-exponent).toNat ≤
        digits * 10 ^ exponent.toNat * (rounding biased fraction).den ↔
      ((quarters * 2 ^ (biased.val - 1) : Nat) : ℚ) ≤ digits * 10 ^ exponent * quartersOfOne) ∧
    (digits * 10 ^ exponent.toNat * (rounding biased fraction).den ≤
        quarters * 2 ^ (scale biased - 2).toNat * 10 ^ (-exponent).toNat ↔
      digits * 10 ^ exponent * quartersOfOne ≤ ((quarters * 2 ^ (biased.val - 1) : Nat) : ℚ)) := by
  have hscale : (2 : ℚ) ^ (scale biased - 2).toNat * quartersOfOne =
      2 ^ (biased.val - 1) * (rounding biased fraction).den := by
    exact_mod_cast scale_rounding biased fraction
  have hdenPos : (0 : ℚ) < (rounding biased fraction).den := by
    have : 0 < (rounding biased fraction).den := Nat.two_pow_pos _
    exact_mod_cast this
  have hquarters : (0 : ℚ) < quartersOfOne := by exact_mod_cast quartersOfOne_pos
  obtain ⟨factor, hfactor⟩ : ∃ factor : ℚ,
      factor = (rounding biased fraction).den * 10 ^ (-exponent).toNat / quartersOfOne := ⟨_, rfl⟩
  have hpos : 0 < factor := by
    rw [hfactor]
    exact div_pos (mul_pos hdenPos (by positivity)) hquarters
  have hend : ((quarters * 2 ^ (scale biased - 2).toNat * 10 ^ (-exponent).toNat : Nat) : ℚ) =
      (quarters * 2 ^ (biased.val - 1) : Nat) * factor := by
    rw [hfactor, ← mul_div_assoc, eq_div_iff hquarters.ne']
    push_cast
    linear_combination (quarters : ℚ) * 10 ^ (-exponent).toNat * hscale
  have hvalue : ((digits * 10 ^ exponent.toNat * (rounding biased fraction).den : Nat) : ℚ) =
      digits * 10 ^ exponent * quartersOfOne * factor := by
    have hunit : (10 : ℚ) ^ (-exponent).toNat ≠ 0 := by positivity
    rw [hfactor, zpow_eq_div (by norm_num) exponent]
    push_cast
    generalize (10 : ℚ) ^ (-exponent).toNat = unit at hunit
    generalize (quartersOfOne : ℚ) = quarters at hquarters
    field_simp
  rw [← Nat.cast_le (α := ℚ), ← Nat.cast_le (α := ℚ), hend, hvalue,
    mul_le_mul_iff_of_pos_right hpos, mul_le_mul_iff_of_pos_right hpos]
  exact ⟨Iff.rfl, Iff.rfl⟩

/-- **A decimal is taken for one in the interval exactly if it is there.** -/
theorem contains_iff {digits : Nat} {exponent : Int} :
    (rounding biased fraction).contains digits exponent = true ↔
      Near biased fraction (digits * 10 ^ exponent) := by
  obtain ⟨hleLow, hgeLow⟩ := compare_end biased fraction digits exponent
    (4 * significand biased fraction - below biased fraction)
  obtain ⟨hleHigh, hgeHigh⟩ := compare_end biased fraction digits exponent
    (4 * significand biased fraction + 2)
  have hlow : (rounding biased fraction).low * 10 ^ (-exponent).toNat =
      (4 * significand biased fraction - below biased fraction) * 2 ^ (scale biased - 2).toNat *
        10 ^ (-exponent).toNat := rfl
  have hhigh : (rounding biased fraction).high * 10 ^ (-exponent).toNat =
      (4 * significand biased fraction + 2) * 2 ^ (scale biased - 2).toNat *
        10 ^ (-exponent).toNat := rfl
  unfold Rounding.contains
  simp only [Nat.pow_eq, hlow, hhigh]
  by_cases hclosed : significand biased fraction % 2 = 0
  · have hr : (rounding biased fraction).closed = true := decide_eq_true hclosed
    simp only [hr, if_true, Bool.and_eq_true, decide_eq_true_eq, hleLow, hgeHigh]
    exact ⟨fun h => ⟨h.1, h.2, fun hodd => by omega⟩, fun h => ⟨h.low, h.high⟩⟩
  · have hr : (rounding biased fraction).closed = false := decide_eq_false hclosed
    simp only [hr, Bool.false_eq_true, if_false, Bool.and_eq_true, decide_eq_true_eq, ← Nat.not_le,
      hgeLow, hleHigh, not_le]
    refine ⟨fun h => ⟨h.1.le, h.2.le, fun _ => ⟨h.1.ne, h.2.ne⟩⟩, fun h => ?_⟩
    have hodd := h.odd (by omega)
    exact ⟨lt_of_le_of_ne h.low hodd.1, lt_of_le_of_ne h.high hodd.2⟩

end

/-! ## Rounding into the interval -/

section
variable {biased : Fin 2047} {fraction : Fin fractions} {num den : Nat}

theorem below_cases (biased : Fin 2047) (fraction : Fin fractions) :
    (fraction.val = 0 ∧ 1 < biased.val ∧ significand biased fraction = fractions ∧
      below biased fraction = 1) ∨
    (1 < biased.val → fractions < significand biased fraction) ∧ below biased fraction = 2 := by
  unfold below significand
  by_cases h : fraction.val = 0 ∧ 1 < biased.val
  · refine .inl ⟨h.1, h.2, ?_, if_pos h⟩
    rw [if_neg (Nat.ne_of_gt (Nat.zero_lt_of_lt h.2)), h.1]
  · refine .inr ⟨fun hbiased => ?_, if_neg h⟩
    rw [if_neg (Nat.ne_of_gt (Nat.zero_lt_of_lt hbiased))]
    omega

/-- A ratio in an interval, on whole numbers: it is `units` over `steps`, where a step is that of the
number, of which the significand is `m`. -/
structure InSteps (m below steps units : Nat) : Prop where
  pos : 0 < steps
  low : 4 * (m * steps) ≤ 4 * units + below * steps
  high : 4 * units ≤ 4 * (m * steps) + 2 * steps
  odd : m % 2 = 1 →
    4 * (m * steps) ≠ 4 * units + below * steps ∧ 4 * units ≠ 4 * (m * steps) + 2 * steps

theorem Near.inSteps (h : Near biased fraction (num / den)) (hm : significand biased fraction ≠ 0)
    (hden : den ≠ 0) : InSteps (significand biased fraction) (below biased fraction)
      (den * 2 ^ (biased.val - 1)) (num * unitsOfOne) := by
  have hpos : (0 : ℚ) < den := by exact_mod_cast Nat.pos_of_ne_zero hden
  have hvalue : (num / den * quartersOfOne : ℚ) = (4 * (num * unitsOfOne) : Nat) / den := by
    unfold quartersOfOne
    push_cast
    ring
  have hlowEnd : lowEnd biased fraction * den + below biased fraction * (den * 2 ^ (biased.val - 1)) =
      4 * (significand biased fraction * (den * 2 ^ (biased.val - 1))) := by
    have hle : below biased fraction ≤ 4 * significand biased fraction := by
      rcases below_cases biased fraction with ⟨-, -, -, hb⟩ | ⟨-, hb⟩ <;> omega
    rw [lowEnd, Nat.mul_assoc, Nat.mul_comm _ den, ← Nat.add_mul, Nat.sub_add_cancel hle, Nat.mul_assoc]
  have hhighEnd : highEnd biased fraction * den =
      4 * (significand biased fraction * (den * 2 ^ (biased.val - 1))) +
        2 * (den * 2 ^ (biased.val - 1)) := by
    rw [highEnd, Nat.mul_assoc, Nat.mul_comm _ den, Nat.add_mul, Nat.mul_assoc]
  obtain ⟨hlow, hhigh, hodd⟩ := h
  rw [hvalue] at hlow hhigh
  rw [hvalue, Ne, Ne, eq_div_iff hpos.ne', div_eq_iff hpos.ne'] at hodd
  rw [le_div_iff₀ hpos] at hlow
  rw [div_le_iff₀ hpos] at hhigh
  generalize num * unitsOfOne = units at *
  norm_cast at hlow hhigh hodd
  rw [hhighEnd] at hhigh hodd
  refine ⟨Nat.mul_pos (Nat.pos_of_ne_zero hden) (Nat.two_pow_pos _), by omega, hhigh, fun h => ?_⟩
  obtain ⟨hneLow, hneHigh⟩ := hodd h
  exact ⟨by omega, hneHigh⟩

/-- A number from its whole steps. -/
theorem ofScaled_significand (negative : Bool) :
    ofScaled negative (significand biased fraction) ((biased.val - 1 : Nat) - 1074) =
      .finite negative biased fraction := by
  have := biased.isLt
  have := fraction.isLt
  unfold significand ofScaled
  by_cases hzero : biased.val = 0
  · have hb : biased = ⟨0, by decide⟩ := Fin.ext hzero
    subst hb
    simp
  · have hexponent : (((biased.val - 1 : Nat) : Int) - 1074 + 1075).toNat = biased.val := by omega
    have htop : fractions + fraction.val ≠ 2 * fractions := by omega
    simp only [hzero, htop, if_false, hexponent, Nat.add_sub_cancel_left]
    rw [dif_neg (by omega), dif_pos ⟨biased.isLt, fraction.isLt⟩]

/-- A power of two from its steps, where these are the shorter ones below it. -/
theorem ofScaled_endOfSteps (hfraction : fraction.val = 0) (hbiased : 1 < biased.val) (negative : Bool) :
    ofScaled negative (2 * fractions) ((biased.val - 2 : Nat) - 1074) =
      .finite negative biased fraction := by
  have := biased.isLt
  have hf : fraction = ⟨0, by decide⟩ := Fin.ext hfraction
  have hexponent : (((biased.val - 2 : Nat) : Int) - 1074 + 1 + 1075).toNat = biased.val := by omega
  subst hf
  unfold ofScaled
  rw [dif_neg (by decide)]
  simp only [if_true, hexponent, Nat.sub_self]
  rw [dif_pos ⟨biased.isLt, by decide⟩]

/-- A ratio that is rounded at the step of the number. -/
theorem InSteps.roundToEven_eq {m below steps units : Nat} (h : InSteps m below steps units)
    (hbelow : below = 2 ∨ m % 2 = 0 ∧ below = 1) : roundToEven units steps = m := by
  obtain ⟨hpos, hlow, hhigh, hodd⟩ := h
  rcases hbelow with rfl | ⟨heven, rfl⟩
  · refine Binary64.roundToEven_eq hpos (by omega) (by omega) fun hm => ?_
    obtain ⟨hneLow, hneHigh⟩ := hodd hm
    exact ⟨by omega, by omega⟩
  · exact Binary64.roundToEven_eq hpos (by omega) (by omega) (by omega)

/-- A ratio below the steps of a power of two is rounded at the shorter ones. -/
theorem InSteps.roundToEven_half {steps units : Nat} (h : InSteps fractions 1 (2 * steps) units)
    (hless : units < fractions * (2 * steps)) :
    fractions * steps ≤ units ∧ roundToEven units steps = 2 * fractions := by
  obtain ⟨hpos, hlow, hhigh, -⟩ := h
  have hdouble : fractions * (2 * steps) = 2 * (fractions * steps) := Nat.mul_left_comm _ _ _
  have hdouble' : 2 * fractions * steps = 2 * (fractions * steps) := Nat.mul_assoc _ _ _
  have hpart : steps ≤ fractions * steps := Nat.le_mul_of_pos_left _ (by decide)
  exact ⟨by omega, Binary64.roundToEven_eq (by omega) (by omega) (by omega) (by omega)⟩

theorem mul_two_pow_add (den step digits : Nat) :
    den * 2 ^ (step + digits) = 2 ^ digits * (den * 2 ^ step) := by
  rw [Nat.pow_add, ← Nat.mul_assoc, Nat.mul_comm]

section
variable (h : InSteps (significand biased fraction) (below biased fraction) (den * 2 ^ (biased.val - 1))
  (num * unitsOfOne))
include h

/-- A ratio in the interval that is in the binade of the number. -/
theorem InSteps.ofRatio_inside (hnum : num ≠ 0) (hden : den ≠ 0)
    (hinside : biased.val - 1 = 0 ∨ fractions * (den * 2 ^ (biased.val - 1)) ≤ num * unitsOfOne)
    (negative : Bool) : ofRatio negative num den = .finite negative biased fraction := by
  have hmost : significand biased fraction * (den * 2 ^ (biased.val - 1)) +
      den * 2 ^ (biased.val - 1) ≤ 2 * fractions * (den * 2 ^ (biased.val - 1)) := by
    rw [← Nat.succ_mul]
    exact Nat.mul_le_mul_right _ (significand_lt biased fraction)
  have hbinade : InBinade num den (biased.val - 1) := by
    refine ⟨?_, by rwa [mul_two_pow_add]⟩
    rw [mul_two_pow_add, show 2 ^ 53 = 2 * fractions from rfl]
    have hhigh := h.high
    have hpos := h.pos
    omega
  have hbelow : below biased fraction = 2 ∨
      significand biased fraction % 2 = 0 ∧ below biased fraction = 1 := by
    rcases below_cases biased fraction with ⟨-, -, hf, hb⟩ | ⟨-, hb⟩
    · exact .inr ⟨by rw [hf]; rfl, hb⟩
    · exact .inl hb
  rw [hbinade.ofRatio_eq hnum hden, h.roundToEven_eq hbelow, ofScaled_significand]

/-- A ratio in the interval that is in the binade below. The number is a power of two then. -/
theorem InSteps.ofRatio_below (hnum : num ≠ 0) (hden : den ≠ 0) (hstep : biased.val - 1 ≠ 0)
    (hless : num * unitsOfOne < fractions * (den * 2 ^ (biased.val - 1))) (negative : Bool) :
    ofRatio negative num den = .finite negative biased fraction := by
  have hhalf : den * 2 ^ (biased.val - 1) = 2 * (den * 2 ^ (biased.val - 2)) := by
    rw [show biased.val - 1 = biased.val - 2 + 1 by omega, mul_two_pow_add, Nat.pow_one]
  obtain ⟨hfraction, hbiased, hf, hb⟩ : fraction.val = 0 ∧ 1 < biased.val ∧
      significand biased fraction = fractions ∧ below biased fraction = 1 := by
    refine (below_cases biased fraction).resolve_right fun ⟨hlarge, hb⟩ => ?_
    have hmore := Nat.mul_le_mul_right (den * 2 ^ (biased.val - 1)) (hlarge (by omega))
    rw [Nat.succ_mul] at hmore
    have hlow := h.low
    rw [hb] at hlow
    omega
  rw [hf, hb, hhalf] at h
  rw [hhalf] at hless
  obtain ⟨hinside, hround⟩ := h.roundToEven_half hless
  have hbinade : InBinade num den (biased.val - 2) := by
    refine ⟨?_, .inr (by rwa [mul_two_pow_add])⟩
    rw [mul_two_pow_add, show 2 ^ 53 = 2 * fractions from rfl, Nat.mul_assoc, Nat.mul_left_comm]
    exact hless
  rw [hbinade.ofRatio_eq hnum hden, hround, ofScaled_endOfSteps hfraction hbiased]

end

/-- **A ratio in the interval of a number rounds to it.** -/
theorem ofRatio_of_near (hm : significand biased fraction ≠ 0) (hden : den ≠ 0)
    (h : Near biased fraction (num / den)) (negative : Bool) :
    ofRatio negative num den = .finite negative biased fraction := by
  have hin := h.inSteps hm hden
  have hnum : num ≠ 0 := by
    rintro rfl
    have hlow := hin.low
    have hpos := hin.pos
    have hleast : den * 2 ^ (biased.val - 1) ≤
        significand biased fraction * (den * 2 ^ (biased.val - 1)) :=
      Nat.le_mul_of_pos_left _ (Nat.pos_of_ne_zero hm)
    rw [Nat.zero_mul] at hlow
    rcases below_cases biased fraction with ⟨-, -, -, hb⟩ | ⟨-, hb⟩ <;> rw [hb] at hlow <;> omega
  by_cases hinside : biased.val - 1 = 0 ∨ fractions * (den * 2 ^ (biased.val - 1)) ≤ num * unitsOfOne
  · exact hin.ofRatio_inside hnum hden hinside negative
  · obtain ⟨hstep, hless⟩ := not_or.1 hinside
    exact hin.ofRatio_below hnum hden hstep (Nat.lt_of_not_le hless) negative

/-! ## Decimals -/

theorem quartersOfOne_le {k : Nat} (hk : k = 47) : quartersOfOne ≤ 10 ^ (7 * k) := by
  obtain ⟨m, hm⟩ : ∃ m, m = 1074 := ⟨_, rfl⟩
  calc quartersOfOne = 2 ^ (2 + m) := by rw [quartersOfOne, unitsOfOne_eq hm, Nat.pow_add]
    _ ≤ 2 ^ (23 * k) := Nat.pow_le_pow_right (by decide) (by omega)
    _ = (2 ^ 23) ^ k := Nat.pow_mul ..
    _ ≤ (10 ^ 7) ^ k := Nat.pow_le_pow_left (by decide) k
    _ = 10 ^ (7 * k) := (Nat.pow_mul ..).symm

theorem highEnd_le (biased : Fin 2047) (fraction : Fin fractions) {k : Nat} (hk : k = 11) :
    highEnd biased fraction ≤ 10 ^ (28 * k + 1) * quartersOfOne := by
  obtain ⟨m, hm⟩ : ∃ m, m = 1074 := ⟨_, rfl⟩
  have hfactor : 4 * significand biased fraction + 2 ≤ 2 ^ 55 := by
    have := significand_lt biased fraction
    rw [show 2 ^ 55 = 4 * (2 * fractions) from rfl]
    omega
  calc highEnd biased fraction ≤ 2 ^ 55 * 2 ^ (m + 971) :=
        Nat.mul_le_mul hfactor (Nat.pow_le_pow_right (by decide) (by omega))
    _ = 2 ^ (93 * k + 1) * 2 ^ (2 + m) := by
        rw [← Nat.pow_add, ← Nat.pow_add, show 55 + (m + 971) = 93 * k + 1 + (2 + m) by omega]
    _ = (2 ^ 93) ^ k * 2 * quartersOfOne := by
        rw [Nat.pow_succ, Nat.pow_mul, Nat.pow_add, quartersOfOne, unitsOfOne_eq hm]
    _ ≤ (10 ^ 28) ^ k * 10 * quartersOfOne :=
        Nat.mul_le_mul_right _ (Nat.mul_le_mul (Nat.pow_le_pow_left (by decide) k) (by decide))
    _ = 10 ^ (28 * k + 1) * quartersOfOne := by rw [← Nat.pow_mul, ← Nat.pow_succ]

/-- A decimal in the interval of a number is not so far away from one that its digits do not count. -/
theorem Near.magnitude {digits : Nat} {exponent : Int} (h : Near biased fraction (digits * 10 ^ exponent))
    (hm : significand biased fraction ≠ 0) :
    digits ≠ 0 ∧ exponent + (Nat.toDigits 10 digits).length ≤ 310 ∧
      -330 ≤ exponent + (Nat.toDigits 10 digits).length := by
  obtain ⟨k, hk⟩ : ∃ k, k = 47 := ⟨_, rfl⟩
  obtain ⟨k', hk'⟩ : ∃ k', k' = 11 := ⟨_, rfl⟩
  have hquarters : (0 : ℚ) < quartersOfOne := by exact_mod_cast quartersOfOne_pos
  have hpower : (0 : ℚ) < 10 ^ exponent := zpow_pos (by norm_num) _
  have hlow : (2 : ℚ) ≤ digits * 10 ^ exponent * quartersOfOne :=
    le_trans (by exact_mod_cast two_mul_le_lowEnd hm) h.low
  have hhigh : (digits * 10 ^ exponent : ℚ) ≤ 10 ^ (28 * k' + 1) := by
    have hle : (highEnd biased fraction : ℚ) ≤ 10 ^ (28 * k' + 1) * quartersOfOne := by
      exact_mod_cast highEnd_le biased fraction hk'
    exact le_of_mul_le_mul_right (h.high.trans hle) hquarters
  have hdigits : digits ≠ 0 := by
    rintro rfl
    rw [Nat.cast_zero, zero_mul, zero_mul] at hlow
    exact absurd hlow (by norm_num)
  obtain ⟨hleast, hmost⟩ := length_toDigits_spec hdigits
  generalize (Nat.toDigits 10 digits).length = length at hleast hmost ⊢
  refine ⟨hdigits, ?_, ?_⟩
  · have hle : (10 : ℚ) ^ ((length : Int) - 1 + exponent) ≤ 10 ^ ((28 * k' + 1 : Nat) : Int) := by
      rw [zpow_add₀ (by norm_num), zpow_natCast]
      exact (mul_le_mul_of_nonneg_right hleast hpower.le).trans hhigh
    have := (zpow_le_zpow_iff_right₀ (by norm_num)).1 hle
    omega
  · have hunits : (quartersOfOne : ℚ) ≤ 10 ^ (7 * k) := by exact_mod_cast quartersOfOne_le hk
    have hlt : (1 : ℚ) < 10 ^ ((length : Int) + exponent + (7 * k : Nat)) := by
      rw [zpow_add₀ (by norm_num), zpow_add₀ (by norm_num), zpow_natCast, zpow_natCast]
      calc (1 : ℚ) < digits * 10 ^ exponent * quartersOfOne := lt_of_lt_of_le (by norm_num) hlow
        _ ≤ 10 ^ length * 10 ^ exponent * 10 ^ (7 * k) :=
          mul_le_mul (mul_le_mul_of_nonneg_right hmost.le hpower.le) hunits hquarters.le (by positivity)
    have := (one_lt_zpow_iff_right₀ (by norm_num)).1 hlt
    omega

/-- **A decimal in the interval of a number is taken for the number.** -/
theorem ofDecimal_of_near {digits : Nat} {exponent : Int} (hm : significand biased fraction ≠ 0)
    (h : Near biased fraction (digits * 10 ^ exponent)) (negative : Bool) :
    ofDecimal negative digits exponent = .finite negative biased fraction := by
  obtain ⟨hdigits, hupper, hlower⟩ := h.magnitude hm
  have hvalue := zpow_eq_div (show (10 : ℚ) ≠ 0 by norm_num) exponent
  unfold ofDecimal
  simp only [hdigits, if_false, Nat.pow_eq]
  rw [if_neg (by omega), if_neg (by omega)]
  split
  · next hexponent =>
    refine ofRatio_of_near hm Nat.one_ne_zero ?_ negative
    rw [show (-exponent).toNat = 0 by omega, pow_zero, div_one] at hvalue
    rw [hvalue] at h
    simpa using h
  · next hexponent =>
    refine ofRatio_of_near hm (Nat.pow_pos (by decide)).ne' ?_ negative
    rw [show exponent.toNat = 0 by omega, pow_zero] at hvalue
    rw [hvalue, mul_one_div] at h
    simpa using h

/-! ## The search -/

theorem roundToEven_cases (num den : Nat) :
    roundToEven num den = num / den ∨ roundToEven num den = num / den + 1 := by
  unfold roundToEven
  simp only
  split
  · exact .inl rfl
  · split
    · exact .inr rfl
    · rcases Nat.mod_two_eq_zero_or_one (num / den) with h | h <;> rw [h]
      · exact .inl rfl
      · exact .inr rfl

/-- What a grid gives is in the interval. -/
theorem Rounding.contains_of_onGrid {r : Rounding} {digits : Nat} {exponent : Int}
    (h : r.onGrid? exponent = some digits) : r.contains digits exponent = true := by
  unfold onGrid? at h
  simp only at h
  split at h
  · next hlower hupper =>
    cases h
    rcases roundToEven_cases (r.value * Nat.pow 10 (-exponent).toNat)
      (r.den * Nat.pow 10 exponent.toNat) with hround | hround <;> rw [hround]
    · exact hlower
    · exact hupper
  · next hlower _ =>
    cases h
    exact hlower
  · next _ hupper =>
    cases h
    exact hupper
  · cases h

/-- A grid gives nothing only if neither neighbour is in the interval. -/
theorem Rounding.not_contains_of_onGrid {r : Rounding} {exponent : Int} (h : r.onGrid? exponent = none) :
    r.contains (r.value * 10 ^ (-exponent).toNat / (r.den * 10 ^ exponent.toNat)) exponent = false ∧
      r.contains (r.value * 10 ^ (-exponent).toNat / (r.den * 10 ^ exponent.toNat) + 1) exponent =
        false := by
  unfold onGrid? at h
  simp only [Nat.pow_eq] at h
  split at h
  · cases h
  · cases h
  · cases h
  · next hlower hupper => exact ⟨hlower, hupper⟩

/-- The search ends in the interval if one of its grids gives anything. -/
theorem Rounding.contains_search {r : Rounding} {magnitude : Int} {count tries k : Nat} (hk : k < tries)
    (h : r.onGrid? (magnitude - (count + k : Nat)) ≠ none) :
    r.contains (r.search magnitude count tries).1 (r.search magnitude count tries).2 = true := by
  induction tries generalizing count k with
  | zero => omega
  | succ tries ih =>
    rw [search]
    cases hgrid : r.onGrid? (magnitude - count) with
    | some digits => exact contains_of_onGrid hgrid
    | none =>
      cases k with
      | zero => exact absurd hgrid h
      | succ k =>
        refine ih (Nat.lt_of_succ_lt_succ hk) ?_
        rwa [Nat.add_right_comm, Nat.add_assoc]

/-- A ratio is at least the power of ten below its magnitude. -/
theorem Rounding.magnitude_le {r : Rounding} (hvalue : r.value ≠ 0) (hden : r.den ≠ 0) :
    (10 : ℚ) ^ (r.magnitude - 1) ≤ r.value / r.den := by
  have hpos : (0 : ℚ) < r.den := by exact_mod_cast Nat.pos_of_ne_zero hden
  obtain ⟨hvalueLeast, -⟩ := length_toDigits_spec hvalue
  obtain ⟨-, hdenMost⟩ := length_toDigits_spec hden
  rw [le_div_iff₀ hpos]
  unfold magnitude
  simp only [Nat.pow_eq]
  split
  · next hless =>
    clear hless
    generalize (Nat.toDigits 10 r.value).length = a at *
    generalize (Nat.toDigits 10 r.den).length = b at *
    calc (10 : ℚ) ^ ((a : Int) - b - 1) * r.den ≤ 10 ^ ((a : Int) - b - 1) * 10 ^ b :=
          mul_le_mul_of_nonneg_left hdenMost.le (zpow_pos (by norm_num) _).le
      _ = 10 ^ ((a : Int) - 1) := by
          rw [← zpow_natCast, ← zpow_add₀ (by norm_num), show (a : Int) - b - 1 + b = a - 1 by ring]
      _ ≤ r.value := hvalueLeast
  · next hnot =>
    rw [decide_eq_true_eq, Nat.not_lt] at hnot
    generalize (Nat.toDigits 10 r.value).length = a at *
    generalize (Nat.toDigits 10 r.den).length = b at *
    have hle : (r.den * 10 ^ ((a : Int) - b).toNat : ℚ) ≤ r.value * 10 ^ (-((a : Int) - b)).toNat := by
      exact_mod_cast hnot
    rw [add_sub_cancel_right, zpow_eq_div (by norm_num), div_mul_eq_mul_div, mul_comm,
      div_le_iff₀ (by positivity)]
    exact hle

/-- The value of a number, in quarters of a unit. -/
theorem value_rounding (biased : Fin 2047) (fraction : Fin fractions) :
    ((rounding biased fraction).value : ℚ) / (rounding biased fraction).den * quartersOfOne =
      (4 * significand biased fraction * 2 ^ (biased.val - 1) : Nat) := by
  have hscale : (2 : ℚ) ^ (scale biased - 2).toNat * quartersOfOne =
      2 ^ (biased.val - 1) * (rounding biased fraction).den := by
    exact_mod_cast scale_rounding biased fraction
  have hden : ((rounding biased fraction).den : ℚ) ≠ 0 := by
    have : 0 < (rounding biased fraction).den := Nat.two_pow_pos _
    exact_mod_cast this.ne'
  have hvalue : (rounding biased fraction).value =
      4 * significand biased fraction * 2 ^ (scale biased - 2).toNat := rfl
  rw [hvalue, div_mul_eq_mul_div, div_eq_iff hden]
  push_cast
  linear_combination 4 * (significand biased fraction : ℚ) * hscale

/-- The ends of the interval around the value. -/
theorem ends_eq (hm : significand biased fraction ≠ 0) :
    lowEnd biased fraction + below biased fraction * 2 ^ (biased.val - 1) =
        4 * significand biased fraction * 2 ^ (biased.val - 1) ∧
      highEnd biased fraction =
        4 * significand biased fraction * 2 ^ (biased.val - 1) + 2 * 2 ^ (biased.val - 1) := by
  have hle : below biased fraction ≤ 4 * significand biased fraction := by
    rcases below_cases biased fraction with ⟨-, -, -, hb⟩ | ⟨-, hb⟩ <;> omega
  exact ⟨by rw [lowEnd, ← Nat.add_mul, Nat.sub_add_cancel hle], Nat.add_mul ..⟩

/-- The value of a number in steps, compared with the length of its interval. -/
theorem value_lt (biased : Fin 2047) (fraction : Fin fractions) :
    4 * significand biased fraction * 2 ^ (biased.val - 1) <
      10 ^ 16 * ((below biased fraction + 2) * 2 ^ (biased.val - 1)) := by
  rw [← Nat.mul_assoc]
  refine Nat.mul_lt_mul_of_pos_right ?_ (Nat.two_pow_pos _)
  have hlt := significand_lt biased fraction
  rcases below_cases biased fraction with ⟨-, -, hf, hb⟩ | ⟨-, hb⟩
  · rw [hf, hb]
    decide
  · rw [hb]
    calc 4 * significand biased fraction < 4 * (2 * fractions) := by omega
      _ < 10 ^ 16 * (2 + 2) := by decide

/-- On a grid that is fine enough one of two neighbours is in the interval: they are nearer to each other
than the ends of the interval. -/
theorem near_neighbour (hm : significand biased fraction ≠ 0) {lower grid : ℚ}
    (hlower : lower * quartersOfOne ≤ (4 * significand biased fraction * 2 ^ (biased.val - 1) : Nat))
    (hupper : (4 * significand biased fraction * 2 ^ (biased.val - 1) : Nat) <
      (lower + grid) * quartersOfOne)
    (hgrid : 10 ^ 16 * (grid * quartersOfOne) ≤
      (4 * significand biased fraction * 2 ^ (biased.val - 1) : Nat)) :
    Near biased fraction lower ∨ Near biased fraction (lower + grid) := by
  obtain ⟨hlowEnd, hhighEnd⟩ := ends_eq hm
  have hvalue := value_lt biased fraction
  have hstep : 0 < 2 ^ (biased.val - 1) := Nat.two_pow_pos _
  have hbelow : 0 < below biased fraction * 2 ^ (biased.val - 1) := by
    refine Nat.mul_pos ?_ hstep
    rcases below_cases biased fraction with ⟨-, -, -, hb⟩ | ⟨-, hb⟩ <;> omega
  rw [Nat.add_mul] at hvalue
  generalize 4 * significand biased fraction * 2 ^ (biased.val - 1) = value at *
  generalize below biased fraction * 2 ^ (biased.val - 1) = less at *
  generalize 2 ^ (biased.val - 1) = step at *
  qify at hlowEnd hhighEnd hvalue hstep hbelow
  by_cases hin : (lowEnd biased fraction : ℚ) < lower * quartersOfOne
  · exact .inl ⟨hin.le, by linarith, fun _ => ⟨hin.ne, by linarith⟩⟩
  · rw [not_lt] at hin
    rw [add_mul] at hupper
    refine .inr ⟨?_, ?_, fun _ => ⟨?_, ?_⟩⟩ <;> rw [add_mul]
    · linarith
    · linarith
    · exact ne_of_lt (by linarith)
    · exact ne_of_lt (by linarith)

/-- The two neighbours of a ratio on a grid. -/
theorem neighbours {value den : Nat} (hden : den ≠ 0) (exponent : Int) :
    ((value * 10 ^ (-exponent).toNat / (den * 10 ^ exponent.toNat) : Nat) : ℚ) * 10 ^ exponent ≤
        value / den ∧
      (value : ℚ) / den <
        ((value * 10 ^ (-exponent).toNat / (den * 10 ^ exponent.toNat) : Nat) + 1) * 10 ^ exponent := by
  have hdenPos : 0 < den * 10 ^ exponent.toNat :=
    Nat.mul_pos (Nat.pos_of_ne_zero hden) (Nat.pow_pos (by decide))
  have hlower := Nat.div_mul_le_self (value * 10 ^ (-exponent).toNat) (den * 10 ^ exponent.toNat)
  have hupper := @Nat.lt_div_mul_add (value * 10 ^ (-exponent).toNat) _ hdenPos
  generalize value * 10 ^ (-exponent).toNat / (den * 10 ^ exponent.toNat) = lower at *
  have hpos : (0 : ℚ) < den := by exact_mod_cast Nat.pos_of_ne_zero hden
  have hunit : (0 : ℚ) < 10 ^ (-exponent).toNat := by positivity
  qify at hlower hupper
  rw [zpow_eq_div (by norm_num), mul_div_assoc', mul_div_assoc', div_le_div_iff₀ hunit hpos,
    div_lt_div_iff₀ hpos hunit]
  exact ⟨by linarith, by linarith⟩

/-- **Seventeen digits suffice.** -/
theorem onGrid_seventeen (hm : significand biased fraction ≠ 0) :
    (rounding biased fraction).onGrid? ((rounding biased fraction).magnitude - 17) ≠ none := by
  have hvalue : (rounding biased fraction).value ≠ 0 :=
    Nat.mul_ne_zero (Nat.mul_ne_zero (by decide) hm) (Nat.two_pow_pos _).ne'
  have hden : (rounding biased fraction).den ≠ 0 := (Nat.two_pow_pos _).ne'
  have hleast := Rounding.magnitude_le hvalue hden
  have hunits := value_rounding biased fraction
  have hquarters : (0 : ℚ) < quartersOfOne := by exact_mod_cast quartersOfOne_pos
  generalize (rounding biased fraction).magnitude = magnitude at *
  obtain ⟨exponent, rfl⟩ : ∃ exponent, magnitude = exponent + 17 := ⟨magnitude - 17, by omega⟩
  have hgrid : (10 : ℚ) ^ (exponent + 17 - 1) = 10 ^ 16 * 10 ^ exponent := by
    rw [← zpow_natCast, ← zpow_add₀ (by norm_num), show exponent + 17 - 1 = (16 : Nat) + exponent by omega]
  rw [add_sub_cancel_right]
  intro hnone
  obtain ⟨hnotLower, hnotUpper⟩ := Rounding.not_contains_of_onGrid hnone
  obtain ⟨hlower, hupper⟩ := @neighbours (rounding biased fraction).value _ hden exponent
  generalize (rounding biased fraction).value * 10 ^ (-exponent).toNat /
    ((rounding biased fraction).den * 10 ^ exponent.toNat) = lower at *
  rw [← Bool.not_eq_true, contains_iff] at hnotLower hnotUpper
  rw [Nat.cast_succ, add_mul, one_mul] at hnotUpper
  rw [add_mul, one_mul] at hupper
  refine not_or.2 ⟨hnotLower, hnotUpper⟩ (near_neighbour hm ?_ ?_ ?_) <;> rw [← hunits]
  · exact mul_le_mul_of_nonneg_right hlower hquarters.le
  · exact mul_lt_mul_of_pos_right hupper hquarters
  · rw [← mul_assoc, ← hgrid]
    exact mul_le_mul_of_nonneg_right hleast hquarters.le

/-- **The shortest decimal is in the interval.** -/
theorem near_shortest (hm : significand biased fraction ≠ 0) :
    Near biased fraction ((shortest biased fraction).1 * 10 ^ (shortest biased fraction).2) :=
  contains_iff.1 (Rounding.contains_search (k := 16) (by decide) (onGrid_seventeen hm))

end

end VaultConsole.Binary64
