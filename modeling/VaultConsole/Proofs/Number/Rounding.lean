import VaultConsole.Number.Arithmetic
import Mathlib.Algebra.Order.Ring.Nat

/-!
# Rounding

A ratio is rounded in one step, to the nearest multiple of a power of two that depends on how great the
ratio is. Counted in units, both the ratio and the number are on one scale.

* `Binary64.roundToEven_near`, `Binary64.roundToEven_eq`: the nearest whole number.
* `Binary64.floorLog2_spec`: how great a ratio is.
* `Binary64.InBinade.ofRatio_eq`: **the number nearest to a ratio**, from its power of two.
* `Binary64.ofScaled_spec`: such a number in units.
* `Binary64.isAtMost_ofUnits`: **rounding keeps the order.**
-/

namespace VaultConsole.Binary64

/-! ## Whole numbers -/

section
variable {num num' den k c : Nat}

/-- The nearest whole number is at most half of one away. -/
theorem roundToEven_near (hden : 0 < den) :
    2 * (roundToEven num den * den) ≤ 2 * num + den ∧
      2 * num ≤ 2 * (roundToEven num den * den) + den := by
  have hdiv : num / den * den + num % den = num := Nat.div_add_mod' num den
  have hmod := Nat.mod_lt num hden
  have hnext : (num / den + 1) * den = num / den * den + den := Nat.succ_mul _ _
  unfold roundToEven
  simp only
  split
  · omega
  · split
    · omega
    · rcases Nat.mod_two_eq_zero_or_one (num / den) with h | h <;> rw [h]
      · rw [Nat.add_zero]
        omega
      · omega

/-- A whole number that is at most half of one away is the nearest one, unless it is odd and just half of
one away. -/
theorem roundToEven_eq (hden : 0 < den) (hlow : 2 * (k * den) ≤ 2 * num + den)
    (hhigh : 2 * num ≤ 2 * (k * den) + den)
    (hodd : k % 2 = 1 → 2 * (k * den) ≠ 2 * num + den ∧ 2 * num ≠ 2 * (k * den) + den) :
    roundToEven num den = k := by
  have hdiv : num / den * den + num % den = num := Nat.div_add_mod' num den
  have hmod := Nat.mod_lt num hden
  have hnext : (num / den + 1) * den = num / den * den + den := Nat.succ_mul _ _
  have hle : num / den ≤ k := by
    by_contra hlt
    have := Nat.mul_le_mul_right den (show k + 1 ≤ num / den by omega)
    rw [Nat.succ_mul] at this
    omega
  have hge : k ≤ num / den + 1 := by
    by_contra hlt
    have := Nat.mul_le_mul_right den (show num / den + 1 + 1 ≤ k by omega)
    rw [Nat.succ_mul, hnext] at this
    omega
  unfold roundToEven
  simp only
  rcases (show k = num / den ∨ k = num / den + 1 by omega) with rfl | rfl
  · split
    · rfl
    · split
      · omega
      · rcases Nat.mod_two_eq_zero_or_one (num / den) with h | h
        · omega
        · have := hodd h
          omega
  · split
    · omega
    · split
      · rfl
      · rcases Nat.mod_two_eq_zero_or_one (num / den) with h | h
        · have := hodd (by omega)
          omega
        · omega

theorem roundToEven_mono (hden : 0 < den) (h : num ≤ num') :
    roundToEven num den ≤ roundToEven num' den := by
  have hnear := @roundToEven_near num den hden
  have hnear' := @roundToEven_near num' den hden
  by_contra hlt
  have hstep := Nat.mul_le_mul_right den (show roundToEven num' den + 1 ≤ roundToEven num den by omega)
  rw [Nat.succ_mul] at hstep
  have heq : num = num' := by omega
  rw [heq] at hlt
  exact hlt (Nat.le_refl _)

theorem roundToEven_mul_right (hc : 0 < c) : roundToEven (num * c) (den * c) = roundToEven num den := by
  have hlt : ∀ a b : Nat, 2 * (a * c) < b * c ↔ 2 * a < b := fun a b => by
    rw [← Nat.mul_assoc, Nat.mul_lt_mul_right hc]
  have hgt : ∀ a b : Nat, b * c < 2 * (a * c) ↔ b < 2 * a := fun a b => by
    rw [← Nat.mul_assoc, Nat.mul_lt_mul_right hc]
  unfold roundToEven
  simp only [Nat.mul_div_mul_right _ _ hc, Nat.mul_mod_mul_right, hlt, hgt]

/-- A whole number stays. -/
theorem roundToEven_mul_self (hden : 0 < den) : roundToEven (k * den) den = k :=
  roundToEven_eq hden (by omega) (by omega) (by omega)

end

/-! ## Powers of two -/

section
variable {num den : Nat}

/-- A power of two that a ratio is not below, while it is below the next one. Two whole exponents tell
the power, which may be a fraction. -/
theorem floorLog2_spec (hnum : num ≠ 0) (hden : den ≠ 0) {up down : Nat}
    (h : (up : Int) - down = floorLog2 num den) :
    den * 2 ^ up ≤ num * 2 ^ down ∧ num * 2 ^ down < den * 2 ^ (up + 1) := by
  have hnumLow := Nat.log2_self_le hnum
  have hnumHigh := @Nat.lt_log2_self num
  have hdenLow := Nat.log2_self_le hden
  have hdenHigh := @Nat.lt_log2_self den
  unfold floorLog2 at h
  simp only [Nat.pow_eq] at h
  generalize num.log2 = a at hnumLow hnumHigh h
  generalize den.log2 = b at hdenLow hdenHigh h
  -- the logarithms tell the power up to one
  have hlow : a + down = b + up + 1 → den * 2 ^ up ≤ num * 2 ^ down := fun he =>
    calc den * 2 ^ up ≤ 2 ^ (b + 1) * 2 ^ up := Nat.mul_le_mul_right _ hdenHigh.le
      _ = 2 ^ a * 2 ^ down := by rw [← Nat.pow_add, ← Nat.pow_add, he, Nat.add_right_comm]
      _ ≤ num * 2 ^ down := Nat.mul_le_mul_right _ hnumLow
  have hhigh : a + down = b + up → num * 2 ^ down < den * 2 ^ (up + 1) := fun he =>
    calc num * 2 ^ down < 2 ^ (a + 1) * 2 ^ down := Nat.mul_lt_mul_of_pos_right hnumHigh (Nat.two_pow_pos _)
      _ = 2 ^ b * 2 ^ (up + 1) := by
        rw [← Nat.pow_add, ← Nat.pow_add, Nat.add_right_comm, he, Nat.add_assoc]
      _ ≤ den * 2 ^ (up + 1) := Nat.mul_le_mul_right _ hdenLow
  by_cases hk : (0 : Int) ≤ (a : Int) - b
  · obtain ⟨κ, hκ⟩ : ∃ κ : Nat, (a : Int) - b = κ := ⟨_, (Int.toNat_of_nonneg hk).symm⟩
    have hsplit : ∀ m, den * 2 ^ κ * 2 ^ m = den * 2 ^ (κ + m) := fun m => by
      rw [Nat.mul_assoc, ← Nat.pow_add]
    rw [hκ] at hk h
    simp only [hk, if_true, Int.toNat_natCast, decide_eq_true_eq] at h
    split at h
    · next hbelow =>
      refine ⟨hlow (by omega), ?_⟩
      have := Nat.mul_lt_mul_of_pos_right hbelow (Nat.two_pow_pos down)
      rwa [hsplit, show κ + down = up + 1 by omega] at this
    · next hnot =>
      refine ⟨?_, hhigh (by omega)⟩
      have := Nat.mul_le_mul_right (2 ^ down) (Nat.le_of_not_lt hnot)
      rwa [hsplit, show κ + down = up by omega] at this
  · obtain ⟨κ, hκ⟩ : ∃ κ : Nat, -((a : Int) - b) = κ := ⟨_, (Int.toNat_of_nonneg (by omega)).symm⟩
    have hsplit : ∀ m, num * 2 ^ κ * 2 ^ m = num * 2 ^ (κ + m) := fun m => by
      rw [Nat.mul_assoc, ← Nat.pow_add]
    simp only [hk, if_false, hκ, Int.toNat_natCast, decide_eq_true_eq] at h
    split at h
    · next hbelow =>
      refine ⟨hlow (by omega), ?_⟩
      have := Nat.mul_lt_mul_of_pos_right hbelow (Nat.two_pow_pos (up + 1))
      rwa [hsplit, show κ + (up + 1) = down by omega] at this
    · next hnot =>
      refine ⟨?_, hhigh (by omega)⟩
      have := Nat.mul_le_mul_right (2 ^ up) (Nat.le_of_not_lt hnot)
      rwa [hsplit, show κ + up = down by omega] at this

theorem unitsOfOne_eq {m : Nat} (h : m = 1074) : unitsOfOne = 2 ^ m := by
  unfold unitsOfOne
  simp only [← h, Nat.pow_eq]

theorem unitsOfOne_pos : 0 < unitsOfOne := by
  obtain ⟨m, hm⟩ : ∃ m, m = 1074 := ⟨_, rfl⟩
  rw [unitsOfOne_eq hm]
  exact Nat.two_pow_pos m

theorem two_pow_add_units {m k : Nat} (h : k = 1074) : 2 ^ (m + k) = 2 ^ m * unitsOfOne := by
  rw [Nat.pow_add, unitsOfOne_eq h]

/-- A ratio lies in the range of a step: in units that many powers of two are one step, and the ratio has
fifty-three binary digits in steps, or fewer if the step is one unit. -/
structure InBinade (num den step : Nat) : Prop where
  below : num * unitsOfOne < den * 2 ^ (step + 53)
  above : step = 0 ∨ den * 2 ^ (step + 52) ≤ num * unitsOfOne

variable {step : Nat}

/-- The exponent that a ratio is rounded at. -/
theorem InBinade.exponent_eq (h : InBinade num den step) (hnum : num ≠ 0) (hden : den ≠ 0) :
    max (-1074) (floorLog2 num den - 52) = (step : Int) - 1074 := by
  obtain ⟨up, more, hup⟩ : ∃ up more : Nat, (up : Int) - (more + 1074 : Nat) = floorLog2 num den :=
    ⟨(floorLog2 num den + 1074 + (-(floorLog2 num den)).toNat).toNat, (-(floorLog2 num den)).toNat,
      by omega⟩
  obtain ⟨hlow, hhigh⟩ := floorLog2_spec hnum hden hup
  have hunits : num * 2 ^ (more + 1074) = num * unitsOfOne * 2 ^ more := by
    rw [two_pow_add_units rfl, Nat.mul_assoc, Nat.mul_comm unitsOfOne]
  have hpow : ∀ m, den * 2 ^ m * 2 ^ more = den * 2 ^ (m + more) := fun m => by
    rw [Nat.pow_add, Nat.mul_assoc]
  have hlt : ∀ {m n}, den * 2 ^ m < den * 2 ^ n → m < n := fun h =>
    (Nat.pow_lt_pow_iff_right (by decide)).1 (Nat.lt_of_mul_lt_mul_left h)
  rw [hunits] at hlow hhigh
  have hupper : up < step + 53 + more := by
    refine hlt (Nat.lt_of_le_of_lt hlow ?_)
    rw [← hpow]
    exact Nat.mul_lt_mul_of_pos_right h.below (Nat.two_pow_pos _)
  rcases h.above with hzero | habove
  · omega
  · have hlower : step + 52 + more < up + 1 := by
      refine hlt (Nat.lt_of_le_of_lt ?_ hhigh)
      rw [← hpow]
      exact Nat.mul_le_mul_right _ habove
    omega

/-- **The number nearest to a ratio.** -/
theorem InBinade.ofRatio_eq (h : InBinade num den step) (hnum : num ≠ 0) (hden : den ≠ 0)
    (negative : Bool) :
    ofRatio negative num den =
      ofScaled negative (roundToEven (num * unitsOfOne) (den * 2 ^ step)) ((step : Int) - 1074) := by
  have hwhole : (if (0 : Int) ≤ (step : Int) - 1074 then
        roundToEven num (den * 2 ^ ((step : Int) - 1074).toNat)
      else roundToEven (num * 2 ^ (-((step : Int) - 1074)).toNat) den) =
      roundToEven (num * unitsOfOne) (den * 2 ^ step) := by
    split
    · next hnonneg =>
      have hstep : den * 2 ^ step = den * 2 ^ ((step : Int) - 1074).toNat * unitsOfOne := by
        rw [Nat.mul_assoc, ← two_pow_add_units rfl, show ((step : Int) - 1074).toNat + 1074 = step by omega]
      rw [hstep, roundToEven_mul_right unitsOfOne_pos]
    · next hneg =>
      obtain ⟨rest, hrest⟩ : ∃ rest : Nat, rest + step = 1074 := ⟨1074 - step, by omega⟩
      have hunits : num * unitsOfOne = num * 2 ^ rest * 2 ^ step := by
        rw [Nat.mul_assoc, ← Nat.pow_add, unitsOfOne_eq hrest]
      rw [hunits, roundToEven_mul_right (Nat.two_pow_pos _),
        show (-((step : Int) - 1074)).toNat = rest by omega]
  unfold ofRatio
  simp only [hnum, if_false, h.exponent_eq hnum hden, Nat.pow_eq, hwhole]

end

/-! ## Numbers in units -/

/-- How many units a finite number is away from zero. -/
def size (biased : Fin 2047) (fraction : Fin fractions) : Nat :=
  significand biased fraction * 2 ^ (biased.val - 1)

/-- The step between the greatest finite numbers, as a power of two. -/
def lastStep : Nat := 2045

/-- The least size that is beyond all finite numbers. -/
def endSize : Nat := 2 * fractions * 2 ^ lastStep

theorem two_mul_fractions (m : Nat) : 2 * fractions * 2 ^ m = fractions * 2 ^ (m + 1) := by
  rw [Nat.pow_succ, Nat.mul_comm 2, Nat.mul_assoc, Nat.mul_comm 2]

section
variable (negative negative' : Bool) (biased biased' : Fin 2047) (fraction fraction' : Fin fractions)

theorem significand_lt : significand biased fraction < 2 * fractions := by
  unfold significand
  have := fraction.isLt
  split <;> omega

theorem units_finite : (finite negative biased fraction).units =
    .ok (if negative then -(size biased fraction : Int) else size biased fraction) := rfl

theorem size_lt : size biased fraction < endSize := by
  have hpow : 2 ^ (biased.val - 1) ≤ 2 ^ lastStep :=
    Nat.pow_le_pow_right (by decide) (by unfold lastStep; omega)
  exact Nat.mul_lt_mul_of_lt_of_le (significand_lt biased fraction) hpow (Nat.two_pow_pos _)

end

variable {whole step m n : Nat}

/-- A whole number of steps as a number: it has that many units, or it is beyond all finite numbers. -/
theorem ofScaled_spec (hwhole : whole ≤ 2 * fractions) (hstep : step = 0 ∨ fractions ≤ whole)
    (negative : Bool) :
    (ofScaled negative whole ((step : Int) - 1074) = .infinite negative ∧ endSize ≤ whole * 2 ^ step) ∨
      ∃ biased fraction, ofScaled negative whole ((step : Int) - 1074) = .finite negative biased fraction ∧
        size biased fraction = whole * 2 ^ step := by
  unfold ofScaled
  split
  · next hsmall =>
    obtain rfl : step = 0 := by omega
    exact .inr ⟨_, _, rfl, rfl⟩
  · next hlarge =>
    by_cases htop : whole = 2 * fractions
    · subst htop
      have hexponent : ((step : Int) - 1074 + 1 + 1075).toNat = step + 2 := by omega
      simp only [if_true, hexponent]
      split
      · next hinside =>
        refine .inr ⟨_, _, rfl, ?_⟩
        rw [two_mul_fractions]
        simp [size, significand]
      · next hbeyond =>
        refine .inl ⟨rfl, Nat.mul_le_mul_left _ (Nat.pow_le_pow_right (by decide) ?_)⟩
        by_contra hlt
        exact hbeyond ⟨by unfold lastStep at hlt; omega, by decide⟩
    · have hexponent : ((step : Int) - 1074 + 1075).toNat = step + 1 := by omega
      simp only [htop, if_false, hexponent]
      split
      · next hinside =>
        refine .inr ⟨_, _, rfl, ?_⟩
        simp only [size, significand, Nat.add_one_ne_zero, if_false, Nat.add_sub_cancel]
        rw [Nat.add_sub_cancel' (by omega)]
      · next hbeyond =>
        refine .inl ⟨rfl, ?_⟩
        have hfar : lastStep + 1 ≤ step := by
          by_contra hlt
          exact hbeyond ⟨by unfold lastStep at hlt; omega, by omega⟩
        calc endSize = fractions * 2 ^ (lastStep + 1) := two_mul_fractions _
          _ ≤ whole * 2 ^ step :=
            Nat.mul_le_mul (by omega) (Nat.pow_le_pow_right (by decide) hfar)

/-! ## The order -/

/-- The step that a number of units is rounded at, as a power of two. -/
def stepOf (n : Nat) : Nat := n.log2 - 52

/-- A number of units rounded to a multiple of its step. -/
def rounded (n : Nat) : Nat := roundToEven n (2 ^ stepOf n) * 2 ^ stepOf n

theorem lt_steps (n : Nat) : n < 2 * fractions * 2 ^ stepOf n :=
  calc n < 2 ^ (n.log2 + 1) := Nat.lt_log2_self
    _ ≤ 2 ^ (53 + stepOf n) := Nat.pow_le_pow_right (by decide) (by unfold stepOf; omega)
    _ = 2 * fractions * 2 ^ stepOf n := Nat.pow_add 2 53 _

theorem steps_le (hn : n ≠ 0) : stepOf n = 0 ∨ fractions * 2 ^ stepOf n ≤ n := by
  refine (Nat.eq_zero_or_pos _).imp id fun hpos => ?_
  calc fractions * 2 ^ stepOf n = 2 ^ (52 + stepOf n) := (Nat.pow_add 2 52 _).symm
    _ = 2 ^ n.log2 := by rw [show 52 + stepOf n = n.log2 by unfold stepOf at hpos ⊢; omega]
    _ ≤ n := Nat.log2_self_le hn

theorem inBinade_units (hn : n ≠ 0) : InBinade n unitsOfOne (stepOf n) := by
  have hbelow := lt_steps n
  have hpow53 : 2 ^ (stepOf n + 53) = 2 * fractions * 2 ^ stepOf n := by
    rw [Nat.add_comm]
    exact Nat.pow_add 2 53 _
  have hpow52 : 2 ^ (stepOf n + 52) = fractions * 2 ^ stepOf n := by
    rw [Nat.add_comm]
    exact Nat.pow_add 2 52 _
  refine ⟨?_, (steps_le hn).imp id fun hle => ?_⟩
  · rw [Nat.mul_comm, hpow53]
    exact Nat.mul_lt_mul_of_pos_left hbelow unitsOfOne_pos
  · rw [Nat.mul_comm n, hpow52]
    exact Nat.mul_le_mul_left _ hle

theorem whole_le (n : Nat) : roundToEven n (2 ^ stepOf n) ≤ 2 * fractions :=
  calc roundToEven n (2 ^ stepOf n) ≤ roundToEven (2 * fractions * 2 ^ stepOf n) (2 ^ stepOf n) :=
        roundToEven_mono (Nat.two_pow_pos _) (lt_steps n).le
    _ = 2 * fractions := roundToEven_mul_self (Nat.two_pow_pos _)

theorem le_whole (hn : n ≠ 0) : stepOf n = 0 ∨ fractions ≤ roundToEven n (2 ^ stepOf n) := by
  refine (steps_le hn).imp id fun hle => ?_
  calc fractions = roundToEven (fractions * 2 ^ stepOf n) (2 ^ stepOf n) :=
        (roundToEven_mul_self (Nat.two_pow_pos _)).symm
    _ ≤ roundToEven n (2 ^ stepOf n) := roundToEven_mono (Nat.two_pow_pos _) hle

/-- Within the range of one step the order is kept since the nearest multiples keep it, and between two
ranges lies a power of two that is a multiple of both steps. -/
theorem rounded_mono (hm : m ≠ 0) (h : m ≤ n) : rounded m ≤ rounded n := by
  have hlog : m.log2 ≤ n.log2 :=
    (Nat.le_log2 (by omega)).2 (Nat.le_trans (Nat.log2_self_le hm) h)
  have hsteps : stepOf m ≤ stepOf n := Nat.sub_le_sub_right hlog _
  rcases Nat.eq_or_lt_of_le hsteps with heq | hlt
  · unfold rounded
    rw [heq]
    exact Nat.mul_le_mul_right _ (roundToEven_mono (Nat.two_pow_pos _) h)
  · calc rounded m ≤ 2 * fractions * 2 ^ stepOf m := Nat.mul_le_mul_right _ (whole_le m)
      _ = fractions * 2 ^ (stepOf m + 1) := two_mul_fractions _
      _ ≤ fractions * 2 ^ stepOf n := Nat.mul_le_mul_left _ (Nat.pow_le_pow_right (by decide) hlt)
      _ ≤ rounded n := Nat.mul_le_mul_right _ ((le_whole (by omega)).resolve_left (by omega))

section
variable {x y z : Binary64} {i j : Int}

/-- What it takes for one number to be at most another one. -/
theorem isAtMost_iff : x.isAtMost y = true ↔ x ≠ .nan ∧ y ≠ .nan ∧
    (x = .infinite true ∨ y = .infinite false ∨
      ∃ i j, x.units = .ok i ∧ y.units = .ok j ∧ i ≤ j) := by
  cases x with
  | nan => simp [isAtMost]
  | infinite s =>
    cases s <;> cases y with
    | nan => simp [isAtMost]
    | infinite t => cases t <;> simp [isAtMost, units]
    | finite => simp [isAtMost, units]
  | finite =>
    cases y with
    | nan => simp [isAtMost]
    | infinite t => cases t <;> simp [isAtMost, units]
    | finite =>
      unfold isAtMost
      simp [units_finite]

theorem isAtMost_iff_of_units (hx : x.units = .ok i) (hy : y.units = .ok j) :
    x.isAtMost y = true ↔ i ≤ j := by
  have hfinite : ∀ {z : Binary64} {k}, z.units = .ok k → z ≠ .nan ∧ ∀ s, z ≠ .infinite s := by
    rintro z k hz
    cases z with
    | nan => cases hz
    | infinite => cases hz
    | finite => exact ⟨nofun, nofun⟩
  rw [isAtMost_iff]
  constructor
  · rintro ⟨-, -, rfl | rfl | ⟨i', j', hi, hj, hle⟩⟩
    · exact absurd rfl ((hfinite hx).2 _)
    · exact absurd rfl ((hfinite hy).2 _)
    · rw [hx] at hi
      rw [hy] at hj
      cases hi
      cases hj
      exact hle
  · exact fun hle => ⟨(hfinite hx).1, (hfinite hy).1, .inr (.inr ⟨i, j, hx, hy, hle⟩)⟩

/-- Unless it is no number, a number is an infinity or has units. -/
theorem units_cases (x : Binary64) : x = .nan ∨ (∃ s, x = .infinite s) ∨ ∃ i, x.units = .ok i := by
  cases x with
  | nan => exact .inl rfl
  | infinite s => exact .inr (.inl ⟨s, rfl⟩)
  | finite => exact .inr (.inr ⟨_, rfl⟩)

/-- Of two numbers one is at most the other. -/
theorem isAtMost_total (hx : x ≠ .nan) (hy : y ≠ .nan) :
    x.isAtMost y = true ∨ y.isAtMost x = true := by
  rw [isAtMost_iff, isAtMost_iff]
  rcases x.units_cases with rfl | ⟨s, rfl⟩ | ⟨i, hi⟩
  · exact absurd rfl hx
  · cases s
    · exact .inr ⟨hy, hx, .inr (.inl rfl)⟩
    · exact .inl ⟨hx, hy, .inl rfl⟩
  · rcases y.units_cases with rfl | ⟨s, rfl⟩ | ⟨j, hj⟩
    · exact absurd rfl hy
    · cases s
      · exact .inl ⟨hx, hy, .inr (.inl rfl)⟩
      · exact .inr ⟨hy, hx, .inl rfl⟩
    · rcases Int.le_total i j with hle | hle
      · exact .inl ⟨hx, hy, .inr (.inr ⟨i, j, hi, hj, hle⟩)⟩
      · exact .inr ⟨hy, hx, .inr (.inr ⟨j, i, hj, hi, hle⟩)⟩

theorem isAtMost_trans (h : x.isAtMost y = true) (h' : y.isAtMost z = true) : x.isAtMost z = true := by
  obtain ⟨hx, -, h⟩ := isAtMost_iff.1 h
  obtain ⟨-, hz, h'⟩ := isAtMost_iff.1 h'
  refine isAtMost_iff.2 ⟨hx, hz, ?_⟩
  rcases h with rfl | rfl | ⟨i, j, hi, hj, hle⟩
  · exact .inl rfl
  · rcases h' with h' | h' | ⟨j', k, hj', -⟩
    · cases h'
    · exact .inr (.inl h')
    · cases hj'
  · rcases h' with rfl | h' | ⟨j', k, hj', hk, hle'⟩
    · cases hj
    · exact .inr (.inl h')
    · rw [hj] at hj'
      cases hj'
      exact .inr (.inr ⟨i, k, hi, hk, Int.le_trans hle hle'⟩)

/-- A number is at least what a smaller one is at least. -/
theorem isAtLeastWhole_mono (h : x.isAtMost y = true) (hx : x.isAtLeastWhole i = true) :
    y.isAtLeastWhole i = true := by
  obtain ⟨-, hy, h⟩ := isAtMost_iff.1 h
  rcases h with rfl | rfl | ⟨m, n, hm, hn, hle⟩
  · cases hx
  · rfl
  · cases x with
    | nan => cases hm
    | infinite => cases hm
    | finite =>
      cases y with
      | nan => cases hn
      | infinite => cases hn
      | finite =>
        unfold isAtLeastWhole at *
        simp only [hm, hn, decide_eq_true_eq] at *
        omega

end

/-- A number stands for a size, which may be beyond all finite numbers. -/
inductive StandsFor (n : Nat) : Binary64 → Prop
  | finite {x : Binary64} (h : x.units = .ok (n : Int)) (hn : n < endSize) : StandsFor n x
  | infinite (h : endSize ≤ n) : StandsFor n (.infinite false)

theorem standsFor_ofUnits (hn : n ≠ 0) (negativeZero : Bool) :
    StandsFor (rounded n) (ofUnits negativeZero n) := by
  have hwhole : roundToEven (n * unitsOfOne) (unitsOfOne * 2 ^ stepOf n) =
      roundToEven n (2 ^ stepOf n) := by
    rw [Nat.mul_comm unitsOfOne, roundToEven_mul_right unitsOfOne_pos]
  have hratio := (inBinade_units hn).ofRatio_eq hn unitsOfOne_pos.ne' false
  rw [hwhole] at hratio
  have hunits : ofUnits negativeZero n = ofRatio false n unitsOfOne := by
    have hsign : decide ((n : Int) < 0) = false := decide_eq_false (by omega)
    rw [ofUnits, if_neg (by omega), hsign]
    rfl
  rw [hunits, hratio]
  rcases ofScaled_spec (whole_le n) (le_whole hn) false with ⟨heq, hbeyond⟩ | ⟨b, f, heq, hsize⟩
  · rw [heq]
    exact .infinite hbeyond
  · rw [heq, rounded, ← hsize]
    exact .finite rfl (size_lt b f)

theorem StandsFor.isAtMost {x y : Binary64} (hx : StandsFor m x) (hy : StandsFor n y) (h : m ≤ n) :
    x.isAtMost y = true := by
  cases hy with
  | infinite hbeyond =>
    cases hx with
    | infinite => rfl
    | finite hx =>
      cases x with
      | nan => cases hx
      | infinite s => cases hx
      | finite => rfl
  | finite hy hn =>
    cases hx with
    | infinite hbeyond => omega
    | finite hx => exact (isAtMost_iff_of_units hx hy).2 (by omega)

/-- **Rounding keeps the order.** -/
theorem isAtMost_ofUnits {i j : Int} (hi : 0 ≤ i) (h : i ≤ j) (s t : Bool) :
    (ofUnits s i).isAtMost (ofUnits t j) = true := by
  obtain ⟨m, rfl⟩ := Int.eq_ofNat_of_zero_le hi
  obtain ⟨n, rfl⟩ := Int.eq_ofNat_of_zero_le (Int.le_trans hi h)
  have hzero : ∀ s, StandsFor 0 (ofUnits s (0 : Nat)) := fun s => by
    have hunits : (ofUnits s (0 : Nat)).units = .ok (0 : Nat) := by cases s <;> rfl
    exact .finite hunits (Nat.mul_pos (by decide) (Nat.two_pow_pos _))
  rcases Nat.eq_zero_or_pos m with rfl | hm
  · rcases Nat.eq_zero_or_pos n with rfl | hn
    · exact (hzero s).isAtMost (hzero t) (Nat.le_refl 0)
    · exact (hzero s).isAtMost (standsFor_ofUnits hn.ne' t) (Nat.zero_le _)
  · exact (standsFor_ofUnits hm.ne' s).isAtMost (standsFor_ofUnits (by omega) t)
      (rounded_mono hm.ne' (by omega))

/-! ## Differences -/

/-- One number is not greater than another one, and both are finite. -/
def NotAbove (x y : Binary64) : Prop := ∃ i j, x.units = .ok i ∧ y.units = .ok j ∧ i ≤ j

instance (x y : Binary64) : Decidable (x.NotAbove y) :=
  match hx : x.units, hy : y.units with
  | .ok i, .ok j => decidable_of_iff (i ≤ j)
    ⟨fun h => ⟨i, j, hx, hy, h⟩, fun ⟨_, _, hi, hj, h⟩ => by cases hx ▸ hi; cases hy ▸ hj; exact h⟩
  | .error _, _ => isFalse fun ⟨_, _, hi, _⟩ => nomatch hx ▸ hi
  | .ok _, .error _ => isFalse fun ⟨_, _, _, hj, _⟩ => nomatch hy ▸ hj

variable {x y z : Binary64}

theorem NotAbove.trans (h : x.NotAbove y) (h' : y.NotAbove z) : x.NotAbove z := by
  obtain ⟨i, j, hi, hj, hle⟩ := h
  obtain ⟨j', k, hj', hk, hle'⟩ := h'
  rw [hj] at hj'
  cases hj'
  exact ⟨i, k, hi, hk, Int.le_trans hle hle'⟩

theorem NotAbove.refl_left (h : x.NotAbove y) : x.NotAbove x := by
  obtain ⟨i, -, hi, -⟩ := h
  exact ⟨i, i, hi, hi, Int.le_refl i⟩

theorem NotAbove.refl_right (h : x.NotAbove y) : y.NotAbove y := by
  obtain ⟨-, j, -, hj, -⟩ := h
  exact ⟨j, j, hj, hj, Int.le_refl j⟩

/-- A difference is rounded once. -/
theorem sub_eq {i j : Int} (hx : x.units = .ok i) (hy : y.units = .ok j) :
    ∃ negativeZero, x.sub y = ofUnits negativeZero (i - j) := by
  cases x with
  | nan => cases hx
  | infinite => cases hx
  | finite =>
    cases y with
    | nan => cases hy
    | infinite => cases hy
    | finite negative biased fraction =>
      have hopposite : (opposite (.finite negative biased fraction)).units = .ok (-j) := by
        rw [units_finite] at hy
        cases hy
        cases negative
        · rfl
        · exact congrArg Except.ok (Int.neg_neg _).symm
      unfold sub add
      unfold opposite at hopposite ⊢
      simp only [hx, hopposite]
      exact ⟨_, rfl⟩

/-- **More time has passed at a later time.** -/
theorem isAtMost_sub {since : Binary64} (hsince : since.NotAbove x) (h : x.NotAbove y) :
    (x.sub since).isAtMost (y.sub since) = true := by
  obtain ⟨s, i, hs, hi, hsle⟩ := hsince
  obtain ⟨i', j, hi', hj, hle⟩ := h
  rw [hi] at hi'
  cases hi'
  obtain ⟨_, hx⟩ := sub_eq hi hs
  obtain ⟨_, hy⟩ := sub_eq hj hs
  rw [hx, hy]
  exact isAtMost_ofUnits (by omega) (by omega) _ _

end VaultConsole.Binary64
