import VaultConsole.Time.Calendar

/-!
# Days and dates

The calendar gives every day a date, and the date has that day for its number.

* `Calendar.IsDate`: the dates that there are.
* `Calendar.monthOfDay_spec`: the month of a day of a year.
* `Calendar.ofDayNumber_spec`: **the date of a day is a date, and its day is that day.**
* `Calendar.year_ofDayNumber_le_iff`: the last day of the year 9999.
-/

namespace VaultConsole.Calendar

variable {year month n : Nat}

/-! ## Months -/

theorem daysInMonth_le (year month : Nat) : daysInMonth year month ≤ 31 := by
  unfold daysInMonth
  split
  · split <;> decide
  · split <;> decide

theorem daysBeforeMonth_succ (year : Nat) (hmonth : 1 ≤ month) :
    daysBeforeMonth year (month + 1) = daysBeforeMonth year month + daysInMonth year month := by
  have hmonths : (List.range (month + 1)).drop 1 = (List.range month).drop 1 ++ [month] := by
    rw [List.range_succ, List.drop_append_of_le_length (by rwa [List.length_range])]
  rw [daysBeforeMonth, hmonths, List.foldl_append]
  rfl

theorem daysBeforeMonth_le (year month : Nat) : daysBeforeMonth year month ≤ 31 * month := by
  induction month with
  | zero => exact Nat.le_refl 0
  | succ month ih =>
    rcases Nat.eq_zero_or_pos month with rfl | hmonth
    · exact Nat.zero_le _
    · have hlength := daysInMonth_le year month
      rw [daysBeforeMonth_succ year hmonth]
      omega

theorem daysBeforeMonth_mono (year : Nat) {later : Nat} (hmonth : 1 ≤ month) (hlater : month ≤ later) :
    daysBeforeMonth year month ≤ daysBeforeMonth year later := by
  induction hlater with
  | refl => exact Nat.le_refl _
  | @step later hle ih =>
    rw [daysBeforeMonth_succ year (Nat.le_trans hmonth hle)]
    exact Nat.le_add_right_of_le ih

/-- The length of a year. -/
theorem daysBeforeMonth_thirteen (year : Nat) :
    daysBeforeMonth year 13 = if isLeap year then 366 else 365 := by
  show (((List.range 13).drop 1).foldl (fun n m => n + daysInMonth year m) 0) = _
  cases hleap : isLeap year <;> simp [List.range, List.range.loop, daysInMonth, hleap]

/-- A day that is left of a year lies in the month that is found for it. -/
theorem monthOfDay_spec (year tries : Nat) : ∀ {month day : Nat}, 1 ≤ month →
    daysBeforeMonth year month + day < daysBeforeMonth year (month + tries + 1) →
      month ≤ (monthOfDay year month tries day).1 ∧
      (monthOfDay year month tries day).1 ≤ month + tries ∧
      1 ≤ (monthOfDay year month tries day).2 ∧
      (monthOfDay year month tries day).2 ≤ daysInMonth year (monthOfDay year month tries day).1 ∧
      daysBeforeMonth year (monthOfDay year month tries day).1 + (monthOfDay year month tries day).2 =
        daysBeforeMonth year month + day + 1 := by
  induction tries with
  | zero =>
    intro month day hmonth hday
    have hnext := daysBeforeMonth_succ year hmonth
    rw [Nat.add_zero] at hday
    simp only [monthOfDay]
    omega
  | succ tries ih =>
    intro month day hmonth hday
    have hnext := daysBeforeMonth_succ year hmonth
    rw [monthOfDay]
    split
    · next hthis =>
      exact ⟨Nat.le_refl _, Nat.le_add_right _ _, Nat.le_add_left _ _, hthis, rfl⟩
    · next hlater =>
      have hrest := @ih (month + 1) (day - daysInMonth year month) (by omega) (by
        rw [show month + 1 + tries + 1 = month + (tries + 1) + 1 by omega]
        omega)
      omega

/-! ## Years -/

theorem daysBeforeYear_succ (hyear : 1 ≤ year) :
    daysBeforeYear (year + 1) = daysBeforeYear year + if isLeap year then 366 else 365 := by
  obtain ⟨y, rfl⟩ := Nat.exists_eq_add_of_le' hyear
  have hfew : y / 100 ≤ y / 4 := Nat.div_le_div_left (by decide) (by decide)
  have hleap : isLeap (y + 1) = true ↔
      (y + 1) % 4 = 0 ∧ ((y + 1) % 100 ≠ 0 ∨ (y + 1) % 400 = 0) := by simp [isLeap]
  have hfour : (y + 1) % 100 = 0 → (y + 1) % 4 = 0 := by omega
  have hhundred : (y + 1) % 400 = 0 → (y + 1) % 100 = 0 := by omega
  unfold daysBeforeYear
  simp only [Nat.add_sub_cancel, Nat.succ_div, Nat.dvd_iff_mod_eq_zero, hleap]
  generalize y / 4 = fours, y / 100 = hundreds, y / 400 = cycles at hfew ⊢
  generalize (y + 1) % 4 = a, (y + 1) % 100 = b, (y + 1) % 400 = c at hfour hhundred ⊢
  split <;> split <;> split <;> split <;> omega

/-- A year after whole cycles of 400, 100 and 4 years and whole years. -/
theorem daysBeforeYear_cycles {n400 n100 n4 n1 : Nat} (h100 : n100 ≤ 3) (h4 : n4 ≤ 24) (h1 : n1 ≤ 3) :
    daysBeforeYear (n400 * 400 + n100 * 100 + n4 * 4 + n1 + 1) =
      n400 * 146097 + n100 * 36524 + n4 * 1461 + n1 * 365 := by
  unfold daysBeforeYear
  simp only
  omega

/-! ## Days -/

/-- The month is there in the year, and the day in the month. -/
structure IsDate (year month day : Nat) : Prop where
  years : 1 ≤ year
  months : 1 ≤ month ∧ month ≤ 12
  days : 1 ≤ day ∧ day ≤ daysInMonth year month

/-- A date lies in its year. -/
theorem IsDate.dayNumber_le {day : Nat} (h : IsDate year month day) :
    dayNumber year month day ≤ daysBeforeYear (year + 1) := by
  have hmonths := daysBeforeMonth_mono year (Nat.le_add_left 1 month) (Nat.succ_le_succ h.months.2)
  rw [daysBeforeMonth_succ year h.months.1, daysBeforeMonth_thirteen] at hmonths
  have hday := h.days.2
  rw [dayNumber, daysBeforeYear_succ h.years]
  omega

/-- The year of a day, and which of its days it is. -/
theorem exists_ofDayNumber_eq (hn : 1 ≤ n) :
    ∃ year day, 1 ≤ year ∧ day < daysBeforeMonth year 13 ∧ daysBeforeYear year + day + 1 = n ∧
      ofDayNumber n = (year, monthOfDay year 1 11 day) := by
  -- whole cycles of 400, 100 and 4 years, whole years, and what is left after each
  have hcycle := Nat.div_add_mod (n - 1) 146097
  have hrest : (n - 1) % 146097 < 146097 := Nat.mod_lt _ (by decide)
  unfold ofDayNumber
  simp only
  generalize (n - 1) / 146097 = n400 at hcycle ⊢
  generalize (n - 1) % 146097 = rest at hcycle hrest ⊢
  have hcentury : min (rest / 36524) 3 = 3 ∨
      min (rest / 36524) 3 ≤ 2 ∧ rest - min (rest / 36524) 3 * 36524 < 36524 := by omega
  have hdays : rest - min (rest / 36524) 3 * 36524 + min (rest / 36524) 3 * 36524 = rest := by omega
  have h100 : min (rest / 36524) 3 ≤ 3 := Nat.min_le_right _ _
  generalize min (rest / 36524) 3 = n100 at hcentury hdays h100 ⊢
  generalize rest - n100 * 36524 = days at hcentury hdays ⊢
  have hleap := Nat.div_add_mod days 1461
  have hleft : days % 1461 < 1461 := Nat.mod_lt _ (by decide)
  generalize days / 1461 = n4 at hleap ⊢
  generalize days % 1461 = left at hleap hleft ⊢
  have hyear : min (left / 365) 3 = 3 ∧ left - min (left / 365) 3 * 365 ≤ 365 ∨
      left - min (left / 365) 3 * 365 < 365 := by omega
  have hday : left - min (left / 365) 3 * 365 + min (left / 365) 3 * 365 = left := by omega
  have h1 : min (left / 365) 3 ≤ 3 := Nat.min_le_right _ _
  generalize min (left / 365) 3 = n1 at hyear hday h1 ⊢
  generalize left - n1 * 365 = day at hyear hday ⊢
  have h4 : n4 ≤ 24 := by omega
  have hbefore := @daysBeforeYear_cycles n400 n100 n4 n1 h100 h4 h1
  refine ⟨_, day, Nat.le_add_left 1 _, ?_, by omega, rfl⟩
  rw [daysBeforeMonth_thirteen]
  split
  · omega
  · next hcommon =>
    -- only the last of four years has a 366th day, and it is a leap year where that day is left
    refine hyear.elim (fun hlast => ?_) id
    rcases Nat.lt_or_eq_of_le hlast.2 with hshort | hlong
    · exact hshort
    · refine absurd ?_ hcommon
      simp only [isLeap, Bool.and_eq_true, Bool.or_eq_true, beq_iff_eq, bne_iff_ne]
      omega

/-- **The date of a day is a date, and its day is that day.** -/
theorem ofDayNumber_spec (hn : 1 ≤ n) :
    IsDate (ofDayNumber n).1 (ofDayNumber n).2.1 (ofDayNumber n).2.2 ∧
      dayNumber (ofDayNumber n).1 (ofDayNumber n).2.1 (ofDayNumber n).2.2 = n := by
  obtain ⟨year, day, hyear, hday, hnumber, heq⟩ := exists_ofDayNumber_eq hn
  have hnone : daysBeforeMonth year 1 = 0 := rfl
  obtain ⟨hfirst, hlast, hstart, hstop, hmonths⟩ :=
    @monthOfDay_spec year 11 1 day (Nat.le_refl 1) (by rwa [hnone, Nat.zero_add])
  rw [heq]
  refine ⟨⟨hyear, ⟨hfirst, hlast⟩, hstart, hstop⟩, ?_⟩
  calc daysBeforeYear year + daysBeforeMonth year (monthOfDay year 1 11 day).1 + (monthOfDay year 1 11 day).2
    _ = daysBeforeYear year + (daysBeforeMonth year 1 + day + 1) := by rw [Nat.add_assoc, hmonths]
    _ = n := by rw [hnone, Nat.zero_add, ← Nat.add_assoc, hnumber]

/-- A day is in the year 9999 or before just if it is no later than the last one of that year. -/
theorem year_ofDayNumber_le_iff (hn : 1 ≤ n) : (ofDayNumber n).1 ≤ 9999 ↔ n ≤ 3652059 := by
  obtain ⟨hdate, hnumber⟩ := ofDayNumber_spec hn
  generalize ofDayNumber n = date at hdate hnumber
  obtain ⟨year, month, day⟩ := date
  have hle := hdate.dayNumber_le
  have hday := hdate.days.1
  rw [hnumber] at hle
  unfold dayNumber at hnumber
  unfold daysBeforeYear at hle hnumber
  simp only at hle hnumber hday ⊢
  omega

end VaultConsole.Calendar
