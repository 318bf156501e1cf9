import VaultConsole.Proofs.Act
import VaultConsole.Proofs.Time.Calendar
import VaultConsole.Time.Clock

/-!
# Where the calendar ends

The calendar has the years 1 to 9999, so a clock shows nothing at an instant before or after them. What
a timestamp says lies inside, but the instant that it names need not, since its own clock may be ahead
of the universal one or behind it; and the clock that shows it is ahead or behind once more. Where a clock
shows an instant, what it shows names that instant.

* `Timestamp.InCalendar`: the instants at which the universal clock shows a date.
* `Timestamp.wall?_isSome_iff`: **when the clocks of a zone can show a timestamp.**
* `Timestamp.showsAt_of_year`: the clocks of every zone can, but for the first year and the last one.
* `Clock.instant_of_localNow`: **the time in the zone of the machine names the instant that the clock
  shows.**
* `Clock.exists_localNow`: there is one in every zone, but for the first days and the last one.
-/

namespace VaultConsole

namespace Timestamp

variable {micros offset : Int}

/-- The instants from the beginning of the year 1 to the end of the year 9999, by the universal clock. -/
def InCalendar (micros : Int) : Prop :=
  -719162 * (dayLength : Int) ≤ micros ∧ micros < 2932897 * (dayLength : Int)

instance (micros : Int) : Decidable (InCalendar micros) := by
  unfold InCalendar
  infer_instance

/-! ## What a clock shows -/

theorem wallAt?_isSome_iff (micros : Int) : (wallAt? micros).isSome ↔ InCalendar micros := by
  have hfloor : micros.fdiv (dayLength : Int) = micros / 86400000000 :=
    Int.fdiv_eq_ediv_of_nonneg micros (by decide)
  have hepoch : (epochDay : Int) = 719163 := rfl
  have hday : (wallAt? micros).isSome ↔ 1 ≤ micros / 86400000000 + epochDay ∧
      (Calendar.ofDayNumber (micros / 86400000000 + epochDay).toNat).1 ≤ 9999 := by
    rw [wallAt?, hfloor]
    generalize Calendar.ofDayNumber (micros / 86400000000 + epochDay).toNat = date
    obtain ⟨year, month, day⟩ := date
    simp only
    split
    · next h => exact ⟨fun _ => h, fun _ => rfl⟩
    · next h => exact ⟨fun hsome => absurd hsome Bool.false_ne_true, fun hday => absurd hday h⟩
  rw [hday, InCalendar, dayLength]
  constructor
  · rintro ⟨hfirst, hyear⟩
    have hlast := (Calendar.year_ofDayNumber_le_iff (by omega)).1 hyear
    omega
  · rintro ⟨hfirst, hlast⟩
    exact ⟨by omega, (Calendar.year_ofDayNumber_le_iff (by omega)).2 (by omega)⟩

/-- **What the universal clock shows is a date and a time of day, and names the instant.** -/
theorem wallAt?_spec {w : Wall} (h : wallAt? micros = some w) :
    Calendar.IsDate w.year w.month w.day ∧ w.year ≤ 9999 ∧
      (w.hour < 24 ∧ w.minute < 60 ∧ w.second < 60 ∧ w.micro < 1000000) ∧
      microsAt (Calendar.dayNumber w.year w.month w.day) w.hour w.minute w.second w.micro = micros := by
  have hfloor : micros.fdiv (dayLength : Int) = micros / 86400000000 :=
    Int.fdiv_eq_ediv_of_nonneg micros (by decide)
  have hrest : micros.fmod (dayLength : Int) = micros % 86400000000 :=
    Int.fmod_eq_emod_of_nonneg micros (by decide)
  have hspec := @Calendar.ofDayNumber_spec (micros / 86400000000 + epochDay).toNat
  rw [wallAt?, hfloor, hrest] at h
  generalize Calendar.ofDayNumber (micros / 86400000000 + epochDay).toNat = date at h hspec
  obtain ⟨year, month, day⟩ := date
  simp only at h
  split at h
  · next hyear =>
    obtain ⟨hdate, hnumber⟩ := hspec (by omega)
    cases h
    refine ⟨hdate, hyear.2, by simp only; omega, ?_⟩
    simp only at hnumber
    simp only [hnumber, microsAt]
    omega
  · cases h

variable {t : Timestamp}

theorem instant_of_ofInstant? (h : ofInstant? offset micros = some t) :
    t.instant = micros ∧ t.offset = offset := by
  rw [ofInstant?] at h
  cases hw : wallAt? (micros + offset) with
  | none =>
    rw [hw] at h
    cases h
  | some w =>
    obtain ⟨-, -, -, hinstant⟩ := wallAt?_spec hw
    simp only [hw, Option.dite_none_right_eq_some, Option.some.injEq] at h
    obtain ⟨-, rfl⟩ := h
    exact ⟨by rw [instant, hinstant, Int.add_sub_cancel], rfl⟩

/-- A distance from the universal clock. -/
def IsOffset (offset : Int) : Prop :=
  offset.natAbs < dayLength ∧ (offset = 0 ∨ 1000000 ≤ offset.natAbs)

/-- A clock shows an instant just where it stays within the calendar. -/
theorem ofInstant?_isSome_iff (hoffset : IsOffset offset) :
    (ofInstant? offset micros).isSome ↔ InCalendar (micros + offset) := by
  rw [← wallAt?_isSome_iff, ofInstant?]
  cases hw : wallAt? (micros + offset) with
  | none => rfl
  | some w =>
    obtain ⟨hdate, hyear, ⟨hhour, hminute, hsecond, hmicro⟩, -⟩ := wallAt?_spec hw
    have hvalid : isTimestamp w.year w.month w.day w.hour w.minute w.second w.micro offset :=
      ⟨hdate.years, hyear, hdate.months.1, hdate.months.2, hdate.days.1, hdate.days.2, hhour, hminute,
        hsecond, hmicro, hoffset⟩
    simp only [dif_pos hvalid, Option.isSome_some]

/-! ## Zones -/

theorem isOffset_offsetAt (zone : Zone) (micros : Int) : IsOffset (zone.offsetAt micros) := by
  have hzone := zone.lt_day (micros.fdiv 1000000)
  unfold IsOffset Zone.offsetAt dayLength
  omega

/-- The clocks of a zone can show a timestamp. -/
def ShowsAt (zone : Zone) (t : Timestamp) : Prop :=
  InCalendar t.instant ∧ InCalendar (t.instant + zone.offsetAt t.instant)

instance (zone : Zone) (t : Timestamp) : Decidable (t.ShowsAt zone) := by
  unfold ShowsAt
  infer_instance

/-- **Clocks show a timestamp just where both they and the universal clock stay within the calendar.** -/
theorem wall?_isSome_iff (zone : Zone) (t : Timestamp) : (t.wall? zone).isSome ↔ t.ShowsAt zone := by
  unfold ShowsAt wall?
  generalize t.instant + zone.offsetAt t.instant = shown, t.instant = micros
  rw [← wallAt?_isSome_iff, ← wallAt?_isSome_iff]
  cases wallAt? micros with
  | none => exact ⟨fun hsome => absurd hsome Bool.false_ne_true, And.left⟩
  | some w => exact ⟨fun hsome => ⟨rfl, hsome⟩, And.right⟩

/-- **The clocks of every zone show a timestamp of the years 2 to 9998**: neither its own distance from the
universal clock nor that of the clocks which show it is more than a day. -/
theorem showsAt_of_year {t : Timestamp} (zone : Zone) (hfirst : 2 ≤ t.year) (hlast : t.year ≤ 9998) :
    t.ShowsAt zone := by
  obtain ⟨-, -, -, hmonth, -, hday, hhour, hminute, hsecond, hmicro, hoffset, -⟩ := t.valid
  have hdays := Calendar.daysInMonth_le t.year t.month
  have hmonths := Calendar.daysBeforeMonth_le t.year t.month
  have hyears : 365 ≤ Calendar.daysBeforeYear t.year ∧ Calendar.daysBeforeYear t.year ≤ 3651500 := by
    have hcenturies : (t.year - 1) / 100 ≤ (t.year - 1) / 4 :=
      Nat.div_le_div_left (by decide) (by decide)
    unfold Calendar.daysBeforeYear
    simp only
    omega
  have hzone := zone.lt_day (t.instant.fdiv 1000000)
  unfold ShowsAt InCalendar Zone.offsetAt
  generalize zone.ahead (t.instant.fdiv 1000000) = ahead at hzone ⊢
  unfold instant microsAt Calendar.dayNumber epochDay
  simp only [dayLength] at hoffset ⊢
  omega

end Timestamp

/-! ## The time in the zone of the machine -/

namespace Clock

open Timestamp (InCalendar)

variable {c : Clock} {t : Timestamp} {micros : Int}

theorem instant_of_now (h : c.now = .ok t) : c.instant = .ok t.instant := by
  obtain ⟨micros, hinstant, h⟩ := bind_eq_ok_iff.1 h
  rw [hinstant]
  cases hshown : Timestamp.ofInstant? 0 micros with
  | none =>
    rw [hshown] at h
    cases h
  | some shown =>
    rw [hshown] at h
    cases h
    rw [(Timestamp.instant_of_ofInstant? hshown).1]

theorem exists_now (h : c.instant = .ok micros) (hin : InCalendar micros) :
    ∃ t, c.now = .ok t ∧ t.instant = micros := by
  obtain ⟨t, ht⟩ := Option.isSome_iff_exists.1
    ((@Timestamp.ofInstant?_isSome_iff micros 0 ⟨by decide, .inl rfl⟩).2 (by rwa [Int.add_zero]))
  refine ⟨t, bind_eq_ok_iff.2 ⟨micros, h, ?_⟩, (Timestamp.instant_of_ofInstant? ht).1⟩
  rw [ht]
  rfl

theorem instant_of_localAt (h : c.localAt micros = .ok t) : t.instant = micros := by
  rw [localAt] at h
  cases hshown : Timestamp.ofInstant? (c.zone.offsetAt micros) micros with
  | none =>
    simp only [hshown] at h
    cases h
  | some shown =>
    simp only [hshown] at h
    cases h
    exact (Timestamp.instant_of_ofInstant? hshown).1

theorem exists_localAt (hin : InCalendar (micros + c.zone.offsetAt micros)) :
    ∃ t, c.localAt micros = .ok t := by
  obtain ⟨t, ht⟩ := Option.isSome_iff_exists.1
    ((Timestamp.ofInstant?_isSome_iff (Timestamp.isOffset_offsetAt c.zone micros)).2 hin)
  refine ⟨t, ?_⟩
  rw [localAt, ht]

theorem instant_of_wallNow (h : c.wallNow = .ok t) : c.instant = .ok t.instant := by
  obtain ⟨now, hnow, h⟩ := bind_eq_ok_iff.1 h
  rw [instant_of_now hnow, instant_of_localAt h]

/-- **The time in the zone of the machine names the instant that the clock shows**, whatever the zone. -/
theorem instant_of_localNow (h : c.localNow = .ok t) : c.instant = .ok t.instant := by
  obtain ⟨now, hnow, h⟩ := bind_eq_ok_iff.1 h
  obtain ⟨before, -, h⟩ := bind_eq_ok_iff.1 h
  cases h
  exact instant_of_wallNow hnow

/-- **There is a time in every zone**, but for the first two days of the calendar and the last one. -/
theorem exists_localNow (h : c.instant = .ok micros) (hfirst : InCalendar (micros - 2 * dayLength))
    (hlast : InCalendar (micros + dayLength)) : ∃ t, c.localNow = .ok t := by
  have hnear : ∀ near : Int, micros - dayLength ≤ near → near ≤ micros →
      InCalendar (near + c.zone.offsetAt near) := by
    intro near hafter hbefore
    have hoffset := (Timestamp.isOffset_offsetAt c.zone near).1
    unfold InCalendar dayLength at *
    omega
  obtain ⟨now, hnow, hinstant⟩ := exists_now h (by unfold InCalendar dayLength at *; omega)
  obtain ⟨t, ht⟩ := exists_localAt (hnear micros (by unfold dayLength; omega) (Int.le_refl _))
  obtain ⟨before, hbefore⟩ :=
    exists_localAt (hnear (micros - dayLength) (Int.le_refl _) (by unfold dayLength; omega))
  have hwall : c.wallNow = .ok t := bind_eq_ok_iff.2 ⟨now, hnow, by rw [hinstant, ht]⟩
  refine ⟨t, bind_eq_ok_iff.2 ⟨t, hwall, bind_eq_ok_iff.2 ⟨before, ?_, rfl⟩⟩⟩
  rw [instant_of_localAt ht, hbefore]

end Clock

end VaultConsole
