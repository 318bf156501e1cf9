import VaultConsole.Time.Calendar
import VaultConsole.Time.Zone
import VaultConsole.Text.Basic

/-!
# Timestamps

A date and a time of day to the microsecond, with the distance of its clock from the universal
one. Two timestamps may name one instant by different clocks.

* `Timestamp.instant`: microseconds since the beginning of 1970.
* `Timestamp.isoText`: the written form.
* `Timestamp.ofInstant?`: an instant by a clock.
* `Timestamp.wall?`: what the clocks of a zone show.
-/

namespace VaultConsole

/-- The microseconds of a day. -/
def dayLength : Nat := 86400000000

/-- The conditions that the parts of a timestamp meet. A distance from the universal clock is
less than a day, and if it is less than a second it is none. -/
def isTimestamp (year month day hour minute second micro : Nat) (offset : Int) : Prop :=
  1 ≤ year ∧ year ≤ 9999 ∧ 1 ≤ month ∧ month ≤ 12 ∧ 1 ≤ day
    ∧ day ≤ Calendar.daysInMonth year month ∧ hour < 24 ∧ minute < 60 ∧ second < 60
    ∧ micro < 1000000 ∧ offset.natAbs < dayLength ∧ (offset = 0 ∨ 1000000 ≤ offset.natAbs)

instance (year month day hour minute second micro : Nat) (offset : Int) :
    Decidable (isTimestamp year month day hour minute second micro offset) := by
  unfold isTimestamp; infer_instance

/-- A date and a time of day, by a clock that is `offset` microseconds ahead of the universal
one. -/
structure Timestamp where
  year : Nat
  month : Nat
  day : Nat
  hour : Nat
  minute : Nat
  second : Nat
  micro : Nat
  offset : Int
  valid : isTimestamp year month day hour minute second micro offset
  deriving DecidableEq

namespace Timestamp

/-- The number of the first day of 1970. -/
def epochDay : Nat := 719163

/-- Microseconds between the beginning of 1970 and a time of day on a numbered day, by one
clock. -/
def microsAt (dayNumber hour minute second micro : Nat) : Int :=
  (((dayNumber : Int) - epochDay) * 86400 + (hour * 3600 + minute * 60 + second : Nat)) * 1000000
    + micro

/-- The instant of a timestamp, in microseconds since the beginning of 1970. -/
def instant (t : Timestamp) : Int :=
  microsAt (Calendar.dayNumber t.year t.month t.day) t.hour t.minute t.second t.micro - t.offset

/-- The date and the time of day that a clock shows. -/
structure Wall where
  year : Nat
  month : Nat
  day : Nat
  hour : Nat
  minute : Nat
  second : Nat
  micro : Nat

/-- What the universal clock shows at an instant from the year 1 to the year 9999. -/
def wallAt? (micros : Int) : Option Wall :=
  let day := micros.fdiv dayLength + epochDay
  let rest := (micros.fmod dayLength).toNat
  let (year, month, dayOfMonth) := Calendar.ofDayNumber day.toNat
  if 1 ≤ day ∧ year ≤ 9999 then
    let seconds := rest / 1000000
    some
      { year, month, day := dayOfMonth
        hour := seconds / 3600, minute := seconds / 60 % 60, second := seconds % 60
        micro := rest % 1000000 }
  else none

/-- An instant by a clock that is `offset` microseconds ahead of the universal one. -/
def ofInstant? (offset micros : Int) : Option Timestamp :=
  match wallAt? (micros + offset) with
  | none => none
  | some w =>
    if h : isTimestamp w.year w.month w.day w.hour w.minute w.second w.micro offset then
      some ⟨w.year, w.month, w.day, w.hour, w.minute, w.second, w.micro, offset, h⟩
    else none

/-- What the clocks of a zone show. They and the universal clock must stay within the years 1 to
9999. -/
def wall? (zone : Zone) (t : Timestamp) : Option Wall :=
  match wallAt? t.instant with
  | none => none
  | some _ => wallAt? (t.instant + zone.offsetAt t.instant)

/-- Date and time of day, joined by a `T`. The microseconds are left out when there are none. -/
def isoLocalText (t : Timestamp) : Text :=
  Text.padded 4 t.year ++ "-" ++ Text.padded 2 t.month ++ "-" ++ Text.padded 2 t.day ++ "T"
    ++ Text.padded 2 t.hour ++ ":" ++ Text.padded 2 t.minute ++ ":" ++ Text.padded 2 t.second
    ++ (if t.micro = 0 then ([] : Text) else "." ++ Text.padded 6 t.micro)

/-- A distance from the universal clock. Seconds and microseconds are left out when there are
none. -/
def offsetText (offset : Int) : Text :=
  let n := offset.natAbs
  let micro := n % 1000000
  let seconds := n / 1000000
  let sign : Text := if offset < 0 then "-" else "+"
  let tail : Text :=
    if micro ≠ 0 then ":" ++ Text.padded 2 (seconds % 60) ++ "." ++ Text.padded 6 micro
    else if seconds % 60 ≠ 0 then ":" ++ Text.padded 2 (seconds % 60)
    else []
  sign ++ Text.padded 2 (seconds / 3600) ++ ":" ++ Text.padded 2 (seconds / 60 % 60) ++ tail

def isoText (t : Timestamp) : Text := isoLocalText t ++ offsetText t.offset

/-- The date that a clock shows. The year has as many digits as it needs. -/
def Wall.dateText (w : Wall) : Text :=
  Text.ofNat w.year ++ "-" ++ Text.padded 2 w.month ++ "-" ++ Text.padded 2 w.day

/-- The time of day that a clock shows, to the second. -/
def Wall.timeText (separator : Text) (w : Wall) : Text :=
  Text.padded 2 w.hour ++ separator ++ Text.padded 2 w.minute ++ separator
    ++ Text.padded 2 w.second

end Timestamp

end VaultConsole
