/-!
# The calendar

The Gregorian calendar, carried back to the year 1. Days are numbered from 1, the first of
January of the year 1, which was a Monday.

* `Calendar.dayNumber`, `Calendar.ofDayNumber`: a date as a number and back.
* `Calendar.weekDay?`: the date of a weekday in a numbered week.
-/

namespace VaultConsole.Calendar

/-- The years with a 29th of February. -/
def isLeap (year : Nat) : Bool := year % 4 == 0 && (year % 100 != 0 || year % 400 == 0)

/-- The length of a month, which counts from 1. -/
def daysInMonth (year month : Nat) : Nat :=
  if month = 2 then (if isLeap year then 29 else 28)
  else if month = 4 ∨ month = 6 ∨ month = 9 ∨ month = 11 then 30
  else 31

/-- The days before a year. -/
def daysBeforeYear (year : Nat) : Nat :=
  let y := year - 1
  y * 365 + y / 4 - y / 100 + y / 400

/-- The days of a year before a month. -/
def daysBeforeMonth (year month : Nat) : Nat :=
  ((List.range month).drop 1).foldl (fun n m => n + daysInMonth year m) 0

def dayNumber (year month day : Nat) : Nat :=
  daysBeforeYear year + daysBeforeMonth year month + day

/-- The month and the day in it, of a day of a year that counts from zero, looking from a month
on. -/
def monthOfDay (year : Nat) : (month : Nat) → (tries : Nat) → (day : Nat) → Nat × Nat
  | month, 0, day => (month, day + 1)
  | month, tries + 1, day =>
    if day < daysInMonth year month then (month, day + 1)
    else monthOfDay year (month + 1) tries (day - daysInMonth year month)

/-- The date of a day number: whole cycles of 400, 100 and 4 years first, then single years. The
last day of a cycle belongs to its last year. -/
def ofDayNumber (n : Nat) : Nat × Nat × Nat :=
  let n := n - 1
  let n400 := n / 146097
  let n := n % 146097
  let n100 := min (n / 36524) 3
  let n := n - n100 * 36524
  let n4 := n / 1461
  let n := n % 1461
  let n1 := min (n / 365) 3
  let n := n - n1 * 365
  let year := n400 * 400 + n100 * 100 + n4 * 4 + n1 + 1
  let (month, day) := monthOfDay year 1 11 n
  (year, month, day)

/-- The weekday of a day number, Monday being zero. -/
def weekday (n : Nat) : Nat := (n + 6) % 7

/-- The Monday of the first week of a year, which is the week with the year's first Thursday. As
a day number it can be below 1 in no year from 1 on. -/
def firstMonday (year : Nat) : Nat :=
  let first := dayNumber year 1 1
  let w := weekday first
  if w ≤ 3 then first - w else first + 7 - w

/-- Whether a year has a week 53. -/
def hasWeek53 (year : Nat) : Bool :=
  let w := weekday (dayNumber year 1 1)
  w == 3 || (w == 2 && isLeap year)

/-- The number of a weekday, counted from 1, in a week of a year. -/
def weekDay? (year week day : Nat) : Option Nat :=
  if (1 ≤ week ∧ week ≤ 52 ∨ week = 53 ∧ hasWeek53 year = true) ∧ 1 ≤ day ∧ day ≤ 7 then
    some (firstMonday year + (week - 1) * 7 + (day - 1))
  else none

end VaultConsole.Calendar
