import VaultConsole.Number.Arithmetic
import VaultConsole.Time.Timestamp

/-!
# The clock

A clock starts at an instant and moves only when it is told to. How long it has been running is
a number of seconds in binary floating point, to which each length of time is added and rounded;
the time that it shows is the start and that number, to the microsecond. A clock belongs to a
machine, and the machine is in a zone.

* `Clock.now`: the universal time.
* `Clock.wallNow`, `Clock.localNow`: the time in the zone of the machine.
* `Clock.Problem`: why a clock shows none.
* `Clock.microsOf`: a number of seconds in microseconds.
-/

namespace VaultConsole

/-- A clock. -/
structure Clock where
  /-- The instant at which it was started, in microseconds since the beginning of 1970. -/
  start : Int
  /-- How many seconds it has been running. -/
  elapsed : Binary64
  /-- The zone of the machine, by which events and run logs are dated. -/
  zone : Zone
  /-- The zone in which dates are shown. The machine is asked for it in another way, and where it is
  set up as usual this is its zone too. -/
  shown : Zone

namespace Clock

/-- Why a clock shows no time. -/
inductive Problem
  /-- It has been running for no finite time. -/
  | noWhole (reason : Binary64.NoWhole)
  /-- It has been running for too many days to count. -/
  | tooManyDays (days : Int)
  | outsideCalendar
  /-- The calendar does not have the year, in the zone of the machine. -/
  | noYear (year : Nat)
  deriving DecidableEq

/-- A clock at its start, on a machine in a zone. -/
def started (start : Int) (zone : Zone) : Clock := { start, elapsed := .zero false, zone, shown := zone }

/-- A clock some seconds later. -/
def advance (seconds : Binary64) (c : Clock) : Clock :=
  { c with elapsed := c.elapsed.add seconds }

/-- A number of seconds in microseconds. Whole seconds count exactly; what is left over becomes
the nearest number of microseconds first and the nearest whole number then. -/
def microsOf (seconds : Binary64) : Except Binary64.NoWhole Int := do
  let n ← seconds.units
  let rest := Binary64.ofUnits false (n.tmod Binary64.unitsOfOne)
  return n.tdiv Binary64.unitsOfOne * 1000000 + (← (rest.times 1000000).nearestWhole)

/-- The most days that are counted, before the start and after it. -/
def dayLimit : Nat := 999999999

/-- The instant that a clock shows, in microseconds since the beginning of 1970. -/
def instant (c : Clock) : Except Problem Int := do
  let micros ← (microsOf c.elapsed).mapError .noWhole
  let days := micros.fdiv dayLength
  if days.natAbs > dayLimit then .error (.tooManyDays days)
  else return c.start + micros

def now (c : Clock) : Except Problem Timestamp := do
  match Timestamp.ofInstant? 0 (← c.instant) with
  | some t => return t
  | none => .error .outsideCalendar

/-- An instant in the zone of the machine. -/
def localAt (c : Clock) (instant : Int) : Except Problem Timestamp :=
  let offset := c.zone.offsetAt instant
  match Timestamp.ofInstant? offset instant with
  | some t => .ok t
  | none => .error (.noYear (if instant + offset < 0 then 0 else 10000))

/-- The time in the zone of the machine. -/
def wallNow (c : Clock) : Except Problem Timestamp := do c.localAt (← c.now).instant

/-- The time in the zone of the machine, for which its distance from the universal time is looked
up. The zone is asked about the day before as well, since clocks may have been turned back in
between. -/
def localNow (c : Clock) : Except Problem Timestamp := do
  let t ← c.wallNow
  let _ ← c.localAt (t.instant - dayLength)
  return t

end Clock

end VaultConsole
