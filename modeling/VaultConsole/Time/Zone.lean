/-!
# Zones

The clocks of a zone are ahead of the universal one by some seconds, or behind it. How many these are
may change from one instant to another, as it does where clocks are put forward for the summer.

* `Zone`: a zone.
* `Zone.ofAhead`: a zone by its distances.
* `Zone.offsetAt`: the distance of its clocks at an instant.
-/

namespace VaultConsole

/-- A zone. -/
structure Zone where
  /-- How many seconds its clocks are ahead of the universal one, so many seconds after the beginning
  of 1970. -/
  ahead : Int → Int
  lt_day : ∀ second, (ahead second).natAbs < 86400

namespace Zone

/-- A zone by the distances of its clocks. Distances of a day and more count as none. -/
def ofAhead (ahead : Int → Int) : Zone where
  ahead second := if (ahead second).natAbs < 86400 then ahead second else 0
  lt_day second := by
    split
    · assumption
    · decide

/-- The zone of the universal clock. -/
def universal : Zone := ofAhead fun _ => 0

/-- How many microseconds the clocks of a zone are ahead at an instant, which is given in microseconds
since the beginning of 1970. -/
def offsetAt (zone : Zone) (instant : Int) : Int := zone.ahead (instant.fdiv 1000000) * 1000000

end Zone

end VaultConsole
