import VaultConsole.Number.Binary64

/-!
# Arithmetic on binary floating point

Every finite number is a whole number of units, where the unit is the least positive number. So
a sum, a difference or a multiple is exact on whole numbers, and it is rounded once.

* `Binary64.units`: a finite number in units; `Binary64.ofUnits`: the number nearest to some.
* `Binary64.add`, `Binary64.sub`, `Binary64.times`: the number nearest to a sum, a difference, a
  multiple.
* `Binary64.isAtMost`, `Binary64.isAtLeastWhole`: the order of the reals.
* `Binary64.nearestWhole`: the nearest whole number.
-/

namespace VaultConsole.Binary64

/-- Why no whole number is nearest to a number. -/
inductive NoWhole
  | notNumber
  | infinite
  deriving DecidableEq

/-- How many units one has. -/
def unitsOfOne : Nat := Nat.pow 2 1074

/-- A finite number in units. -/
def units : Binary64 → Except NoWhole Int
  | .nan => .error .notNumber
  | .infinite _ => .error .infinite
  | .finite negative biased fraction =>
    let size : Int := (significand biased fraction * Nat.pow 2 (biased.val - 1) : Nat)
    .ok (if negative then -size else size)

/-- The number nearest to some units; of the two zeros the one with a given sign. -/
def ofUnits (negativeZero : Bool) (n : Int) : Binary64 :=
  if n = 0 then zero negativeZero else ofRatio (n < 0) n.natAbs unitsOfOne

/-- Whether the sign of a number is a minus, which a zero may have too. -/
def hasMinus : Binary64 → Bool
  | .nan => false
  | .infinite negative => negative
  | .finite negative _ _ => negative

/-- The number with the other sign. -/
def opposite : Binary64 → Binary64
  | .nan => .nan
  | .infinite negative => .infinite !negative
  | .finite negative biased fraction => .finite (!negative) biased fraction

/-- The number nearest to a sum. A sum of zeros is the negative zero only if both are. -/
def add (x y : Binary64) : Binary64 :=
  match x, y with
  | .nan, _ | _, .nan => .nan
  | .infinite s, .infinite t => if s = t then .infinite s else .nan
  | .infinite s, .finite .. | .finite .., .infinite s => .infinite s
  | .finite .., .finite .. =>
    match x.units, y.units with
    | .ok m, .ok n => ofUnits (x.hasMinus && y.hasMinus) (m + n)
    | _, _ => .nan

/-- The number nearest to a difference. -/
def sub (x y : Binary64) : Binary64 := add x y.opposite

/-- The number nearest to a positive multiple. -/
def times (factor : Nat) (x : Binary64) : Binary64 :=
  match x.units with
  | .error _ => x
  | .ok n => ofUnits x.hasMinus (n * factor)

/-- Whether one number is at most another one, which takes two numbers. -/
def isAtMost (x y : Binary64) : Bool :=
  match x, y with
  | .nan, _ | _, .nan => false
  | .infinite true, _ | _, .infinite false => true
  | .infinite false, _ | _, .infinite true => false
  | .finite .., .finite .. =>
    match x.units, y.units with
    | .ok m, .ok n => m ≤ n
    | _, _ => false

/-- Whether a number is at least a whole number, however great that is. -/
def isAtLeastWhole (n : Int) : Binary64 → Bool
  | .nan => false
  | .infinite negative => !negative
  | x =>
    match x.units with
    | .ok m => n * unitsOfOne ≤ m
    | .error _ => false

/-- Units rounded to a whole number, the even one of two that are equally near. -/
def wholeOfUnits (n : Int) : Int :=
  let size : Int := roundToEven n.natAbs unitsOfOne
  if n < 0 then -size else size

/-- The nearest whole number, the even one of two that are equally near. -/
def nearestWhole (x : Binary64) : Except NoWhole Int := wholeOfUnits <$> x.units

end VaultConsole.Binary64
