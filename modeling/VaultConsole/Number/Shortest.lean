import VaultConsole.Number.Binary64
import VaultConsole.Text.Basic

/-!
# The shortest decimal that reads back

Of all decimals that round to a given number, take those with the fewest digits, and of these
the one nearest to the number. All arithmetic is on whole numbers.

* `shortest`: the digits and the exponent of that decimal.
* `Binary64.text`: how a number is written. It is positional from `0.0001` up to below `10^16`
  and has an exponent of at least two digits otherwise; a whole number keeps `.0`.
-/

namespace VaultConsole

namespace Binary64

/-- A positive number as a ratio, together with the ends of the interval of reals that round
to it, over one denominator. -/
structure Rounding where
  low : Nat
  value : Nat
  high : Nat
  den : Nat
  /-- Whether the ends themselves round to the number. -/
  closed : Bool

/-- The interval of a finite number: half a step on each side, where the step below a power of
two is half as long. -/
def rounding (biased : Fin 2047) (fraction : Fin fractions) : Rounding :=
  let m := significand biased fraction
  let below := if fraction.val = 0 ∧ 1 < biased.val then 1 else 2
  -- quarters of a step, so that all three are whole numbers
  let q := scale biased - 2
  let up := Nat.pow 2 q.toNat
  { low := (4 * m - below) * up
    value := 4 * m * up
    high := (4 * m + 2) * up
    den := Nat.pow 2 (-q).toNat
    closed := m % 2 = 0 }

/-- Whether `digits` times a power of ten lies in the interval. -/
def Rounding.contains (r : Rounding) (digits : Nat) (exponent : Int) : Bool :=
  let x := digits * Nat.pow 10 exponent.toNat * r.den
  let unit := Nat.pow 10 (-exponent).toNat
  if r.closed then r.low * unit ≤ x && x ≤ r.high * unit
  else r.low * unit < x && x < r.high * unit

/-- The least exponent `k` with the value below `10 ^ k`. -/
def Rounding.magnitude (r : Rounding) : Int :=
  let digitCount (n : Nat) : Int := (Nat.toDigits 10 n).length
  -- the digits of the two tell the exponent up to one
  let k := digitCount r.value - digitCount r.den
  let below (k : Int) : Bool := r.value * Nat.pow 10 (-k).toNat < r.den * Nat.pow 10 k.toNat
  if below k then k else k + 1

/-- The two neighbours of the value on the grid with that many significant digits; the first
that lies in the interval, or the nearer one if both do. -/
def Rounding.onGrid? (r : Rounding) (exponent : Int) : Option Nat :=
  let num := r.value * Nat.pow 10 (-exponent).toNat
  let den := r.den * Nat.pow 10 exponent.toNat
  let lower := num / den
  match r.contains lower exponent, r.contains (lower + 1) exponent with
  | true, true => some (roundToEven num den)
  | true, false => some lower
  | false, true => some (lower + 1)
  | false, false => none

/-- Tries grids of rising fineness. -/
def Rounding.search (r : Rounding) (magnitude : Int) : (count : Nat) → (tries : Nat) → Nat × Int
  | count, 0 => (r.value * Nat.pow 10 (count - magnitude).toNat / r.den, magnitude - count)
  | count, tries + 1 =>
    match r.onGrid? (magnitude - count) with
    | some digits => (digits, magnitude - count)
    | none => r.search magnitude (count + 1) tries

/-- The shortest decimal that rounds to a finite number other than zero: its digits as a whole
number, and the power of ten they are taken times. Seventeen digits always suffice. -/
def shortest (biased : Fin 2047) (fraction : Fin fractions) : Nat × Int :=
  let r := rounding biased fraction
  r.search r.magnitude 1 17

/-- Where the layout of a number changes from positional to an exponent, and what the exponent
looks like. -/
structure Layout where
  /-- The least exponent of the first digit that is written positionally. -/
  leastPlain : Int
  /-- The first exponent beyond those that are written positionally. -/
  endPlain : Int
  /-- The fewest digits of an exponent. -/
  exponentDigits : Nat

def layout : Layout := { leastPlain := -4, endPlain := 16, exponentDigits := 2 }

/-- Digits without the zeros at their end, first digit first. -/
def significantDigits (digits : Nat) : Text :=
  (((Text.ofNat digits).reverse.dropWhile (· = CodePoint.ofChar '0')).reverse)

def Layout.write (l : Layout) (digits : Nat) (exponent : Int) : Text :=
  let zeros (n : Int) : Text := List.replicate n.toNat (CodePoint.ofChar '0')
  let point : Int := exponent + (Text.ofNat digits).length
  let ds := significantDigits digits
  if l.leastPlain < point ∧ point ≤ l.endPlain then
    if point ≤ 0 then "0." ++ zeros (-point) ++ ds
    else if ds.length ≤ point.toNat then ds ++ zeros (point - ds.length) ++ ".0"
    else ds.take point.toNat ++ "." ++ ds.drop point.toNat
  else
    let sign : Text := if point - 1 < 0 then "-" else "+"
    let mantissa := ds.take 1 ++ (if ds.length ≤ 1 then ([] : Text) else ("." : Text) ++ ds.drop 1)
    mantissa ++ "e" ++ sign ++ Text.padded l.exponentDigits (point - 1).natAbs

/-- How a number is written in messages. -/
def text : Binary64 → Text
  | .nan => "nan"
  | .infinite negative => if negative then "-inf" else "inf"
  | .finite negative biased fraction =>
    let sign : Text := if negative then "-" else ""
    if significand biased fraction = 0 then sign ++ "0.0"
    else
      let (digits, exponent) := shortest biased fraction
      sign ++ layout.write digits exponent

end Binary64

end VaultConsole
