/-!
# Binary floating point, 64 bits

The numbers of the IEEE format with 53 significant bits, each in exactly one way: not a
number, an infinity, or a sign with a biased exponent and a fraction.

* `Binary64`: the type; `significand`, `scale`: a finite number is their product with a power
  of two.
* `ofRatio`: the nearest number to a ratio, the even one of two that are equally near.
-/

namespace VaultConsole

/-- The number of fractions, the fifty-second power of two. It is also the hidden bit in front of
a fraction. -/
abbrev Binary64.fractions : Nat := 4503599627370496

/-- A binary floating-point number of 64 bits. -/
inductive Binary64
  | nan
  | infinite (negative : Bool)
  | finite (negative : Bool) (biased : Fin 2047) (fraction : Fin Binary64.fractions)
  deriving DecidableEq

namespace Binary64

def zero (negative : Bool) : Binary64 := .finite negative ⟨0, by decide⟩ ⟨0, by decide⟩

/-- The whole number in front of the power of two: the hidden bit is there unless the biased
exponent is zero. -/
def significand (biased : Fin 2047) (fraction : Fin fractions) : Nat :=
  if biased.val = 0 then fraction.val else fractions + fraction.val

/-- The exponent of that power of two. -/
def scale (biased : Fin 2047) : Int := (max biased.val 1 : Nat) - 1075

/-- Whether a number is below zero; the negative zero is not. -/
def isNegative : Binary64 → Bool
  | .nan => false
  | .infinite negative => negative
  | .finite negative biased fraction => negative && significand biased fraction != 0

/-- Whether a number is one of the two zeros. -/
def isZero : Binary64 → Bool
  | .finite _ biased fraction => significand biased fraction == 0
  | _ => false

/-- A ratio rounded to a whole number, the even one of two that are equally near. -/
def roundToEven (num den : Nat) : Nat :=
  let q := num / den
  let twice := 2 * (num % den)
  if twice < den then q else if den < twice then q + 1 else q + q % 2

/-- The exponent of the greatest power of two that is not above a positive ratio. -/
def floorLog2 (num den : Nat) : Int :=
  let k : Int := (num.log2 : Int) - den.log2
  let below : Bool :=
    if 0 ≤ k then num < den * Nat.pow 2 k.toNat else num * Nat.pow 2 (-k).toNat < den
  if below then k - 1 else k

/-- A whole number of at most 53 bits times a power of two that the format has. -/
def ofScaled (negative : Bool) (whole : Nat) (exponent : Int) : Binary64 :=
  if h : whole < fractions then .finite negative ⟨0, by decide⟩ ⟨whole, h⟩
  else
    let (whole, exponent) :=
      if whole = 2 * fractions then (fractions, exponent + 1) else (whole, exponent)
    if h : (exponent + 1075).toNat < 2047 ∧ whole - fractions < fractions then
      .finite negative ⟨(exponent + 1075).toNat, h.1⟩ ⟨whole - fractions, h.2⟩
    else .infinite negative

/-- The nearest number to a ratio with a positive denominator. -/
def ofRatio (negative : Bool) (num den : Nat) : Binary64 :=
  if num = 0 then zero negative
  else
    let exponent := max (-1074) (floorLog2 num den - 52)
    let whole :=
      if 0 ≤ exponent then roundToEven num (den * Nat.pow 2 exponent.toNat)
      else roundToEven (num * Nat.pow 2 (-exponent).toNat) den
    ofScaled negative whole exponent

/-- The nearest number to a whole number, if it does not round beyond the greatest one. -/
def ofInt? (i : Int) : Option Binary64 :=
  match ofRatio (i < 0) i.natAbs 1 with
  | .infinite _ => none
  | x => some x

/-- The nearest number to `digits` times a power of ten. Far outside the range of the format
the answer is known without computing the power. -/
def ofDecimal (negative : Bool) (digits : Nat) (exponent : Int) : Binary64 :=
  if digits = 0 then zero negative
  else
    let magnitude := exponent + (Nat.toDigits 10 digits).length
    if magnitude > 310 then .infinite negative
    else if magnitude < -330 then zero negative
    else if 0 ≤ exponent then ofRatio negative (digits * Nat.pow 10 exponent.toNat) 1
    else ofRatio negative digits (Nat.pow 10 (-exponent).toNat)

end Binary64

end VaultConsole
