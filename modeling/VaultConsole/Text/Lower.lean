import VaultConsole.Text.Ranges
import VaultConsole.Text.CaseTable

/-!
# Lower case

`Text.lower` is the full lower-casing of Unicode without a locale. A code point maps on its
own, with two exceptions: the dotted capital İ becomes two code points, and the capital sigma
becomes the final sigma at the end of a word. A sigma ends a word when a cased letter stands
before it and none after it, not counting the code points that are passed over.
-/

namespace VaultConsole

namespace Text

/-- The small letter of the run of capitals that a number lies in. -/
def smallIn : List CaseRun → Nat → Option Nat
  | [], _ => none
  | run :: rest, n =>
    if n < run.first then none
    else if n ≤ run.last && (n - run.first) % run.step == 0 then
      some ((n : Int) + run.shift).toNat
    else smallIn rest n

/-- The first code point that is not passed over is a cased one. -/
def meetsCased : Text → Bool
  | [] => false
  | c :: rest =>
    if inRanges caseIgnorableRanges c.val then meetsCased rest
    else inRanges casedRanges c.val

end Text

/-- A code point in lower case, where its neighbours do not matter. -/
def CodePoint.lower (c : CodePoint) : Text :=
  if c.val = 0x130 then [CodePoint.ofNat 0x69, CodePoint.ofNat 0x307]
  else
    match Text.smallIn Text.caseRuns c.val with
    | some n => [CodePoint.ofNat n]
    | none => [c]

namespace Text

/-- Lower-cases a text of which the part before it, last code point first, is given. -/
def lowerAfter (before : Text) : Text → Text
  | [] => []
  | c :: rest =>
    let small :=
      if c.val = 0x3A3 then
        if meetsCased before && !meetsCased rest then [CodePoint.ofNat 0x3C2]
        else [CodePoint.ofNat 0x3C3]
      else c.lower
    small ++ lowerAfter (c :: before) rest

/-- A text in lower case. -/
def lower (t : Text) : Text := lowerAfter [] t

end Text

end VaultConsole
