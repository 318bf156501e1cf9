import VaultConsole.Text.Ranges

/-!
# Blanks

The white space of Unicode, which includes the four information separators U+001C to U+001F.

* `isBlank`: the class.
* `strip`: a text without the blanks at its ends.
* `firstWord`: a text cut at its first blank.
-/

namespace VaultConsole

namespace Text

/-- The blanks, as ascending ranges. -/
def blankRanges : List (Nat × Nat) := [
  (0x9, 0xd), (0x1c, 0x20), (0x85, 0x85), (0xa0, 0xa0), (0x1680, 0x1680), (0x2000, 0x200a),
  (0x2028, 0x2029), (0x202f, 0x202f), (0x205f, 0x205f), (0x3000, 0x3000)]

end Text

/-- White space of any script. -/
def CodePoint.isBlank (c : CodePoint) : Bool := Text.inRanges Text.blankRanges c.val

namespace Text

/-- A text from its first code point that is not blank. -/
def stripLeft (t : Text) : Text := t.dropWhile CodePoint.isBlank

/-- A text up to its last code point that is not blank. -/
def stripRight (t : Text) : Text := (t.reverse.dropWhile CodePoint.isBlank).reverse

/-- A text without the blanks at both ends. -/
def strip (t : Text) : Text := stripRight (stripLeft t)

/-- Whether a text has blanks only, or nothing at all. -/
def isBlank (t : Text) : Bool := t.all CodePoint.isBlank

/-- The longest part in front that has no blank, and what follows it. -/
def firstWord (t : Text) : Text × Text := t.span fun c => !c.isBlank

theorem dropWhile_isBlank_eq_nil_iff (t : Text) :
    t.dropWhile CodePoint.isBlank = [] ↔ isBlank t = true := by
  induction t with
  | nil => simp [isBlank]
  | cons c rest ih =>
    cases hc : c.isBlank
    · simp [isBlank, List.dropWhile, hc]
    · rw [List.dropWhile_cons, if_pos hc, ih]
      simp [isBlank, hc]

theorem isBlank_reverse (t : Text) : isBlank t.reverse = isBlank t := by
  simp [isBlank]

/-- Nothing is left exactly of the texts that are blank throughout. -/
theorem strip_eq_nil_iff (t : Text) : strip t = [] ↔ isBlank t = true := by
  simp only [strip, stripRight, stripLeft, List.reverse_eq_nil_iff, dropWhile_isBlank_eq_nil_iff,
    isBlank_reverse]
  induction t with
  | nil => simp [isBlank]
  | cons c rest ih =>
    cases hc : c.isBlank
    · simp [isBlank, List.dropWhile, hc]
    · rw [List.dropWhile_cons, if_pos hc, ih]
      simp [isBlank, hc]

end Text

end VaultConsole
