import VaultConsole.Number.Binary64
import VaultConsole.Text.Blank
import VaultConsole.Text.Digit

/-!
# Reading numbers

A number in decimal, with or without a point and an exponent, or one of the words for an
infinity and for what is no number. Digits may be of any script, underscores may stand between
digits, and blanks at both ends do not count.

* `Binary64.parse?`: the nearest number.
-/

namespace VaultConsole.Binary64

/-- The blanks of ASCII. The information separators are none of them here. -/
def isAsciiBlank (c : CodePoint) : Bool := c.val = 0x20 || (0x9 ≤ c.val && c.val ≤ 0xD)

/-- A text in ASCII: beyond ASCII, digits of any script become ASCII digits, blanks become spaces,
and any other code point becomes a question mark. -/
def plain (t : Text) : Text :=
  t.map fun c =>
    if c.val < 0x80 then c
    else if c.isBlank then CodePoint.ofChar ' '
    else
      match c.decimalDigit? with
      | some d => CodePoint.ofNat (48 + d)
      | none => CodePoint.ofChar '?'

/-- A text without the blanks at its ends. -/
def trimmed (t : Text) : Text :=
  ((t.dropWhile isAsciiBlank).reverse.dropWhile isAsciiBlank).reverse

/-- A text without its underscores, each of which must stand between two digits. -/
def withoutUnderscores? (afterDigit : Bool) : Text → Option Text
  | [] => some []
  | c :: rest =>
    if c = '_' then
      if afterDigit && (rest.head?.any CodePoint.isAsciiDigit) then withoutUnderscores? false rest
      else none
    else (c :: ·) <$> withoutUnderscores? c.isAsciiDigit rest

/-- A sign in front: whether it is a minus, and the rest. -/
def signOf (t : Text) : Bool × Text :=
  match t with
  | [] => (false, [])
  | c :: rest => if c = '-' then (true, rest) else if c = '+' then (false, rest) else (false, t)

/-- ASCII letters in lower case. -/
def small (t : Text) : Text :=
  t.map fun c => if 65 ≤ c.val && c.val ≤ 90 then CodePoint.ofNat (c.val + 32) else c

/-- The number that digits stand for. -/
def digitsValue (ds : Text) : Nat := ds.foldl (fun n d => n * 10 + d.digitValue) 0

/-- The power of ten of an exponent; without one it is zero. -/
def exponentOf? (t : Text) : Option Int :=
  match t with
  | [] => some 0
  | c :: rest =>
    if c = 'e' ∨ c = 'E' then
      let (negative, digits) := signOf rest
      if digits.isEmpty || !digits.all CodePoint.isAsciiDigit then none
      else some (if negative then -(digitsValue digits : Int) else digitsValue digits)
    else none

/-- A decimal without a sign. -/
def decimal? (negative : Bool) (t : Text) : Option Binary64 := do
  let (whole, rest) := t.span CodePoint.isAsciiDigit
  let (fraction, rest) :=
    match rest with
    | [] => (([] : Text), rest)
    | c :: tail => if c = '.' then tail.span CodePoint.isAsciiDigit else ([], rest)
  if whole.isEmpty && fraction.isEmpty then none
  else
    let exponent ← exponentOf? rest
    some (ofDecimal negative (digitsValue (whole ++ fraction)) (exponent - fraction.length))

/-- The number of a text. -/
def parse? (t : Text) : Option Binary64 := do
  let t ← withoutUnderscores? false (trimmed (plain t))
  let (negative, body) := signOf t
  let word := small body
  if word = "inf" ∨ word = "infinity" then some (.infinite negative)
  else if word = "nan" then some .nan
  else decimal? negative body

end VaultConsole.Binary64
