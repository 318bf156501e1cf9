import VaultConsole.Text.Ranges
import VaultConsole.Text.DigitTable

/-!
# Decimal digits of any script

`decimalDigit?` gives the value of a digit, whatever the script it is written in.
-/

namespace VaultConsole

/-- The value of a decimal digit of any script. -/
def CodePoint.decimalDigit? (c : CodePoint) : Option Nat :=
  (Text.rangeStart? Text.digitRanges c.val).map fun first => (c.val - first) % 10

end VaultConsole
