import VaultConsole.Text.Ranges
import VaultConsole.Text.WordTable

/-!
# Word characters

A name on a command line is a run of letters, digits, other number signs and underscores of
any script. `isWord` is that class.
-/

namespace VaultConsole

/-- A letter, a digit, another number sign or the underscore. -/
def CodePoint.isWord (c : CodePoint) : Bool := Text.inRanges Text.wordRanges c.val

end VaultConsole
