import VaultConsole.Text.Ranges
import VaultConsole.Text.PrintableTable

/-!
# Quoted text

The form in which a text appears inside a message or inside a printed collection: between
single quotes, or double quotes if it holds single quotes and no double ones. The quote and the
backslash take a backslash, tab, line feed and carriage return have letters, and every other
code point without a visible form is written by its number.
-/

namespace VaultConsole

/-- Whether a code point has a visible form, or is the space. -/
def CodePoint.isPrintable (c : CodePoint) : Bool := !Text.inRanges Text.unprintableRanges c.val

namespace Text

def singleQuote : CodePoint := CodePoint.ofNat 0x27

def doubleQuote : CodePoint := CodePoint.ofNat 0x22

def backslash : CodePoint := CodePoint.ofNat 0x5C

/-- One code point between quotes of the given kind. -/
def quotedPoint (quote c : CodePoint) : Text :=
  if c = quote ∨ c = backslash then [backslash, c]
  else if c = '\t' then "\\t"
  else if c = '\n' then "\\n"
  else if c = '\r' then "\\r"
  else if c.isPrintable then [c]
  else if c.val ≤ 0xFF then "\\x" ++ paddedHex 2 c.val
  else if c.val ≤ 0xFFFF then "\\u" ++ paddedHex 4 c.val
  else "\\U" ++ paddedHex 8 c.val

/-- The quote that is put around a text. -/
def quoteFor (t : Text) : CodePoint :=
  if t.contains singleQuote && !t.contains doubleQuote then doubleQuote else singleQuote

def quoted (t : Text) : Text :=
  let quote := quoteFor t
  quote :: t.flatMap (quotedPoint quote) ++ [quote]

end Text

end VaultConsole
