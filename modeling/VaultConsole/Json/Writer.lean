import VaultConsole.Json.Basic
import VaultConsole.Number.Shortest
import VaultConsole.Text.Quoted

/-!
# Writing documents

One writer with a layout: on one line without spaces for a log event, indented by two spaces
for a file. A text keeps every code point but the quote, the backslash and the controls, unless
the layout asks for ASCII alone.

* `Json.compact`, `Json.indented`, `Json.ascii`: the three layouts in use.
* `Json.tokens`: a document as the list of pieces it is written in. Each text is in one piece, so
  a document whose text has no encoding is written up to the piece that holds it.
-/

namespace VaultConsole.Json

/-- One code point between the quotes of a document. -/
def escapedPoint (asciiOnly : Bool) (c : CodePoint) : Text :=
  if c = Text.doubleQuote then "\\\""
  else if c = Text.backslash then "\\\\"
  else if c = '\n' then "\\n"
  else if c = '\r' then "\\r"
  else if c = '\t' then "\\t"
  else if c.val = 0xC then "\\f"
  else if c.val = 0x8 then "\\b"
  else if c.val < 0x20 then "\\u" ++ Text.paddedHex 4 c.val
  else if asciiOnly && 0x7E < c.val then
    if c.val < 0x10000 then "\\u" ++ Text.paddedHex 4 c.val
    else
      let rest := c.val - 0x10000
      "\\u" ++ Text.paddedHex 4 (0xD800 + rest / 0x400) ++ "\\u"
        ++ Text.paddedHex 4 (0xDC00 + rest % 0x400)
  else [c]

/-- A text between the quotes of a document. -/
def escaped (asciiOnly : Bool) (t : Text) : Text :=
  Text.doubleQuote :: t.flatMap (escapedPoint asciiOnly) ++ [Text.doubleQuote]

/-- A number with a fraction; the three that are no numbers have names. -/
def realText : Binary64 → Text
  | .nan => "NaN"
  | .infinite negative => if negative then "-Infinity" else "Infinity"
  | x => x.text

/-- How a document is laid out. -/
structure Layout where
  /-- Escape all but ASCII. -/
  asciiOnly : Bool
  /-- Put every item on a line of its own, indented by this much more than its collection. -/
  indent : Option Nat
  /-- What follows a key. -/
  afterKey : Text

namespace Layout

/-- The line break in front of an item at a depth. -/
def lineBreak (l : Layout) (depth : Nat) : Text :=
  match l.indent with
  | none => []
  | some width => Text.newline :: List.replicate (width * depth) (CodePoint.ofChar ' ')

end Layout

/-- What stands in front of an item of an array, and the item. They are one piece unless the item
is a collection. -/
def follow (lead : Text) (item : Json) (pieces : List Text) : List Text :=
  match item with
  | array _ | object _ => lead :: pieces
  | _ => [lead ++ pieces.flatten]

theorem flatten_follow (lead : Text) (item : Json) (pieces : List Text) :
    (follow lead item pieces).flatten = lead ++ pieces.flatten := by
  cases item <;> simp [follow]

mutual

/-- The pieces that a document is written in, at a depth. -/
def tokensAt (l : Layout) (depth : Nat) : Json → List Text
  | null => ["null"]
  | bool b => [if b then "true" else "false"]
  | int i => [Text.ofInt i]
  | real x => [realText x]
  | text t => [escaped l.asciiOnly t]
  | array [] => ["[]"]
  | array (item :: rest) =>
    follow ("[" ++ l.lineBreak (depth + 1)) item (tokensAt l (depth + 1) item)
      ++ itemTokens l (depth + 1) rest ++ [l.lineBreak depth, ("]" : Text)]
  | object [] => ["\x7b\x7d"]
  | object ((key, value) :: rest) =>
    ("\x7b" : Text) :: l.lineBreak (depth + 1) :: escaped l.asciiOnly key :: l.afterKey
      :: tokensAt l (depth + 1) value
      ++ memberTokens l (depth + 1) rest ++ [l.lineBreak depth, ("\x7d" : Text)]

/-- The pieces of items, each after a comma. -/
def itemTokens (l : Layout) (depth : Nat) : List Json → List Text
  | [] => []
  | item :: rest =>
    follow ("," ++ l.lineBreak depth) item (tokensAt l depth item) ++ itemTokens l depth rest

/-- The pieces of members, each after a comma. -/
def memberTokens (l : Layout) (depth : Nat) : List (Text × Json) → List Text
  | [] => []
  | (key, value) :: rest =>
    [("," : Text), l.lineBreak depth, escaped l.asciiOnly key, l.afterKey]
      ++ tokensAt l depth value ++ memberTokens l depth rest

end

def tokens (l : Layout) (value : Json) : List Text := tokensAt l 0 value

/-- A document as a text. -/
def write (l : Layout) (value : Json) : Text := (tokens l value).flatten

/-- The layout of a log event. -/
def eventLayout : Layout := { asciiOnly := false, indent := none, afterKey := ":" }

/-- The layout of a file. -/
def fileLayout : Layout := { asciiOnly := false, indent := some 2, afterKey := ": " }

/-- The layout of an exchange over a channel that carries ASCII. -/
def wireLayout : Layout := { asciiOnly := true, indent := none, afterKey := ":" }

/-- A document on one line. -/
def compact (value : Json) : Text := write eventLayout value

/-- A document over several lines. -/
def indented (value : Json) : Text := write fileLayout value

/-- A document on one line, in ASCII. -/
def ascii (value : Json) : Text := write wireLayout value

end VaultConsole.Json
