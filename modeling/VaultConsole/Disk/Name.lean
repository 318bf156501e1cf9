import VaultConsole.Text.Utf8

/-!
# Names on the disk

The system knows a name by its bytes, a program by a text. A byte that is no part of UTF-8 stands
in a text as a surrogate of its own, so every name of the system has a text. Two texts of the
same bytes are one name.

* `Name`: a name of the system.
* `Name.ofText`, `Name.text`: the name of a text, and the usual text of a name.
* `Name.problem?`: what keeps a text from being a name.
-/

namespace VaultConsole.Disk

/-- A name of the system: its bytes. -/
abbrev Name := List UInt8

namespace Name

/-- A surrogate that stands for a byte. -/
def isByte (c : CodePoint) : Bool := 0xDC80 ≤ c.val && c.val ≤ 0xDCFF

/-- The bytes of one code point. -/
def bytesOf (c : CodePoint) : List UInt8 :=
  if isByte c then [(c.val - 0xDC00).toUInt8] else Text.Utf8.encodePoint c

/-- The name of a text. -/
def ofText (t : Text) : Name := t.flatMap bytesOf

/-- The surrogate that stands for a byte. -/
def ofByte (b : UInt8) : CodePoint := CodePoint.ofNat (0xDC00 + b.toNat)

/-- The code point that a name begins with, and how many bytes it has. -/
def leading? (name : Name) : Option (CodePoint × Nat) :=
  [1, 2, 3, 4].findSome? fun count =>
    match Text.Utf8.decode (name.take count) with
    | .ok [c] => some (c, count)
    | _ => none

/-- The text of a name after so many bytes that were read already. -/
def textAfter : (read : Nat) → Name → Text
  | _, [] => []
  | read + 1, _ :: rest => textAfter read rest
  | 0, b :: rest =>
    match leading? (b :: rest) with
    | some (c, count) => c :: textAfter (count - 1) rest
    | none => ofByte b :: textAfter 0 rest

def text (name : Name) : Text := textAfter 0 name

/-- The first surrogate from a place on that stands for no byte. It is reported with all the
surrogates that follow it, whatever they stand for. -/
def problemFrom? (place : Nat) : Text → Option Text.Utf8.EncodeProblem
  | [] => none
  | c :: rest =>
    if c.isSurrogate && !isByte c then
      some ⟨place, 1 + (rest.takeWhile CodePoint.isSurrogate).length, c⟩
    else problemFrom? (place + 1) rest

/-- What keeps a text from being a name. -/
def problem? (t : Text) : Option Text.Utf8.EncodeProblem := problemFrom? 0 t

end Name

end VaultConsole.Disk
