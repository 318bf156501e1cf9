import VaultConsole.Text.Basic

/-!
# UTF-8

A text that holds no surrogate has one encoding. Decoding reads the shortest forms only, and
says where the bytes stop being UTF-8 and why.

* `encode`: the bytes of a text, or the first run of surrogates in it.
* `decode`: the text of bytes, or the first sequence that is none.
* `unifyNewlines`: the text of a file, whose lines may end in any of the three usual ways.
-/

namespace VaultConsole.Text.Utf8

/-- The bytes of one code point, by its number. -/
def encodePoint (c : CodePoint) : List UInt8 :=
  let n := c.val
  if n < 0x80 then [n.toUInt8]
  else if n < 0x800 then [(0xC0 + n / 0x40).toUInt8, (0x80 + n % 0x40).toUInt8]
  else if n < 0x10000 then
    [(0xE0 + n / 0x1000).toUInt8, (0x80 + n / 0x40 % 0x40).toUInt8, (0x80 + n % 0x40).toUInt8]
  else
    [(0xF0 + n / 0x40000).toUInt8, (0x80 + n / 0x1000 % 0x40).toUInt8,
      (0x80 + n / 0x40 % 0x40).toUInt8, (0x80 + n % 0x40).toUInt8]

/-- A run of surrogates that keeps a text from being encoded. -/
structure EncodeProblem where
  /-- The place of the first of them. -/
  start : Nat
  /-- How many follow each other. -/
  count : Nat
  /-- The first of them. -/
  first : CodePoint
  deriving DecidableEq

/-- The first run of surrogates in a text that begins at a place. -/
def firstProblem? (start : Nat) : Text → Option EncodeProblem
  | [] => none
  | c :: rest =>
    if c.isSurrogate then some ⟨start, 1 + (rest.takeWhile CodePoint.isSurrogate).length, c⟩
    else firstProblem? (start + 1) rest

/-- The bytes of a text. -/
def encode (t : Text) : Except EncodeProblem (List UInt8) :=
  match firstProblem? 0 t with
  | some problem => .error problem
  | none => .ok (t.flatMap encodePoint)

/-- Why bytes are not UTF-8. -/
inductive Reason
  | invalidStart
  | invalidContinuation
  | unexpectedEnd
  deriving DecidableEq

/-- A sequence of bytes that is no code point. -/
structure DecodeProblem where
  /-- The place of its first byte. -/
  start : Nat
  /-- How many bytes belong to it. -/
  count : Nat
  /-- Its first byte. -/
  first : UInt8
  reason : Reason
  deriving DecidableEq

/-- A sequence that has begun: where, with which byte, how many bytes are still owed, the
value so far, and the bounds of the next byte. -/
structure Pending where
  start : Nat
  first : UInt8
  owed : Nat
  value : Nat
  least : Nat
  greatest : Nat

/-- What a first byte beyond ASCII begins, if it can begin anything. -/
def begin? (start : Nat) (b : UInt8) : Option Pending :=
  let n := b.toNat
  if 0xC2 ≤ n ∧ n ≤ 0xDF then some ⟨start, b, 1, n - 0xC0, 0x80, 0xBF⟩
  -- the bounds of the second byte leave out longer forms than needed, halves of pairs and numbers
  -- beyond the last code point
  else if n = 0xE0 then some ⟨start, b, 2, 0, 0xA0, 0xBF⟩
  else if n = 0xED then some ⟨start, b, 2, 0xD, 0x80, 0x9F⟩
  else if 0xE1 ≤ n ∧ n ≤ 0xEF then some ⟨start, b, 2, n - 0xE0, 0x80, 0xBF⟩
  else if n = 0xF0 then some ⟨start, b, 3, 0, 0x90, 0xBF⟩
  else if 0xF1 ≤ n ∧ n ≤ 0xF3 then some ⟨start, b, 3, n - 0xF0, 0x80, 0xBF⟩
  else if n = 0xF4 then some ⟨start, b, 3, 4, 0x80, 0x8F⟩
  else none

/-- Decodes the bytes from a place on, inside a sequence or between two. -/
def decodeFrom (place : Nat) : Option Pending → List UInt8 → Except DecodeProblem Text
  | none, [] => .ok []
  | some p, [] => .error ⟨p.start, place - p.start, p.first, .unexpectedEnd⟩
  | none, b :: rest =>
    if b.toNat < 0x80 then (CodePoint.ofNat b.toNat :: ·) <$> decodeFrom (place + 1) none rest
    else
      match begin? place b with
      | none => .error ⟨place, 1, b, .invalidStart⟩
      | some p => decodeFrom (place + 1) (some p) rest
  | some p, b :: rest =>
    -- the bounds differ for the second byte only
    if p.least ≤ b.toNat ∧ b.toNat ≤ p.greatest then
      let value := p.value * 0x40 + (b.toNat - 0x80)
      if p.owed ≤ 1 then (CodePoint.ofNat value :: ·) <$> decodeFrom (place + 1) none rest
      else decodeFrom (place + 1) (some ⟨p.start, p.first, p.owed - 1, value, 0x80, 0xBF⟩) rest
    else .error ⟨p.start, place - p.start, p.first, .invalidContinuation⟩

/-- The text of bytes. -/
def decode (bytes : List UInt8) : Except DecodeProblem Text := decodeFrom 0 none bytes

end Utf8

/-- Each of the three usual line ends becomes a line feed. -/
def unifyNewlines : Text → Text
  | [] => []
  | c :: rest =>
    if c = '\r' then
      match rest with
      | [] => [newline]
      | d :: tail => if d = newline then newline :: unifyNewlines tail
        else newline :: unifyNewlines (d :: tail)
    else c :: unifyNewlines rest

end VaultConsole.Text
