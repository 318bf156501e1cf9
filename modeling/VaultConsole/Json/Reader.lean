import VaultConsole.Json.Basic

/-!
# Reading documents

The reader follows the grammar of JSON with three more words, `NaN`, `Infinity` and
`-Infinity`. Where a text is no document it names what is missing and the place, and it refuses
whole numbers of more than 4300 digits, and arrays and objects too deep inside each other. Of
members with one key the last counts.

Each function gets what is left of the text and returns what it leaves, so a place is known by
how much of the text follows it.

* `Json.parse`: a whole text as one document.
* `Json.Problem.message`: why not, with line, column and place.
-/

namespace VaultConsole.Json

/-- What keeps a text from being a document. -/
inductive Flaw
  | expectingValue
  | expectingName
  | expectingColon
  | expectingComma
  | unterminated
  | controlCharacter
  | invalidEscape
  | invalidUnicodeEscape
  | extraData
  | byteOrderMark
  deriving DecidableEq

def Flaw.words : Flaw → Text
  | expectingValue => "Expecting value"
  | expectingName => "Expecting property name enclosed in double quotes"
  | expectingColon => "Expecting ':' delimiter"
  | expectingComma => "Expecting ',' delimiter"
  | unterminated => "Unterminated string starting at"
  | controlCharacter => "Invalid control character at"
  | invalidEscape => "Invalid \\escape"
  | invalidUnicodeEscape => "Invalid \\uXXXX escape"
  | extraData => "Extra data"
  | byteOrderMark => "Unexpected UTF-8 BOM (decode using utf-8-sig)"

/-- Where a text stops being a document, by line, column and place. -/
structure Spot where
  flaw : Flaw
  line : Nat
  column : Nat
  place : Nat
  deriving DecidableEq

/-- Why a text could not be read: a flaw at a place, a whole number with too many digits, or an
array or object too deep inside others. -/
inductive Problem
  | flawed (spot : Spot)
  | tooManyDigits (count : Nat)
  | tooDeep (isObject : Bool)
  deriving DecidableEq

/-- The most digits that a whole number may have. -/
def digitLimit : Nat := 4300

/-- The most arrays and objects inside each other. -/
def depthLimit : Nat := 985

def Problem.message : Problem → Text
  | flawed s =>
    s.flaw.words ++ ": line " ++ Text.ofNat s.line ++ " column " ++ Text.ofNat s.column
      ++ " (char " ++ Text.ofNat s.place ++ ")"
  | tooManyDigits count =>
    "Exceeds the limit (" ++ Text.ofNat digitLimit
      ++ " digits) for integer string conversion: value has " ++ Text.ofNat count
      ++ " digits; use sys.set_int_max_str_digits() to increase the limit"
  | tooDeep isObject =>
    "maximum recursion depth exceeded while decoding a JSON "
      ++ (if isObject then "object" else "array") ++ " from a unicode string"

/-- Why reading stopped: a flaw, with the length of what follows its place, a long number, or an
array or object too deep inside others. -/
inductive Stop
  | flawed (flaw : Flaw) (remaining : Nat)
  | tooManyDigits (count : Nat)
  | tooDeep (isObject : Bool)

/-- The four blanks of the grammar. -/
def isSpace (c : CodePoint) : Bool :=
  c.val == 0x20 || c.val == 0x9 || c.val == 0xA || c.val == 0xD

/-- A text from its first code point that is no blank of the grammar. -/
def skipSpace (t : Text) : Text := t.dropWhile isSpace

/-- The value of a hexadecimal digit. -/
def hexDigit? (c : CodePoint) : Option Nat :=
  let n := c.val
  if 48 ≤ n ∧ n ≤ 57 then some (n - 48)
  else if 65 ≤ n ∧ n ≤ 70 then some (n - 55)
  else if 97 ≤ n ∧ n ≤ 102 then some (n - 87)
  else none

/-- The number of four hexadecimal digits in front, and the rest. Something must follow them,
for the closing quote is still to come. -/
def hexFour? : Text → Option (Nat × Text)
  | a :: b :: c :: d :: e :: rest => do
    let a ← hexDigit? a
    let b ← hexDigit? b
    let c ← hexDigit? c
    let d ← hexDigit? d
    return (((a * 16 + b) * 16 + c) * 16 + d, e :: rest)
  | _ => none

/-- The second half of a pair of escapes, if that is what comes next. -/
def lowHalf? : Text → Option (Nat × Text)
  | c :: d :: rest =>
    if c = '\\' ∧ d = 'u' then
      match hexFour? rest with
      | some (n, rest) => if 0xDC00 ≤ n ∧ n ≤ 0xDFFF then some (n, rest) else none
      | none => none
    else none
  | _ => none

/-- The code point of an escape with one letter. -/
def shortEscape? (c : CodePoint) : Option CodePoint :=
  if c = '"' then some '"'
  else if c = '\\' then some '\\'
  else if c = '/' then some '/'
  else if c = 'b' then some (CodePoint.ofNat 0x8)
  else if c = 'f' then some (CodePoint.ofNat 0xC)
  else if c = 'n' then some '\n'
  else if c = 'r' then some '\r'
  else if c = 't' then some '\t'
  else none

/-- The rest of a quoted text whose opening quote had `opening` code points from it to the end.
Each turn takes at least one code point, so the length of the text is fuel enough. -/
def readQuoted (opening : Nat) : (fuel : Nat) → Text → Except Stop (Text × Text)
  | 0, _ => .error (.flawed .unterminated opening)
  | _, [] => .error (.flawed .unterminated opening)
  | fuel + 1, c :: rest =>
    if c = '"' then .ok ([], rest)
    else if c = '\\' then
      match rest with
      | [] => .error (.flawed .unterminated opening)
      | e :: after =>
        if e = 'u' then
          match hexFour? after with
          | none => .error (.flawed .invalidUnicodeEscape rest.length)
          | some (n, tail) =>
            if 0xD800 ≤ n ∧ n ≤ 0xDBFF then
              match lowHalf? tail with
              | some (low, tail) =>
                let whole := 0x10000 + (n - 0xD800) * 0x400 + (low - 0xDC00)
                prepend (CodePoint.ofNat whole) (readQuoted opening fuel tail)
              -- a half without its other half stands for itself
              | none => prepend (CodePoint.ofNat n) (readQuoted opening fuel tail)
            else prepend (CodePoint.ofNat n) (readQuoted opening fuel tail)
        else
          match shortEscape? e with
          | none => .error (.flawed .invalidEscape (rest.length + 1))
          | some d => prepend d (readQuoted opening fuel after)
    else if c.val < 0x20 then .error (.flawed .controlCharacter (rest.length + 1))
    else prepend c (readQuoted opening fuel rest)
where
  /-- One code point more in front. -/
  prepend (c : CodePoint) : Except Stop (Text × Text) → Except Stop (Text × Text)
    | .ok (t, rest) => .ok (c :: t, rest)
    | .error stop => .error stop

/-- The whole number that digits spell. -/
def digitsValue (ds : Text) : Nat := ds.foldl (fun n d => n * 10 + d.digitValue) 0

/-- The digits in front, and the rest. -/
def takeDigits (t : Text) : Text × Text := t.span CodePoint.isAsciiDigit

/-- The digits after a point, if there are any, and the rest. -/
def fraction? (t : Text) : Option (Text × Text) :=
  match t with
  | c :: rest =>
    if c = '.' then
      let (ds, tail) := takeDigits rest
      if ds.isEmpty then none else some (ds, tail)
    else none
  | [] => none

/-- The exponent, if it is complete, and the rest. -/
def exponent? (t : Text) : Option (Int × Text) :=
  match t with
  | c :: rest =>
    if c = 'e' ∨ c = 'E' then
      let (negative, rest) : Bool × Text :=
        match rest with
        | s :: more => if s = '-' then (true, more) else if s = '+' then (false, more) else (false, rest)
        | [] => (false, [])
      let (ds, tail) := takeDigits rest
      if ds.isEmpty then none
      else
        let n : Int := digitsValue ds
        some (if negative then -n else n, tail)
    else none
  | [] => none

/-- The whole part of a number: a zero on its own, or digits that do not begin with one. -/
def wholePart? (t : Text) : Option (Text × Text) :=
  match t with
  | c :: rest =>
    if c = '0' then some ([c], rest)
    else if c.isAsciiDigit then some (takeDigits t)
    else none
  | [] => none

/-- A number. -/
def readNumber (t : Text) : Except Stop (Json × Text) :=
  let (negative, unsigned) : Bool × Text :=
    match t with
    | c :: rest => if c = '-' then (true, rest) else (false, t)
    | [] => (false, t)
  match wholePart? unsigned with
  | none => .error (.flawed .expectingValue t.length)
  | some (whole, rest) =>
    let fraction := fraction? rest
    let afterFraction := (fraction.map Prod.snd).getD rest
    let exponent := exponent? afterFraction
    let tail := (exponent.map Prod.snd).getD afterFraction
    match fraction, exponent with
    -- only a number without fraction and exponent is a whole one
    | none, none =>
      if whole.length > digitLimit then .error (.tooManyDigits whole.length)
      else
        let n : Int := digitsValue whole
        .ok (.int (if negative then -n else n), tail)
    | _, _ =>
      let decimals := (fraction.map Prod.fst).getD []
      let power := (exponent.map Prod.fst).getD 0
      .ok (.real (.ofDecimal negative (digitsValue (whole ++ decimals)) (power - decimals.length)),
        tail)

/-- A word of the grammar in front, and the rest. -/
def word? (w : Text) (t : Text) : Option Text :=
  if w.isPrefixOf t then some (t.drop w.length) else none

/-- The words of the grammar and what they stand for. -/
def namedValues : List (Text × Json) := [
  ("null", .null), ("true", .bool true), ("false", .bool false), ("NaN", .real .nan),
  ("Infinity", .real (.infinite false)), ("-Infinity", .real (.infinite true))]

/-- The named value in front, and the rest. -/
def named? (t : Text) : Option (Json × Text) :=
  namedValues.findSome? fun (w, value) => (word? w t).map fun rest => (value, rest)

mutual

/-- The value in front of a text, and the rest, where so many arrays and objects may be inside
each other. Every value takes at least one code point and every call below leaves less fuel, so
twice the length of the text is fuel enough. -/
def readValue : (fuel depth : Nat) → Text → Except Stop (Json × Text)
  | 0, _, t => .error (.flawed .expectingValue t.length)
  | _, _, [] => .error (.flawed .expectingValue 0)
  | fuel + 1, depth, c :: rest =>
    if c = '"' then
      match readQuoted (rest.length + 1) (rest.length + 1) rest with
      | .ok (t, tail) => .ok (.text t, tail)
      | .error stop => .error stop
    else if c = '\x7b' then
      match depth with
      | 0 => .error (.tooDeep true)
      | depth + 1 =>
        let inside := skipSpace rest
        match inside with
        | d :: tail =>
          if d = '\x7d' then .ok (.object [], tail) else readMembers fuel depth [] inside
        | [] => readMembers fuel depth [] inside
    else if c = '[' then
      match depth with
      | 0 => .error (.tooDeep false)
      | depth + 1 =>
        let inside := skipSpace rest
        match inside with
        | d :: tail => if d = ']' then .ok (.array [], tail) else readItems fuel depth [] inside
        | [] => readItems fuel depth [] inside
    else
      match named? (c :: rest) with
      | some found => .ok found
      | none => readNumber (c :: rest)

/-- The items of an array after those that are there, which are last first. -/
def readItems : (fuel depth : Nat) → List Json → Text → Except Stop (Json × Text)
  | 0, _, _, t => .error (.flawed .expectingValue t.length)
  | fuel + 1, depth, items, t =>
    match readValue fuel depth t with
    | .error stop => .error stop
    | .ok (item, tail) =>
      match skipSpace tail with
      | d :: rest =>
        if d = ']' then .ok (.array (item :: items).reverse, rest)
        else if d = ',' then readItems fuel depth (item :: items) (skipSpace rest)
        else .error (.flawed .expectingComma (rest.length + 1))
      | [] => .error (.flawed .expectingComma 0)

/-- The members of an object after those that are there. -/
def readMembers : (fuel depth : Nat) → Table Text Json → Text → Except Stop (Json × Text)
  | 0, _, _, t => .error (.flawed .expectingName t.length)
  | _, _, _, [] => .error (.flawed .expectingName 0)
  | fuel + 1, depth, members, c :: rest =>
    if c ≠ '"' then .error (.flawed .expectingName (rest.length + 1))
    else
      match readQuoted (rest.length + 1) (rest.length + 1) rest with
      | .error stop => .error stop
      | .ok (key, tail) =>
        match skipSpace tail with
        | [] => .error (.flawed .expectingColon 0)
        | colon :: rest =>
          if colon ≠ ':' then .error (.flawed .expectingColon (rest.length + 1))
          else
            match readValue fuel depth (skipSpace rest) with
            | .error stop => .error stop
            | .ok (value, tail) =>
              -- the last value of a key counts, in the place of the first
              let members := Table.put key value members
              match skipSpace tail with
              | d :: rest =>
                if d = '\x7d' then .ok (.object members, rest)
                else if d = ',' then readMembers fuel depth members (skipSpace rest)
                else .error (.flawed .expectingComma (rest.length + 1))
              | [] => .error (.flawed .expectingComma 0)

end

/-- A flaw by line, column and place, from the length of what follows the place. -/
def spot (t : Text) (flaw : Flaw) (remaining : Nat) : Spot :=
  let place := t.length - remaining
  let before := t.take place
  { flaw
    line := before.count Text.newline + 1
    column := (before.reverse.takeWhile (· ≠ Text.newline)).length + 1
    place }

/-- A whole text as one document. -/
def parse (t : Text) : Except Problem Json :=
  let refuse : Stop → Except Problem Json
    | .flawed flaw remaining => .error (.flawed (spot t flaw remaining))
    | .tooManyDigits count => .error (.tooManyDigits count)
    | .tooDeep isObject => .error (.tooDeep isObject)
  if t.head?.any (·.val == 0xFEFF) then refuse (.flawed .byteOrderMark t.length)
  else
    match readValue (2 * t.length + 2) depthLimit (skipSpace t) with
    | .error stop => refuse stop
    | .ok (value, tail) =>
      let rest := skipSpace tail
      if rest.isEmpty then .ok value else refuse (.flawed .extraData rest.length)

end VaultConsole.Json
