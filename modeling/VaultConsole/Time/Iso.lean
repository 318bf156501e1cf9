import VaultConsole.Time.Timestamp
import VaultConsole.Text.Quoted
import VaultConsole.Text.Utf8

/-!
# Reading timestamps

The written forms of ISO 8601 that are read: a calendar date or a week date, with or without
hyphens; then, after any one character, a time of day with or without colons, to the hour, the
minute, the second or a fraction of it; then a distance from the universal clock. A timestamp
that names no clock goes by the universal one.

The reader works on the bytes of the text. A zero byte counts as the end wherever the end is
looked for, and digits beyond the sixth of a fraction are passed over, as is what stands
between them and a named clock.

* `Timestamp.parse`: the timestamp of a text.
* `Timestamp.Problem.message`: why there is none.
-/

namespace VaultConsole.Timestamp

/-- Why a text is no timestamp. -/
inductive Problem
  | malformed (text : Text)
  | offset (micros : Int)
  | year (year : Nat)
  | month
  | day
  | hour
  | minute
  | second
  deriving DecidableEq

/-- A length of time as days, seconds and microseconds, of which only the days may be
negative. -/
def spanText (micros : Int) : Text :=
  let days := micros.fdiv dayLength
  let rest := (micros.fmod dayLength).toNat
  let part (name : Text) (n : Nat) : List Text := if n = 0 then [] else [name ++ Text.ofNat n]
  let parts := (if days = 0 then [] else [("days=" : Text) ++ Text.ofInt days])
    ++ part "seconds=" (rest / 1000000) ++ part "microseconds=" (rest % 1000000)
  "datetime.timedelta(" ++ (if parts.isEmpty then ("0" : Text) else Text.joinWith ", " parts) ++ ")"

/-- The words for a problem. -/
def Problem.message : Problem → Text
  | malformed t => "Invalid isoformat string: " ++ t.quoted
  | offset micros =>
    "offset must be a timedelta strictly between -timedelta(hours=24) and timedelta(hours=24), not "
      ++ spanText micros ++ "."
  | year y => "year " ++ Text.ofNat y ++ " is out of range"
  | month => "month must be in 1..12"
  | day => "day is out of range for month"
  | hour => "hour must be in 0..23"
  | minute => "minute must be in 0..59"
  | second => "second must be in 0..59"

/-- Bytes as numbers. -/
abbrev Octets := List Nat

/-- The byte in front; at the end, zero. -/
def front (s : Octets) : Nat := s.headD 0

def isDigit (b : Nat) : Bool := 48 ≤ b && b ≤ 57

/-- The number of exactly so many digits in front, and the rest. -/
def digits? (count : Nat) (s : Octets) : Option (Nat × Octets) :=
  let ds := s.take count
  if ds.length = count ∧ ds.all isDigit = true then
    some (ds.foldl (fun n d => n * 10 + (d - 48)) 0, s.drop count)
  else none

/-- The bytes of the hyphen, the colon and the letters that the forms use. -/
def hyphen : Nat := 45
@[inherit_doc hyphen] def colon : Nat := 58
@[inherit_doc hyphen] def letterW : Nat := 87
@[inherit_doc hyphen] def letterZ : Nat := 90
@[inherit_doc hyphen] def plus : Nat := 43
@[inherit_doc hyphen] def point : Nat := 46
@[inherit_doc hyphen] def comma : Nat := 44

/-- Where the date ends. The fifth and sixth bytes tell the forms apart; a week date without a
weekday is told from one with a weekday by what follows. -/
def dateEnd (s : Octets) : Nat :=
  let byte (i : Nat) : Nat := s.getD i 0
  -- seven bytes hold a date and nothing else
  if s.length = 7 then 7
  else if byte 4 = hyphen then
    if byte 5 = letterW then
      if 8 < s.length ∧ byte 8 = hyphen then
        if 10 < s.length ∧ isDigit (byte 10) = true then 8 else 10
      else 8
    else 10
  else if byte 4 = letterW then
    -- what stands between date and time may be a digit too: a time without colons has an even
    -- number of digits, so their number tells whether a weekday is among them
    let run := 7 + ((s.drop 7).takeWhile isDigit).length
    if run < 9 then run else if run % 2 = 0 then 7 else 8
  else 8

/-- A date before its parts are checked against the calendar. -/
structure RawDate where
  year : Nat
  month : Nat
  day : Nat

/-- The week date of a year. Weeks of the year 0 lie before the calendar and give a date
without a month. -/
def weekDate? (year week day : Nat) : Option RawDate :=
  if year = 0 then
    if 1 ≤ week ∧ week ≤ 52 ∧ 1 ≤ day ∧ day ≤ 7 then some ⟨1, 0, 0⟩ else none
  else
    (Calendar.weekDay? year week day).map fun n =>
      let (y, m, d) := Calendar.ofDayNumber n
      ⟨y, m, d⟩

/-- A date that ends at a known place. -/
def date? (s : Octets) (ends : Nat) : Option RawDate := do
  let (year, s₁) ← digits? 4 s
  let hyphened := front s₁ = hyphen
  let s₁ := if hyphened then s₁.drop 1 else s₁
  if front s₁ = letterW then
    let (week, s₂) ← digits? 2 (s₁.drop 1)
    if s.length - s₂.length < ends then
      if hyphened ∧ front s₂ ≠ hyphen then none
      else
        let (day, _) ← digits? 1 (if hyphened then s₂.drop 1 else s₂)
        weekDate? year week day
    else weekDate? year week 1
  else
    let (month, s₂) ← digits? 2 s₁
    if hyphened ∧ front s₂ ≠ hyphen then none
    else
      let (day, _) ← digits? 2 (if hyphened then s₂.drop 1 else s₂)
      return ⟨year, month, day⟩

/-- A time of day before its parts are checked, or a distance between clocks. -/
structure RawTime where
  hour : Nat
  minute : Nat
  second : Nat
  micro : Nat
  /-- Whether something was left over. -/
  more : Bool

/-- The fraction of a second at the end of a time: six digits count. -/
def fraction? (hms : Nat × Nat × Nat) (following : Nat) (s : Octets) : Option RawTime := do
  let count := min 6 s.length
  let (n, rest) ← digits? count s
  -- digits beyond the sixth are passed over, not rounded
  let rest := rest.dropWhile isDigit
  return ⟨hms.1, hms.2.1, hms.2.2, n * Nat.pow 10 (6 - count), rest.headD following ≠ 0⟩

/-- What comes after the two digits of a part: the end, a colon or none as after the hour, or
the fraction. `colons` tells which of the two it was. -/
def afterPart (colons : Bool) (following : Nat) (s : Octets) (done : Bool → Option RawTime)
    (fraction next : Octets → Option RawTime) : Option RawTime :=
  let c := s.headD following
  if s.length ≤ 1 then done (c ≠ 0)
  else if colons = true ∧ c = colon then next (s.drop 1)
  else if c = point ∨ c = comma then fraction (s.drop 1)
  else if colons = true then none
  else next s

/-- A time of day in bytes that another byte follows. -/
def time? (following : Nat) (s : Octets) : Option RawTime := do
  let (hour, s) ← digits? 2 s
  let colons : Bool := s.headD following = colon
  afterPart colons following s (fun more => some ⟨hour, 0, 0, 0, more⟩)
    (fraction? (hour, 0, 0) following) fun s => do
      let (minute, s) ← digits? 2 s
      afterPart colons following s (fun more => some ⟨hour, minute, 0, 0, more⟩)
        (fraction? (hour, minute, 0) following) fun s => do
          let (second, s) ← digits? 2 s
          afterPart colons following s (fun more => some ⟨hour, minute, second, 0, more⟩)
            (fraction? (hour, minute, second) following) (fraction? (hour, minute, second) following)

/-- A time of day and the distance of its clock in microseconds. A distance of less than a
second is none. -/
def zonedTime? (s : Octets) : Option (RawTime × Int) := do
  let local_ := s.takeWhile fun b => !(b == plus || b == hyphen || b == letterZ)
  let zone := s.drop local_.length
  let time ← time? (front zone) local_
  match zone with
  | [] => if time.more then none else some (time, 0)
  | mark :: rest =>
    if mark = letterZ then (if front rest = 0 then some (time, 0) else none)
    else
      let o ← time? 0 rest
      if o.more then none
      else
        let seconds := o.hour * 3600 + o.minute * 60 + o.second
        let micros : Int := if seconds = 0 then 0 else seconds * 1000000 + o.micro
        some (time, if mark = hyphen then -micros else micros)

/-- The bytes of a text. A surrogate may stand where a date can end, and counts as the character
between date and time. -/
def octets? (t : Text) : Option Octets :=
  let place := [7, 8, 10].find? fun i => (t[i]?).any CodePoint.isSurrogate
  let t := match place with
    | some i => t.set i (CodePoint.ofChar 'T')
    | none => t
  match Text.Utf8.encode t with
  | .ok bytes => some (bytes.map UInt8.toNat)
  | .error _ => none

/-- The length of the character in front of bytes. -/
def characterLength (s : Octets) : Nat :=
  let b := front s
  if b < 0x80 then 1 else if b < 0xE0 then 2 else if b < 0xF0 then 3 else 4

/-- The parts of a timestamp before they are checked. -/
def parts? (t : Text) : Option (RawDate × RawTime × Int) := do
  let s ← octets? t
  let ends := dateEnd s
  let date ← date? s ends
  if s.length ≤ ends then return (date, ⟨0, 0, 0, 0, false⟩, 0)
  else
    let rest := s.drop ends
    let (time, offset) ← zonedTime? (rest.drop (characterLength rest))
    return (date, time, offset)

/-- The timestamp of a text. -/
def parse (t : Text) : Except Problem Timestamp :=
  match parts? t with
  | none => .error (.malformed t)
  | some (d, c, offset) =>
    -- the checks below only name what is wrong: together they are this one
    if h : isTimestamp d.year d.month d.day c.hour c.minute c.second c.micro offset then
      .ok ⟨d.year, d.month, d.day, c.hour, c.minute, c.second, c.micro, offset, h⟩
    else if dayLength ≤ offset.natAbs then .error (.offset offset)
    else if d.year < 1 ∨ 9999 < d.year then .error (.year d.year)
    else if d.month < 1 ∨ 12 < d.month then .error .month
    else if d.day < 1 ∨ Calendar.daysInMonth d.year d.month < d.day then .error .day
    else if 24 ≤ c.hour then .error .hour
    else if 60 ≤ c.minute then .error .minute
    else if 60 ≤ c.second then .error .second
    else .error (.malformed t)

end VaultConsole.Timestamp
