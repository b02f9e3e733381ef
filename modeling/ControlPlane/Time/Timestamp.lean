/-
A point in time is a number of seconds since the start of 1970 and of
nanoseconds behind them. A leap second is kept as the nanoseconds of the
second before it, above one thousand million.

Points are written in universal time with as many digits of the second's
fraction as are needed, in groups of three. They are read more freely
(`parse?`): the parts may have one digit, white space may stand around
them, and the offset to universal time may be written in several ways.
-/
import ControlPlane.Text.Blank
import ControlPlane.Time.Calendar
import ControlPlane.Time.Duration

namespace ControlPlane

/-- A point in time. -/
structure Timestamp where
  /-- Seconds since the start of 1970. -/
  secs : Int
  /-- Nanoseconds behind the second; from one thousand million on, of the
  leap second after it. -/
  nanos : Nat
  deriving DecidableEq, Repr, Inhabited

namespace Timestamp

/-- The seconds of a day. -/
def daySecs : Int := 86400

/-- The number of the day. -/
def day (t : Timestamp) : Int := t.secs.fdiv daySecs

/-- The seconds since the start of the day. -/
def secOfDay (t : Timestamp) : Int := t.secs.fmod daySecs

/-- The least and the greatest year of points that are read. -/
def minYear : Int := -262143
/-- The greatest year of points that are read. -/
def maxYear : Int := 262142

/-- Is this the nanosecond count of a second, a leap second only at the
end of a minute, and is the year one of those that are read? -/
def Valid (t : Timestamp) : Prop :=
  t.nanos < 2000000000 ∧ (1000000000 ≤ t.nanos → t.secs.fmod 60 = 59) ∧
    minYear ≤ (Calendar.Date.ofDays t.day).year ∧
    (Calendar.Date.ofDays t.day).year ≤ maxYear

/-- The point one nanosecond later. -/
def succ (t : Timestamp) : Timestamp :=
  if t.nanos + 1 < 1000000000 then ⟨t.secs, t.nanos + 1⟩ else ⟨t.secs + 1, 0⟩

/-- The order of points in time. -/
def lt (a b : Timestamp) : Prop :=
  a.secs < b.secs ∨ (a.secs = b.secs ∧ a.nanos < b.nanos)

instance : LT Timestamp := ⟨lt⟩
instance (a b : Timestamp) : Decidable (a < b) :=
  inferInstanceAs (Decidable
    (a.secs < b.secs ∨ (a.secs = b.secs ∧ a.nanos < b.nanos)))

/-- The nanoseconds from `b` to `a`. A leap second counts when it lies
between the two within a day. -/
def sub (a b : Timestamp) : Int :=
  let leap : Int :=
    if b.secOfDay < a.secOfDay ∧ 1000000000 ≤ b.nanos then 1
    else if a.secOfDay < b.secOfDay ∧ 1000000000 ≤ a.nanos then -1
    else 0
  ((a.day - b.day) * daySecs + (a.secOfDay - b.secOfDay) + leap) * 1000000000 +
    ((a.nanos : Int) - b.nanos)

/-- The nanoseconds since the start of 1970, if they fit into 64 signed
bits. -/
def unixNanos? (t : Timestamp) : Option Int :=
  let n := t.secs * 1000000000 + t.nanos
  if -9223372036854775808 ≤ n ∧ n < 9223372036854775808 then some n else none

-- ================================================================ writing

/-- The digits of a number, with zeros in front up to a width. -/
def padded (width n : Nat) : List Char :=
  let ds := Nat.toDigits 10 n
  List.replicate (width - ds.length) '0' ++ ds

/-- A year: four digits, or a sign and at least four where four do not do. -/
def yearChars (year : Int) : List Char :=
  if 0 ≤ year ∧ year ≤ 9999 then padded 4 year.toNat
  else (if year < 0 then '-' else '+') :: padded 4 year.natAbs

/-- The fraction of a second in groups of three digits, as many as are
needed. -/
def fractionChars (nanos : Nat) : List Char :=
  if nanos = 0 then []
  else if nanos % 1000000 = 0 then '.' :: padded 3 (nanos / 1000000)
  else if nanos % 1000 = 0 then '.' :: padded 6 (nanos / 1000)
  else '.' :: padded 9 nanos

/-- The written form, in universal time. -/
def chars (t : Timestamp) : List Char :=
  let d := Calendar.Date.ofDays t.day
  let s := t.secOfDay.toNat
  yearChars d.year ++ '-' :: padded 2 d.month ++ '-' :: padded 2 d.day ++
    'T' :: padded 2 (s / 3600) ++ ':' :: padded 2 (s / 60 % 60) ++
    ':' :: padded 2 (s % 60 + t.nanos / 1000000000) ++
    fractionChars (t.nanos % 1000000000) ++ ['Z']

/-- The written form, in universal time. -/
def text (t : Timestamp) : String := String.ofList t.chars

-- ================================================================ reading

/-- The value of a decimal digit. -/
def digit? (c : Char) : Option Nat :=
  if '0' ≤ c ∧ c ≤ '9' then some (c.toNat - 48) else none

/-- The digits at the front of a text, at most `most` of them, and the
text behind them. -/
def takeDigits : Nat → List Char → List Nat × List Char
  | 0, cs => ([], cs)
  | _ + 1, [] => ([], [])
  | most + 1, c :: rest =>
    match digit? c with
    | some d => let (ds, tail) := takeDigits most rest; (d :: ds, tail)
    | none => ([], c :: rest)

/-- The number that digits stand for. -/
def ofDigits (ds : List Nat) : Nat := ds.foldl (fun n d => n * 10 + d) 0

/-- A number of at least one and at most `most` digits behind white space. -/
def readPart (most : Nat) (cs : List Char) : Option (Nat × List Char) :=
  match takeDigits most (Text.trimStart cs) with
  | ([], _) => none
  | (ds, rest) => some (ofDigits ds, rest)

/-- A part of a date or a time that lies between two bounds. -/
def readBetween (low high : Nat) (cs : List Char) : Option (Nat × List Char) :=
  match readPart 2 cs with
  | some (n, rest) => if low ≤ n ∧ n ≤ high then some (n, rest) else none
  | none => none

/-- A year: up to four digits, or a sign and any number of digits. -/
def readYear (cs : List Char) : Option (Int × List Char) :=
  match Text.trimStart cs with
  | '-' :: rest => signed (-1) rest
  | '+' :: rest => signed 1 rest
  | cs => (readPart 4 cs).map fun (n, rest) => ((n : Int), rest)
where
  /-- The digits behind a sign. -/
  signed (sign : Int) (cs : List Char) : Option (Int × List Char) :=
    match takeDigits cs.length cs with
    | ([], _) => none
    | (ds, rest) => some (sign * ofDigits ds, rest)

/-- A separator, around which white space may stand before it. -/
def readMark (mark : Char) (cs : List Char) : Option (List Char) :=
  match Text.trimStart cs with
  | c :: rest => if c = mark then some rest else none
  | [] => none

/-- The fraction of a second, if a point follows: any number of digits, of
which nine count. -/
def readFraction : List Char → Option (Nat × List Char)
  | '.' :: rest =>
    match takeDigits 9 rest with
    | ([], _) => none
    | (ds, tail) =>
      some (ofDigits ds * Nat.pow 10 (9 - ds.length),
        (takeDigits tail.length tail).2)
  | rest => some (0, rest)

/-- Two digits of an offset; the first one is at most `top`. -/
def twoDigits (top : Nat) : List Char → Option (Nat × List Char)
  | a :: b :: rest =>
    match digit? a, digit? b with
    | some a, some b => if a ≤ top then some (a * 10 + b, rest) else none
    | _, _ => none
  | _ => none

/-- The signed offset's hours and minutes, in seconds; colons and white
space may divide them. -/
def readOffsetParts (sign : Int) (cs : List Char) : Option (Int × List Char) :=
  match twoDigits 9 cs with
  | none => none
  | some (hours, rest) =>
    match twoDigits 5 (rest.dropWhile fun c => c = ':' || Text.isBlank c) with
    | none => none
    | some (minutes, rest) =>
      if hours < 24 then
        some (sign * (hours * 3600 + minutes * 60 : Nat), rest)
      else none

/-- The offset to universal time in seconds. -/
def readOffset (cs : List Char) : Option (Int × List Char) :=
  match cs with
  | 'Z' :: rest => some (0, rest)
  | 'z' :: rest => some (0, rest)
  | '+' :: rest => readOffsetParts 1 rest
  | '-' :: rest => readOffsetParts (-1) rest
  | '\u2212' :: rest => readOffsetParts (-1) rest
  | u :: t :: c :: rest =>
    if u.toUpper = 'U' ∧ t.toUpper = 'T' ∧ c.toUpper = 'C' then some (0, rest)
    else none
  | _ => none

/-- The date at the front of a text. -/
def readDate (cs : List Char) : Option (Calendar.Date × List Char) := do
  let (year, cs) ← readYear cs
  let cs ← readMark '-' cs
  let (month, cs) ← readBetween 1 12 cs
  let cs ← readMark '-' cs
  let (day, cs) ← readBetween 1 31 cs
  return (⟨year, month, day⟩, cs)

/-- The time of day at the front of a text: the second of the day, and the
nanoseconds behind it. The second 60 is the leap second after 59. -/
def readTime (cs : List Char) : Option (Nat × Nat × List Char) := do
  let (hour, cs) ← readBetween 0 23 cs
  let cs ← readMark ':' cs
  let (minute, cs) ← readBetween 0 59 cs
  let cs ← readMark ':' cs
  let (second, cs) ← readBetween 0 60 cs
  let (nanos, cs) ← readFraction cs
  let base := hour * 3600 + minute * 60
  return if second = 60 then (base + 59, nanos + 1000000000, cs)
    else (base + second, nanos, cs)

/-- Is this a day of the years that are read? -/
def inRange (d : Calendar.Date) : Bool := minYear ≤ d.year && d.year ≤ maxYear

/-- Reads a point in time. -/
def parse? (s : String) : Option Timestamp := do
  let (date, cs) ← readDate s.toList
  let cs ← match cs with
    | c :: rest => if c = 'T' ∨ c = 't' ∨ c = ' ' then some rest else none
    | [] => none
  let (sec, nanos, cs) ← readTime cs
  let (offset, cs) ← readOffset (Text.trimStart cs)
  if ! (Text.trimStart cs).isEmpty || ! date.valid || ! inRange date then none
  else
    let t : Timestamp := ⟨date.toDays * daySecs + sec - offset, nanos⟩
    if inRange (Calendar.Date.ofDays t.day) then some t else none

end Timestamp

end ControlPlane
