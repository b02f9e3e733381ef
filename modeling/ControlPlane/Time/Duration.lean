/-
Spans of time in whole nanoseconds.
-/

namespace ControlPlane

/-- A span of time. -/
structure Duration where
  nanos : Nat
  deriving DecidableEq, Repr, Inhabited

namespace Duration

/-- No time at all. -/
def zero : Duration := ⟨0⟩

/-- A number of seconds. -/
def ofSecs (n : Nat) : Duration := ⟨n * 1000000000⟩

/-- A number of milliseconds. -/
def ofMillis (n : Nat) : Duration := ⟨n * 1000000⟩

/-- The whole seconds of a span. -/
def secs (d : Duration) : Nat := d.nanos / 1000000000

/-- What is left of a span behind its whole seconds. -/
def subsecNanos (d : Duration) : Nat := d.nanos % 1000000000

/-- The whole milliseconds of a span. -/
def millis (d : Duration) : Nat := d.nanos / 1000000

/-- The least number of milliseconds that a span fits into: timers fire on
whole milliseconds and never early. -/
def millisUp (d : Duration) : Nat := (d.nanos + 999999) / 1000000

/-- The span, or another one in place of no time at all. -/
def nonZeroOr (d other : Duration) : Duration :=
  if d.nanos = 0 then other else d

/-- A count of seconds as a span; a missing, zero or negative count gives
the other span. -/
def positiveSecsOr (secs : Option Int) (other : Duration) : Duration :=
  match secs with
  | some s => if 0 < s then ofSecs s.toNat else other
  | none => other

/-- The digits behind the point, without zeros at the end. -/
def fraction (digits : List Char) : List Char :=
  (digits.reverse.dropWhile (· = '0')).reverse

/-- A count of `unit`s with the fraction that `part` of `whole` makes,
`10 ^ places = whole`. -/
def withFraction (count part places : Nat) (unit : String) : String :=
  let digits := (toString part).toList
  let padded := List.replicate (places - digits.length) '0' ++ digits
  match fraction padded with
  | [] => toString count ++ unit
  | ds => toString count ++ "." ++ String.ofList ds ++ unit

/-- A span for readers of a log, in the largest unit of which it holds one. -/
def text (d : Duration) : String :=
  if 1000000000 ≤ d.nanos then withFraction d.secs d.subsecNanos 9 "s"
  else if 1000000 ≤ d.nanos then
    withFraction (d.nanos / 1000000) (d.nanos % 1000000) 6 "ms"
  else if 1000 ≤ d.nanos then
    withFraction (d.nanos / 1000) (d.nanos % 1000) 3 "µs"
  else toString d.nanos ++ "ns"

end Duration

end ControlPlane
