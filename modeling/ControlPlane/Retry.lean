/-
Retrying conflicts. A call that reads a record and writes it back loses
against another writer who comes between. It is attempted again, a bounded
number of times, with growing pauses; any other end of an attempt is the
end of the call.
-/
import ControlPlane.Error
import ControlPlane.Settings
import ControlPlane.Telemetry.Ambient

namespace ControlPlane

namespace RetrySettings

/-- How many attempts a call has; never none. -/
def budget (s : RetrySettings) : Nat := max s.maxAttempts 1

/-- The nanoseconds in a second. -/
def second : Double := .ofNat 1000000000

/-- A span in nanoseconds, added up from its seconds and the rest. -/
def inDouble (d : Duration) : Double :=
  ((Double.ofNat d.secs).mul second).add (.ofNat d.subsecNanos)

/-- The span of a count of nanoseconds, its seconds and the rest of them
each cut off at the point. -/
def ofDouble (x : Double) : Duration :=
  ⟨(x.div second).toNatBelow UInt64.size * 1000000000 +
    x.toNatBelow UInt64.size % 1000000000⟩

/-- The interval after `c`: the greatest one once `c` reaches its part
that the multiplier makes the greatest of, else `c` times the multiplier. -/
def grow (s : RetrySettings) (c : Duration) : Duration :=
  match s.precision with
  | .double =>
    if ((inDouble s.maxBackoff).div s.multiplier).le (inDouble c) then
      s.maxBackoff
    else ofDouble ((inDouble c).mul s.multiplier)
  | .exact =>
    let f := s.multiplier.size
    if s.maxBackoff.nanos * f.den ≤ c.nanos * f.num then s.maxBackoff
    else ⟨c.nanos * f.num / f.den⟩

/-- A delay near an interval: `draw`, between nothing and one, says where
between the interval less and plus its part `jitter`. Without jitter it is
the interval. -/
def spread (s : RetrySettings) (draw : Double) (c : Duration) : Duration :=
  match s.precision with
  | .double =>
    let n := inDouble c
    let stray := s.jitter.mul n
    let low := n.sub stray
    ofDouble (low.add (draw.mul (((n.add stray).sub low).add (.ofNat 1))))
  | .exact =>
    let j := s.jitter.size
    let d := draw.size
    let n := c.nanos
    ⟨(n * j.den * d.den + d.num * (2 * n * j.num + j.den) -
      n * j.num * d.den) / (j.den * d.den)⟩

end RetrySettings

/-- How far a retried call has come: its attempts so far, and the interval
before the next. -/
structure Pacing where
  attempts : Nat
  interval : Duration
  deriving DecidableEq, Repr

namespace Pacing

/-- The first attempt. -/
def start (s : RetrySettings) : Pacing := ⟨1, s.initialBackoff⟩

/-- After a conflict: the delay before the next attempt, if the budget
allows one. The number `draw` is chance's. -/
def next (s : RetrySettings) (draw : Double) (p : Pacing) :
    Option (Duration × Pacing) :=
  if p.attempts < s.budget then
    some (s.spread draw p.interval, ⟨p.attempts + 1, s.grow p.interval⟩)
  else none

/-- After a conflict in an operation: the delay before the next attempt,
logged and counted, if the budget allows one. -/
def again (operation : String) (s : RetrySettings) (p : Pacing) (a : Ambient) :
    Option (Duration × Pacing × Ambient) :=
  let (draw, a) := a.chance
  match p.next s draw with
  | some (delay, next) =>
    some (delay, next,
      (a.say (.conflictRetry operation p.attempts s.budget delay.millis)).count
        (.conflictRetry operation))
  | none => none

end Pacing

namespace Retry

/-- A retried call that has ended. -/
structure Run (ε α : Type) where
  attempts : Nat
  result : Except ε α
  /-- The delays before the second and later attempts. -/
  delays : List Duration

/-- Attempts until one ends in something else than a conflict, or the
budget is spent; `attempt i` is how the attempt number `i`, counted from
nothing, ends. -/
def go {ε α : Type} (operation : String) (s : RetrySettings)
    (isConflict : ε → Bool) (attempt : Nat → Except ε α) :
    Nat → Pacing → Ambient → Run ε α × Ambient
  | 0, p, a => (⟨p.attempts, attempt (p.attempts - 1), []⟩, a)
  | left + 1, p, a =>
    match attempt (p.attempts - 1) with
    | .ok x => (⟨p.attempts, .ok x, []⟩, a)
    | .error e =>
      if isConflict e then
        match p.again operation s a with
        | some (delay, p, a) =>
          let (r, a) := go operation s isConflict attempt left p a
          ({ r with delays := delay :: r.delays }, a)
        | none => (⟨p.attempts, .error e, []⟩, a)
      else (⟨p.attempts, .error e, []⟩, a)

/-- Runs an operation to its end. -/
def run {ε α : Type} (operation : String) (s : RetrySettings)
    (isConflict : ε → Bool) (attempt : Nat → Except ε α) (a : Ambient) :
    Run ε α × Ambient :=
  go operation s isConflict attempt s.budget (Pacing.start s) a

/-- The time that a run pauses, in whole milliseconds, each pause rounded
up. -/
def Run.pausedMillis {ε α : Type} (r : Run ε α) : Nat :=
  r.delays.foldl (fun n d => n + d.millisUp) 0

end Retry

end ControlPlane
