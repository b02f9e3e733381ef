/-
The clock, the source of new identifiers and of chance, the log and the
counters: what calls use beside the stores and the bus. Every reading of
the clock is later than the one before, and every drawn identifier is new.
-/
import ControlPlane.Settings
import ControlPlane.Telemetry.Log
import ControlPlane.Telemetry.Metrics
import ControlPlane.Time.Timestamp
import ControlPlane.Uuid

namespace ControlPlane

/-- Clock, identifiers, chance, log and counters. -/
structure Ambient where
  /-- The latest reading of the clock. -/
  clock : Timestamp
  /-- How many identifiers have been drawn. -/
  drawn : Nat := 0
  /-- The numbers that chance gives, each between nothing and one. -/
  luck : Nat → Double := fun _ => .zero false
  /-- How many numbers chance has given. -/
  chances : Nat := 0
  /-- The log, the latest line first. -/
  log : List LogLine := []
  metrics : Metrics := {}
  deriving Inhabited

namespace Ambient

/-- Reads the clock. -/
def now (a : Ambient) : Timestamp × Ambient :=
  (a.clock.succ, { a with clock := a.clock.succ })

/-- Draws an identifier. -/
def uuid (a : Ambient) : Uuid × Ambient :=
  (.draw a.drawn, { a with drawn := a.drawn + 1 })

/-- Takes a number from chance. -/
def chance (a : Ambient) : Double × Ambient :=
  (a.luck a.chances, { a with chances := a.chances + 1 })

/-- Adds a line to the log. -/
def say (a : Ambient) (l : LogLine) : Ambient := { a with log := l :: a.log }

/-- Counts one more of a metric. -/
def count (a : Ambient) (m : Metric) : Ambient :=
  { a with metrics := a.metrics.count m }

end Ambient

end ControlPlane
