/-
Which log lines are written. A filter is a list of directives. Of those
that a line falls under, the one that is closest to it decides. Directives
that do not parse count for nothing; a filter without any directive writes
the lines of all parts up to the level that it is given.
-/
import ControlPlane.Telemetry.Directive

namespace ControlPlane

/-- Which lines are written. -/
structure LogFilter where
  directives : List Directive
  deriving Repr

namespace LogFilter

/-- The filter of a text with commas between directives. -/
def ofText (standard : LogLevel) (s : String) : LogFilter :=
  match ((s.splitOn ",").filter (· ≠ "")).filterMap Directive.parse? with
  | [] => ⟨[{ verbosity := some standard }]⟩
  | ds => ⟨ds⟩

/-- The directives that lines can fall under which stand in no span. Those
that ask for fields come last. -/
def statics (f : LogFilter) : List Directive :=
  (f.directives.filter fun d => ! d.isDynamic) ++
    f.directives.filter fun d => d.isDynamic && d.isStatic

/-- The directive that decides about a line; of two that are as close, the
later one. -/
def deciding (f : LogFilter) (target : String) (l : LogLine) :
    Option Directive :=
  (f.statics.filter fun d => d.covers target l).foldl (fun best d =>
    match best with
    | some b => if d.isBelow b then some b else some d
    | none => some d) none

/-- Is a line of a part written? -/
def passes (f : LogFilter) (target : String) (l : LogLine) : Bool :=
  match (f.deciding target l).bind Directive.verbosity with
  | some level => level.rank ≤ l.level.rank
  | none => false

end LogFilter

end ControlPlane
