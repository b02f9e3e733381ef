/-
The counters that are kept about a process, and their exposition. How many
wait calls are blocked is not counted but told by those who hold the
signals.
-/
import ControlPlane.Table

namespace ControlPlane

/-- What is counted. -/
inductive Metric
  /-- Wait calls that ended, by how they ended. -/
  | waitFinished (outcome : String)
  /-- News of allocations, by what became of it. -/
  | notification (result : String)
  /-- Attempts lost against another writer, by call. -/
  | conflictRetry (operation : String)
  /-- Deliveries that failed, by reason. -/
  | handlerFailure (reason : String)
  deriving DecidableEq, Repr

/-- A label's value as it stands between quotation marks, its line feeds,
quotation marks and backslashes with a backslash before them. A backslash
is held back until the next character: a quotation mark and a second
backslash take it as theirs, so that what was escaped before is not
escaped again. A line feed leaves it held. -/
def escapeFrom (held : Bool) : List Char → List Char
  | [] => if held then ['\\', '\\'] else []
  | c :: rest =>
    if c = '\n' then '\\' :: 'n' :: escapeFrom held rest
    else if c = '"' then '\\' :: '"' :: escapeFrom false rest
    else if c = '\\' then
      if held then '\\' :: '\\' :: escapeFrom false rest
      else escapeFrom true rest
    else if held then '\\' :: '\\' :: c :: escapeFrom false rest
    else c :: escapeFrom false rest

/-- A label's value with its escapes. -/
def escapeLabel (s : String) : String :=
  String.ofList (escapeFrom false s.toList)

/-- The name and the label of a counter in the exposition. -/
def Metric.text : Metric → String
  | waitFinished outcome =>
    "metal_wait_finished_total\x7boutcome=\"" ++ escapeLabel outcome ++
      "\"\x7d"
  | notification result =>
    "metal_allocation_notifications_total\x7bresult=\"" ++
      escapeLabel result ++ "\"\x7d"
  | conflictRetry operation =>
    "metal_conflict_retries_total\x7boperation=\"" ++
      escapeLabel operation ++ "\"\x7d"
  | handlerFailure reason =>
    "metal_bus_handler_failures_total\x7breason=\"" ++
      escapeLabel reason ++ "\"\x7d"

/-- The counters of a process. -/
structure Metrics where
  counts : Table Metric Nat := .empty
  deriving Repr, Inhabited

namespace Metrics

/-- Counts one more. -/
def count (ms : Metrics) (m : Metric) : Metrics :=
  ⟨ms.counts.set m ((ms.counts.get? m).getD 0 + 1)⟩

/-- How often something was counted. -/
def get (ms : Metrics) (m : Metric) : Nat := (ms.counts.get? m).getD 0

theorem get_count (ms : Metrics) (m m' : Metric) :
    (ms.count m).get m' = ms.get m' + if m' = m then 1 else 0 := by
  simp only [count, get, Table.get?_set]
  by_cases h : m = m'
  · subst h
    simp
  · simp [h, Ne.symm h]

/-- The lines of the exposition; `streams` is the number of blocked wait
calls, if there ever was one. -/
def lines (ms : Metrics) (streams : Option Int) : List String :=
  (ms.counts.entries.map fun (m, n) => m.text ++ " " ++ toString n) ++
    match streams with
    | some n => ["metal_wait_streams " ++ toString n]
    | none => []

/-- The names, help texts and kinds of all metrics. -/
def described : List (String × String × String) :=
  [("metal_wait_streams", "Number of wait streams blocked on this replica",
    "gauge"),
    ("metal_wait_finished_total",
      "Total number of finished wait calls by outcome", "counter"),
    ("metal_allocation_notifications_total",
      "Total number of allocation notifications by result", "counter"),
    ("metal_conflict_retries_total",
      "Total number of optimistic update retries", "counter"),
    ("metal_bus_handler_failures_total",
      "Total number of failed bus handler invocations", "counter")]

/-- The comment lines of the exposition. -/
def descriptions : List String :=
  described.flatMap fun (name, help, kind) =>
    ["# HELP " ++ name ++ " " ++ help, "# TYPE " ++ name ++ " " ++ kind]

end Metrics

end ControlPlane
