/-
The registry of wake signals. The wait calls that are blocked on this
replica hold signals, by machine. A call that comes while another one
still holds the machine's signal joins it, so that one allocation wakes
both. The last holder takes the entry away and closes the signal,
whichever way its call ends.

Signals are told apart by their generation and are kept after they have
left the registry, since those who looked one up may go on using it.
-/
import ControlPlane.Error
import ControlPlane.Table
import ControlPlane.Telemetry.Ambient
import ControlPlane.Wake.Signal

namespace ControlPlane

/-- A call's hold on a signal. -/
structure Registration where
  machine : String
  generation : Nat
  /-- The version of the signal that the call saw last. -/
  seen : Nat
  deriving DecidableEq, Repr, Inhabited

/-- The signals of one replica. -/
structure Registry where
  /-- The generation of the signal under each machine. -/
  entries : Table String Nat := .empty
  /-- All signals that were ever issued, by generation. -/
  signals : List Signal := []
  /-- The gauge of live registrations; `none` before the first one. -/
  streams : Option Int := none
  deriving Repr, Inhabited

namespace Registry

/-- The signal of a generation. -/
def signal (r : Registry) (g : Nat) : Signal := r.signals.getD g {}

/-- Replaces the signal of a generation. -/
def setSignal (r : Registry) (g : Nat) (s : Signal) : Registry :=
  { r with signals := r.signals.set g s }

/-- The signal under a machine, by generation. -/
def lookup (r : Registry) (machine : String) : Option Nat :=
  r.entries.get? machine

/-- The number of entries. -/
def size (r : Registry) : Nat := r.entries.size

/-- A new signal under the machine. -/
def issue (r : Registry) (machine : String) : Nat × Registry :=
  (r.signals.length,
    { r with
      entries := r.entries.set machine r.signals.length
      signals := r.signals ++ [{}] })

/-- Takes hold of the signal of a generation. -/
def hold (r : Registry) (machine : String) (g : Nat) :
    Registration × Registry :=
  let (seen, s) := (r.signal g).acquire
  (⟨machine, g, seen⟩,
    { r.setSignal g s with streams := some (r.streams.getD 0 + 1) })

/-- Registers a wait call for a machine: it joins the machine's signal if
that has a holder and is not closed, and gets a new one if there is none
that anybody holds. -/
def register (r : Registry) (machine : String) :
    Except RegistryError Registration × Registry :=
  match r.lookup machine with
  | some g =>
    if (r.signal g).holders = 0 then
      let (g, r) := r.issue machine
      let (reg, r) := r.hold machine g
      (.ok reg, r)
    else if (r.signal g).state = .closed then (.error (.closed machine), r)
    else
      let (reg, r) := r.hold machine g
      (.ok reg, r)
  | none =>
    let (g, r) := r.issue machine
    let (reg, r) := r.hold machine g
    (.ok reg, r)

/-- Lets go of a signal. The last holder takes the entry away if it is
still this signal's, and closes the signal. -/
def release (r : Registry) (reg : Registration) : Registry :=
  let old := r.signal reg.generation
  let s : Signal := { old with holders := old.holders - 1 }
  let r : Registry := { r.setSignal reg.generation s with
    streams := some (r.streams.getD 0 - 1) }
  if s.holders = 0 then
    let r : Registry :=
      if r.lookup reg.machine = some reg.generation then
        { r with entries := r.entries.erase reg.machine }
      else r
    r.setSignal reg.generation s.close
  else r

/-- Fires the signal of a generation. -/
def fire (r : Registry) (g : Nat) (allocated : Bool) : Bool × Registry :=
  let (fired, s) := (r.signal g).fire allocated
  (fired, r.setSignal g s)

/-- Closes the signal of a generation. -/
def close (r : Registry) (g : Nat) : Registry :=
  r.setSignal g (r.signal g).close

/-- Takes the machine's entry away and closes its signal. -/
def remove (r : Registry) (machine : String) : Registry :=
  match r.lookup machine with
  | some g => { r.close g with entries := r.entries.erase machine }
  | none => r

/-- Would a holder be woken now? -/
def isWoken (r : Registry) (reg : Registration) : Bool :=
  reg.seen ≠ (r.signal reg.generation).version

/-- What a holder is woken with, if its signal changed since it last looked. -/
def woken (r : Registry) (reg : Registration) : Option (Wake × Registration) :=
  let s := r.signal reg.generation
  if reg.seen = s.version then none
  else some (s.state, { reg with seen := s.version })

end Registry

/-- What a call on one replica has around it. -/
structure Local where
  registry : Registry
  ambient : Ambient
  deriving Inhabited

namespace Local

/-- Adds a line to the log. -/
def say (l : Local) (line : LogLine) : Local :=
  { l with ambient := l.ambient.say line }

/-- Counts one more of a metric. -/
def count (l : Local) (m : Metric) : Local :=
  { l with ambient := l.ambient.count m }

/-- Reads the clock. -/
def now (l : Local) : Timestamp × Local :=
  let (t, a) := l.ambient.now
  (t, { l with ambient := a })

/-- Registers a wait call, and says so. -/
def register (l : Local) (machine : String) :
    Except RegistryError Registration × Local :=
  match l.registry.register machine with
  | (.error e, r) => (.error e, { l with registry := r })
  | (.ok reg, r) =>
    (.ok reg, { l with registry := r }.say
      (.signalRegistered machine reg.generation
        (r.signal reg.generation).holders))

/-- Lets go of a signal, and says so. -/
def release (l : Local) (reg : Registration) : Local :=
  { l with registry := l.registry.release reg }.say
    (.signalReleased reg.machine)

end Local

end ControlPlane
