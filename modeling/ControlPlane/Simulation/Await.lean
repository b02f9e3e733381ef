/-
Waiting for something to happen. A script can wait until so many things of
a kind have happened, and take note of them. Time passes meanwhile, up to
a limit.
-/
import ControlPlane.Simulation.Script

namespace ControlPlane.Simulation

/-- What a script waits for. -/
inductive Goal
  /-- Background tasks and waits to end. -/
  | done
  /-- Messages to be delivered. -/
  | delivered
  /-- Log lines of some wording. -/
  | log (message : String)
  /-- Requests of some kind to be received by the key-value server. -/
  | request (kind : String)
  /-- A replica's registry to have some size. -/
  | registry (replica : Nat)
  deriving DecidableEq, Repr

/-- What has happened. -/
inductive Found
  | done (ends : List (String × Answer))
  | delivered (messages : List (String × Json))
  | log (lines : List LogLine)
  | requests (rs : List Json)
  | registry (size : Nat)

namespace Found

/-- Is it as much as was waited for?  A registry must have exactly the size. -/
def isEnough (count : Nat) : Found → Bool
  | done ends => count ≤ ends.length
  | delivered messages => count ≤ messages.length
  | log lines => count ≤ lines.length
  | requests rs => count ≤ rs.length
  | registry size => size = count

end Found

/-- Is a recorded request of a kind? -/
def isRequestOf (kind : String) (r : Json) : Bool :=
  match r.get? "op" with
  | some (.string op) => op = kind
  | _ => false

namespace Session

/-- Takes note of what has happened of a kind, so that it is not found
again. -/
def take (s : Session) : Goal → Found × Session
  | .done =>
    (.done (s.world.done.reverse.map Prod.snd),
      s.modify fun w => { w with done := [] })
  | .delivered =>
    (.delivered (s.world.delivered.reverse.map Prod.snd),
      s.modify fun w => { w with delivered := [] })
  | .log message =>
    let said (l : LogLine) : Bool := l.message = message
    (.log (s.world.ambient.log.reverse.filter said), s.modify fun w =>
      { w with ambient :=
        { w.ambient with log := w.ambient.log.filter fun l => ! said l } })
  | .request kind =>
    let rs := s.world.cluster.received
    (.requests (rs.reverse.filter (isRequestOf kind)), s.modify fun w =>
      { w with cluster :=
        { w.cluster with
          received := rs.filter fun r => ! isRequestOf kind r } })
  | .registry i => (.registry (s.world.replica i).registry.size, s)

/-- Lets time pass until enough has happened, or until a limit. -/
def waitFor (goal : Goal) (count limit : Nat) : Nat → Session → Bool × Session
  | 0, s => (false, s)
  | fuel + 1, s =>
    if (s.take goal).1.isEnough count then (true, s)
    else
      match s.world.nextDue with
      | some t =>
        if t ≤ limit then
          waitFor goal count limit fuel
            (s.modify fun w => { w with time := t }.settle)
        else (false, s.modify fun w => { w with time := max w.time limit })
      | none => (false, s.modify fun w => { w with time := max w.time limit })

/-- How long a script waits at most, in milliseconds. -/
def patience : Nat := 5000

/-- Waits until enough has happened, and takes note of it; whether it was
enough. -/
def await (s : Session) (goal : Goal) (count : Nat) :
    (Bool × Found) × Session :=
  let s := s.settle
  let (reached, s) :=
    waitFor goal count (s.world.time + patience) World.stepFuel s
  let (found, s) := s.take goal
  ((reached, found), s)

end Session

end ControlPlane.Simulation
