/-
Wake signals. A signal tells the wait calls that hold it that something
happened. Only its latest state can be seen, so every change counts one up
in `version`, and a holder remembers the version it saw last. Once a
signal is allocated or closed it stays so.
-/

namespace ControlPlane

/-- What a signal says. -/
inductive Wake
  | pending
  /-- Look into the store again; the signal stays armed. -/
  | recheck
  | allocated
  | closed
  deriving DecidableEq, Repr, Inhabited

/-- Can the state still change? -/
def Wake.isFinal : Wake → Bool
  | .allocated => true
  | .closed => true
  | _ => false

/-- The name of what a signal says. -/
def Wake.name : Wake → String
  | .pending => "Pending"
  | .recheck => "Recheck"
  | .allocated => "Allocated"
  | .closed => "Closed"

/-- A signal. -/
structure Signal where
  state : Wake := .pending
  /-- How often the state was set. -/
  version : Nat := 0
  /-- How many registrations hold the signal. -/
  holders : Nat := 0
  deriving DecidableEq, Repr, Inhabited

namespace Signal

/-- Sets the state unless it is final, and says whether it did. -/
def advance (s : Signal) (next : Wake) : Bool × Signal :=
  if s.state.isFinal then (false, s)
  else (true, { s with state := next, version := s.version + 1 })

/-- Fires: tells that the machine is allocated, or only to look again.
True if the state changed and somebody holds the signal. -/
def fire (s : Signal) (allocated : Bool) : Bool × Signal :=
  let (changed, s) := s.advance (if allocated then .allocated else .recheck)
  (changed && 0 < s.holders, s)

/-- Closes without an allocation. -/
def close (s : Signal) : Signal := (s.advance .closed).2

/-- Can the signal no longer wake anybody anew? -/
def isClosed (s : Signal) : Bool := s.state.isFinal

/-- One more holder, and the version that it takes for seen: all but a
state that tells something. -/
def acquire (s : Signal) : Nat × Signal :=
  (if s.state = .pending then s.version else s.version - 1,
    { s with holders := s.holders + 1 })

end Signal

end ControlPlane
