/-
The calls that tasks of a simulated world carry out, of whichever kind,
and what they end with.
-/
import ControlPlane.Etcd.Server
import ControlPlane.Http.EventStream
import ControlPlane.Http.Response
import ControlPlane.Lifecycle.Call

namespace ControlPlane.Simulation

/-- What can be seen of a signal. -/
structure SignalView where
  holders : Nat
  closed : Bool
  /-- Whether firing it woke anybody, if it was fired. -/
  fired : Option Bool := none
  deriving DecidableEq, Repr

/-- What a step of a script ends with. -/
inductive Answer
  | nothing
  | flag (b : Bool)
  | revision (n : Int)
  | stored (r : Except StoreError Versioned)
  | checked (r : Except StoreError Unit)
  | listed (r : Except StoreError (List ProvisioningEvent))
  | record (r : Except ServiceError MachineRecord)
  | history (r : Except ServiceError (List ProvisioningEvent))
  | published (r : Except BusError Unit)
  | response (r : Http.Response)
  | waited (r : Except WaitError Wait.Outcome)
  | subscribed (r : Except BusError String)
  /-- A replica hears of allocations: its subscription's name, whether
  that is the notifier's own, and whether the replica is ready. -/
  | listening (r : Except BusError (String × Bool × Bool))
  | entered (r : Except RegistryError String)
  | dropped (b : Bool)
  | woken (w : Option Wake)
  | signal (s : Option SignalView)
  | registry (size : Nat)
  | lines (ls : List String)
  | stream (text : String) (ended : Bool)
  | noStream
  | entries (es : List Etcd.Entry)
  | requests (rs : List Json)
  | several (answers : List Answer)
  /-- There is nothing of that name. -/
  | unknown (what : String)
  /-- What was given does not have the shape that it has to have. -/
  | malformed

/-- A single question to a store, a history or the bus. -/
inductive Query
  | get (id : String)
  | create (record : MachineRecord)
  | update (old : Versioned) (next : MachineRecord)
  | ping
  | append (id : String) (event : ProvisioningEvent)
  | list (id : String)
  | notify (topic machine : String)

/-- What a task does. -/
inductive Work
  | lifecycle (c : Lifecycle.Call)
  | history (c : Lifecycle.HistoryCall)
  | lookup (c : Lifecycle.LookupCall)
  | wait (c : Wait.Call)
  | query (q : Query)
  /-- Publishes payloads one after the other. -/
  | publish (topic : String) (payloads : List Json)
  | pause (d : Duration)
  | done (a : Answer)

namespace Work

/-- The work is done. -/
def finish {ρ : Type} (answer : ρ → Answer) (r : ρ) : Move Work :=
  fun l => (.done (answer r), l)

/-- What a piece of work wants next. -/
def demand (now : Moment) : Work → Demand Work Answer
  | lifecycle c => c.demand.embed .lifecycle (finish .record)
  | history c => c.demand.embed .history (finish .history)
  | lookup c => c.demand.embed .lookup (finish .record)
  | wait c => (c.demand now).embed .wait (finish .waited)
  | query (.get id) => .find id (finish .stored)
  | query (.create r) => .create r (finish .stored)
  | query (.update old next) => .update old next (finish .stored)
  | query .ping => .ping (finish .checked)
  | query (.append id e) => .append id e (finish .checked)
  | query (.list id) => .list id (finish .listed)
  | query (.notify topic machine) =>
    .publish topic (Notifier.payload machine) fun a l =>
      (.done .nothing, Notifier.published machine topic a l)
  | publish _ [] => .proceed (finish .published (.ok ()))
  | publish topic [p] => .publish topic p (finish .published)
  | publish topic (p :: rest) =>
    .publish topic p fun _ l => (.publish topic rest, l)
  | pause d => .pause d (finish (fun _ => .nothing) ())
  | done a => .finished a

end Work

end ControlPlane.Simulation
