/-
Telling replicas of allocations. After an allocation its machine's id is
published on the allocation topic. Every replica hears of every
allocation, and the one that holds the machine's signal fires it. A
publication that fails is only logged: the machine finds its allocation by
looking into the store.
-/
import ControlPlane.Machine.Json
import ControlPlane.Wake.Registry

namespace ControlPlane.Notifier

/-- The payload that tells of an allocation. -/
def payload (machine : String) : Json := (AllocationEvent.mk machine).toJson

/-- What is logged and counted once the bus has answered. -/
def published (machine topic : String) (answer : Except BusError Unit)
    (l : Local) : Local :=
  match answer with
  | .ok _ =>
    (l.say (.allocationPublished machine topic)).count
      (.notification "published")
  | .error e =>
    (l.say (.publishFailed machine topic e.message)).count
      (.notification "publish_failed")

/-- Fires the signal under the machine on this replica, and says whether
that woke anybody. -/
def wake (subscription machine : String) (l : Local) : Bool × Local :=
  let (woke, registry) := match l.registry.lookup machine with
    | some g => l.registry.fire g true
    | none => (false, l.registry)
  (woke,
    ({ l with registry }.say
      (.allocationDelivered machine subscription woke)).count
      (.notification (if woke then "woke" else "missed")))

/-- The text in place of the reader's words about a payload that tells of
no allocation. -/
def unreadable : BusError := .serialization "no allocation event"

/-- Handles a message of the allocation topic. -/
def handle (subscription : String) (payload : Json) (l : Local) :
    Except BusError Unit × Local :=
  match Json.decode? AllocationEvent.form.read payload with
  | some event => (.ok (), (wake subscription event.machineId l).2)
  | none => (.error unreadable, l)

end ControlPlane.Notifier
