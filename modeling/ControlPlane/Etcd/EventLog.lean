/-
Histories on the key-value server. Every event is kept under a key of its
own, below one for its machine. The key goes on with the event's time in
nanoseconds, with zeros in front so that the order of keys is the order of
times, and ends in a fresh identifier, so that no event takes the place of
another.
-/
import ControlPlane.Error
import ControlPlane.Etcd.Server
import ControlPlane.Machine.Json
import ControlPlane.Uuid

namespace ControlPlane.Etcd.EventLog

variable {σ : Type}

/-- What the keys of all events begin with. -/
def root : String := "/metal/events/"

/-- What the keys of a machine's events begin with. -/
def machineRoot (id : String) : String := root ++ id ++ "/"

/-- Does a count of nanoseconds fit into 64 bits? -/
def inRange (n : Int) : Bool :=
  Int64.minValue.toInt ≤ n && n ≤ Int64.maxValue.toInt

/-- The nanoseconds from the start of 1970 to a point in time; zero if
they are too many. Before 1970 they are counted back from the second's
end, which must not be too far itself. -/
def stamp (t : Timestamp) : Int :=
  let (secs, nanos) :=
    if t.secs < 0 then (t.secs + 1, (t.nanos : Int) - 1000000000)
    else (t.secs, (t.nanos : Int))
  let whole := secs * 1000000000
  if inRange whole && inRange (whole + nanos) then whole + nanos else 0

/-- A number with zeros behind its sign, twenty characters long. -/
def padded (n : Int) : String :=
  let digits := toString n.natAbs
  let sign := if n < 0 then "-" else ""
  sign ++ String.ofList (List.replicate (20 - sign.length - digits.length) '0')
    ++ digits

/-- The key of an event, with the identifier that was drawn for it. -/
def key (id : String) (e : ProvisioningEvent) (u : Uuid) : String :=
  machineRoot id ++ padded (stamp e.time) ++ "-" ++ u.text

/-- Adds an event to a machine's history. -/
def append (c : Client σ) (id : String) (e : ProvisioningEvent) (u : Uuid)
    (s : σ) : Except StoreError Unit × σ :=
  match c.send (.put (key id e u) e.toJson.text 0) s with
  | (.error detail, s) => (.error (.etcd detail), s)
  | (.ok (), s) => (.ok (), s)

/-- The words in place of the reader's about a text that is no event. -/
def unreadable : StoreError := .serialization "no event"

/-- The events of a list of entries; none at all if one of them is no event. -/
def decode : List Entry → Except StoreError (List ProvisioningEvent)
  | [] => .ok []
  | e :: rest =>
    match Json.readAll ProvisioningEvent.form.read e.value.toList,
      decode rest with
    | .ok event, .ok events => .ok (event :: events)
    | .error _, _ => .error unreadable
    | .ok _, .error cause => .error cause

/-- A machine's history. -/
def list (c : Client σ) (id : String) (s : σ) :
    Except StoreError (List ProvisioningEvent) × σ :=
  match c.send (.range (.under (machineRoot id))) s with
  | (.error detail, s) => (.error (.etcd detail), s)
  | (.ok es, s) => (decode es, s)

end ControlPlane.Etcd.EventLog
