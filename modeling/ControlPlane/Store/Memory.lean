/-
The store in memory: records by machine, and one counter of revisions for
all of them. Every write takes the next revision, so a revision tells
which write a record comes from.
-/
import ControlPlane.Store.Basic
import ControlPlane.Table

namespace ControlPlane

/-- All records, and the latest revision. -/
structure MemoryStore where
  revision : Int := 0
  records : Table String Versioned := .empty
  /-- While this holds, every call but `put` fails. -/
  offline : Bool := false
  deriving Repr, Inhabited

namespace MemoryStore

/-- The cause of failures while the store is offline. -/
def offlineError : StoreError := .unavailable "memory store offline"

/-- Writes a record under a machine's id, at the next revision. -/
def write (s : MemoryStore) (id : String) (r : MachineRecord) :
    Versioned × MemoryStore :=
  let v : Versioned := ⟨r, s.revision + 1⟩
  (v, { s with revision := s.revision + 1, records := s.records.set id v })

/-- Writes a record whatever is stored. -/
def put (s : MemoryStore) (r : MachineRecord) : Versioned × MemoryStore :=
  s.write r.id r

/-- The latest version of a machine's record. -/
def find (s : MemoryStore) (id : String) : Except StoreError Versioned :=
  if s.offline then .error offlineError
  else
    match s.records.get? id with
    | some v => .ok v
    | none => .error (.notFound id)

/-- Writes the record of a machine that has none. -/
def create (s : MemoryStore) (r : MachineRecord) :
    Except StoreError Versioned × MemoryStore :=
  if s.offline then (.error offlineError, s)
  else if s.records.contains r.id then (.error (.conflict r.id), s)
  else
    let (v, s) := s.write r.id r
    (.ok v, s)

/-- Writes `next` if `old` is still the latest version of its machine's
record. -/
def update (s : MemoryStore) (old : Versioned) (next : MachineRecord) :
    Except StoreError Versioned × MemoryStore :=
  if s.offline then (.error offlineError, s)
  else
    match s.records.get? old.record.id with
    | none => (.error (.notFound old.record.id), s)
    | some v =>
      if v.revision = old.revision then
        let (v, s) := s.write old.record.id next
        (.ok v, s)
      else (.error (.conflict old.record.id), s)

/-- Can the store be asked? -/
def ping (s : MemoryStore) : Except StoreError Unit :=
  if s.offline then .error offlineError else .ok ()

end MemoryStore

/-- The histories of all machines, in memory. -/
structure MemoryEventLog where
  histories : Table String (List ProvisioningEvent) := .empty
  deriving Repr, Inhabited

namespace MemoryEventLog

/-- A machine's history. -/
def list (l : MemoryEventLog) (id : String) : List ProvisioningEvent :=
  (l.histories.get? id).getD []

/-- Adds an event to a machine's history. -/
def append (l : MemoryEventLog) (id : String) (e : ProvisioningEvent) :
    MemoryEventLog :=
  ⟨l.histories.set id (l.list id ++ [e])⟩

end MemoryEventLog

end ControlPlane
