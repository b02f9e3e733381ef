/-
The causes for which the layers fail, one type for each layer, with their
wording and the ways in which a cause of one layer becomes one of another.
-/

namespace ControlPlane

/-- Why a call to the machine store or to a machine's history failed. -/
inductive StoreError
  | notFound (id : String)
  /-- The record changed after it was read, or exists already. -/
  | conflict (id : String)
  | unavailable (detail : String)
  /-- The key-value server could not be asked, or refused. -/
  | etcd (detail : String)
  /-- What is stored is no record. -/
  | serialization (detail : String)
  deriving DecidableEq, Repr

/-- Why a call to the bus failed. -/
inductive BusError
  | duplicateSubscription (name : String)
  | etcd (detail : String)
  | serialization (detail : String)
  deriving DecidableEq, Repr

/-- Why a wait call could not be registered. -/
inductive RegistryError
  /-- The signal was closed while a wait call holds it. -/
  | closed (id : String)
  deriving DecidableEq, Repr

/-- Why a wait call was cancelled. -/
inductive CancelCause
  | disconnected
  | deadlineExceeded
  deriving DecidableEq, Repr

/-- How a wait call fails. -/
inductive WaitError
  | notFound (id : String)
  | cancelled (cause : CancelCause)
  | transport (detail : String)
  /-- The record moved while the call was entering; the client should come
  again. -/
  | aborted (id : String)
  | store (cause : StoreError)
  | internal (detail : String)
  deriving DecidableEq, Repr

/-- How a lifecycle call fails. -/
inductive ServiceError
  | notFound (id : String)
  | alreadyAllocated (id : String)
  | notAllocated (id : String)
  | store (cause : StoreError)
  deriving DecidableEq, Repr

namespace StoreError

/-- The wording of a cause. -/
def message : StoreError → String
  | notFound id => "machine " ++ id ++ " not found"
  | conflict id => "machine " ++ id ++ " was modified concurrently"
  | unavailable detail => "store unavailable: " ++ detail
  | etcd detail => "etcd error: " ++ detail
  | serialization detail =>
    "failed to (de)serialize machine record: " ++ detail

/-- Did another writer come first? Only this cause is worth another
attempt. -/
def isConflict : StoreError → Bool
  | conflict _ => true
  | _ => false

/-- Is the machine unknown? -/
def isNotFound : StoreError → Bool
  | notFound _ => true
  | _ => false

end StoreError

/-- The wording of a cause. -/
def BusError.message : BusError → String
  | duplicateSubscription name =>
    "subscription " ++ name ++ " already exists on this bus"
  | etcd detail => "etcd error: " ++ detail
  | serialization detail => "failed to (de)serialize bus message: " ++ detail

/-- The wording of a cause. -/
def RegistryError.message : RegistryError → String
  | closed id =>
    "wait signal for machine " ++ id ++ " was closed under a live stream"

/-- The name of a cause. -/
def CancelCause.name : CancelCause → String
  | disconnected => "disconnected"
  | deadlineExceeded => "deadline_exceeded"

namespace WaitError

/-- The wording of a cause. -/
def message : WaitError → String
  | notFound id => "machine " ++ id ++ " not found"
  | cancelled cause => "wait cancelled: " ++ cause.name
  | transport detail => "stream send failed: " ++ detail
  | aborted id => "machine " ++ id ++ " changed while entering wait, reconnect"
  | store cause => "store error: " ++ cause.message
  | internal detail => "internal error: " ++ detail

/-- The stable code that a stream's last event carries. -/
def code : WaitError → String
  | notFound _ => "not_found"
  | cancelled _ => "cancelled"
  | transport _ => "unavailable"
  | store _ => "unavailable"
  | aborted _ => "aborted"
  | internal _ => "internal"

/-- A store's cause as a wait call's. -/
def ofStore : StoreError → WaitError
  | .notFound id => notFound id
  | .conflict id => aborted id
  | cause => store cause

/-- A registry's cause as a wait call's. -/
def ofRegistry (cause : RegistryError) : WaitError := internal cause.message

end WaitError

namespace ServiceError

/-- The wording of a cause. -/
def message : ServiceError → String
  | notFound id => "machine " ++ id ++ " not found"
  | alreadyAllocated id => "machine " ++ id ++ " is already allocated"
  | notAllocated id => "machine " ++ id ++ " is not allocated"
  | store cause => cause.message

/-- A store's cause as a lifecycle call's. -/
def ofStore : StoreError → ServiceError
  | .notFound id => notFound id
  | cause => store cause

/-- Did another writer come first? -/
def isConflict : ServiceError → Bool
  | store cause => cause.isConflict
  | _ => false

end ServiceError

end ControlPlane
