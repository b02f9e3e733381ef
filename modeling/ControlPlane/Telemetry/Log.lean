/-
What the program says about its work, one function for each thing that is
said, so that every line has its level, its wording and its fields in one
place.
-/
import ControlPlane.Text.Json.Basic

namespace ControlPlane

/-- How much a log line matters. -/
inductive LogLevel
  | trace
  | debug
  | info
  | warn
  | error
  deriving DecidableEq, Repr, Inhabited

namespace LogLevel

/-- The name of a level. -/
def name : LogLevel → String
  | trace => "TRACE"
  | debug => "DEBUG"
  | info => "INFO"
  | warn => "WARN"
  | error => "ERROR"

/-- How grave a level is. -/
def rank : LogLevel → Nat
  | trace => 0
  | debug => 1
  | info => 2
  | warn => 3
  | error => 4

end LogLevel

/-- A line of the log. -/
structure LogLine where
  level : LogLevel
  message : String
  fields : List (String × Json) := []
  deriving Repr, Inhabited

namespace LogLine

/-- A line's members: its fields with its level and its wording. -/
def toJson (l : LogLine) : Json :=
  .object
    (l.fields ++ [("level", .string l.level.name),
      ("message", .string l.message)])

-- ============================================================= wait calls

/-- A wait call has begun. -/
def waitStarted (machine node : String) : LogLine :=
  ⟨.info, "Machine waiting for allocation",
    [("event_type", .string "wait_started"), ("machine_id", .string machine),
      ("node_id", .string node)]⟩

/-- A wait call has ended well. -/
def waitFinished (machine outcome : String) : LogLine :=
  ⟨.info, "Wait finished",
    [("event_type", .string "wait_finished"), ("machine_id", .string machine),
      ("outcome", .string outcome)]⟩

/-- A wait call was cancelled, which is nothing unusual. -/
def waitCancelled (machine : String) : LogLine :=
  ⟨.debug, "Wait cancelled",
    [("event_type", .string "wait_finished"), ("machine_id", .string machine),
      ("outcome", .string "cancelled")]⟩

/-- A wait call failed. -/
def waitFailed (machine error : String) : LogLine :=
  ⟨.warn, "Wait failed",
    [("event_type", .string "wait_finished"), ("machine_id", .string machine),
      ("outcome", .string "error"), ("error", .string error)]⟩

/-- A blocked call goes on without its signal. -/
def signalClosed (machine : String) : LogLine :=
  ⟨.debug, "Wake signal closed, polling only",
    [("machine_id", .string machine)]⟩

/-- A blocked call was woken only to look again. -/
def signalRecheck (machine : String) : LogLine :=
  ⟨.debug, "Wake signal without allocation, re-checking",
    [("machine_id", .string machine)]⟩

/-- A blocked call found the allocation on a tick. -/
def foundByPoll (machine : String) : LogLine :=
  ⟨.debug, "Allocation found by store poll", [("machine_id", .string machine)]⟩

/-- The waiting flag could not be cleared. -/
def clearFailed (machine error : String) : LogLine :=
  ⟨.warn, "Failed to clear waiting flag",
    [("machine_id", .string machine), ("error", .string error)]⟩

/-- A call has taken hold of a signal. -/
def signalRegistered (machine : String) (generation holders : Nat) : LogLine :=
  ⟨.trace, "Registered wake signal",
    [("machine_id", .string machine), ("generation", .ofNat generation),
      ("holders", .ofNat holders)]⟩

/-- A call has let go of its signal. -/
def signalReleased (machine : String) : LogLine :=
  ⟨.trace, "Released wake signal", [("machine_id", .string machine)]⟩

-- ============================================== notifications and the bus

/-- An allocation was published. -/
def allocationPublished (machine topic : String) : LogLine :=
  ⟨.debug, "Allocation event published",
    [("event_type", .string "allocation_published"),
      ("machine_id", .string machine), ("topic", .string topic)]⟩

/-- An allocation could not be published; waiting machines find it by
polling. -/
def publishFailed (machine topic error : String) : LogLine :=
  ⟨.warn,
    "Failed to publish allocation event, waiting machine relies on polling",
    [("event_type", .string "allocation_publish_failed"),
      ("machine_id", .string machine), ("topic", .string topic),
      ("error", .string error)]⟩

/-- News of an allocation reached this replica. -/
def allocationDelivered (machine subscription : String) (woke : Bool) :
    LogLine :=
  ⟨.debug, "Allocation event delivered",
    [("event_type", .string "allocation_delivered"),
      ("machine_id", .string machine),
      ("subscription", .string subscription), ("woke_waiter", .bool woke)]⟩

/-- This replica hears of allocations from now on. -/
def subscribed (topic subscription : String) : LogLine :=
  ⟨.info, "Subscribed to allocation events",
    [("topic", .string topic), ("subscription", .string subscription)]⟩

/-- This replica takes requests. -/
def replicaReady (subscription : String) : LogLine :=
  ⟨.info, "Replica ready", [("subscription", .string subscription)]⟩

/-- A message had nobody to go to. -/
def noSubscribers (topic : String) : LogLine :=
  ⟨.debug, "Published with no subscribers", [("topic", .string topic)]⟩

/-- A subscription has ended. -/
def subscriptionClosed (subscription : String) : LogLine :=
  ⟨.debug, "Subscription closed", [("subscription", .string subscription)]⟩

/-- A subscription fell too far behind. -/
def lagged (subscription : String) (skipped : Nat) : LogLine :=
  ⟨.warn, "Subscriber lagged, messages lost",
    [("subscription", .string subscription), ("skipped", .ofNat skipped)]⟩

/-- A message was too old to be delivered. -/
def expiredMessage (subscription message publishedAt : String) : LogLine :=
  ⟨.warn, "Dropping expired bus message",
    [("subscription", .string subscription), ("message_id", .string message),
      ("published_at", .string publishedAt)]⟩

/-- A delivery failed. -/
def handlerFailed (subscription message error : String) : LogLine :=
  ⟨.error, "Bus handler failed",
    [("event_type", .string "bus_handler_failed"),
      ("subscription", .string subscription),
      ("message_id", .string message), ("error", .string error)]⟩

-- =================================================== the key-value server

/-- A message was published. -/
def messagePublished (topic message : String) : LogLine :=
  ⟨.trace, "Published bus message",
    [("topic", .string topic), ("message_id", .string message)]⟩

/-- The first watch of a subscription is open. -/
def watchStarted (subscription root : String) : LogLine :=
  ⟨.info, "Started watching bus topic",
    [("subscription", .string subscription), ("prefix", .string root)]⟩

/-- A watch has ended. -/
def watchEnded (subscription : String) : LogLine :=
  ⟨.warn, "Bus watch stream ended, reconnecting",
    [("subscription", .string subscription)]⟩

/-- A watch has failed. -/
def watchFailed (subscription error : String) : LogLine :=
  ⟨.error, "Bus watch error, reconnecting",
    [("subscription", .string subscription), ("error", .string error)]⟩

/-- A watch could not be opened again. -/
def watchRefused (subscription error : String) : LogLine :=
  ⟨.warn, "Failed to re-establish bus watch",
    [("subscription", .string subscription), ("error", .string error)]⟩

/-- What was published is no message. -/
def invalidMessage (subscription error : String) : LogLine :=
  ⟨.warn, "Invalid bus message",
    [("subscription", .string subscription), ("error", .string error)]⟩

/-- Another writer came first. -/
def writeRejected (machine : String) : LogLine :=
  ⟨.debug, "Optimistic update rejected", [("machine_id", .string machine)]⟩

-- ======================================================== lifecycle calls

/-- A call lost against another writer and is attempted again. -/
def conflictRetry (operation : String) (attempt budget delayMillis : Nat) :
    LogLine :=
  ⟨.debug, "Concurrent modification, retrying",
    [("event_type", .string "conflict_retry"),
      ("operation", .string operation),
      ("attempt", .ofNat attempt), ("max_attempts", .ofNat budget),
      ("delay_ms", .ofNat delayMillis)]⟩

/-- A call had nothing to write. -/
def nothingToWrite (machine operation : String) : LogLine :=
  ⟨.debug, "No change to write",
    [("machine_id", .string machine), ("operation", .string operation)]⟩

/-- A machine has registered. -/
def machineRegistered (machine partition : String) (created : Bool) :
    LogLine :=
  ⟨.info, "Machine registered",
    [("event_type", .string "machine_registered"),
      ("machine_id", .string machine), ("partition", .string partition),
      ("created", .bool created)]⟩

/-- A machine has been given to a project. -/
def machineAllocated (machine project hostname : String) : LogLine :=
  ⟨.info, "Machine allocated",
    [("event_type", .string "machine_allocated"),
      ("machine_id", .string machine), ("project", .string project),
      ("hostname", .string hostname)]⟩

/-- A machine's history could not be added to. -/
def eventLost (machine kind error : String) : LogLine :=
  ⟨.warn, "Failed to record provisioning event",
    [("machine_id", .string machine), ("kind", .string kind),
      ("error", .string error)]⟩

-- =============================================================== requests

/-- A request failed through no fault of the client. -/
def requestFailed (error : String) : LogLine :=
  ⟨.warn, "Machine request failed", [("error", .string error)]⟩

/-- The store did not answer a probe well. -/
def probeFailed (error : String) : LogLine :=
  ⟨.warn, "store health check failed", [("error", .string error)]⟩

/-- The store did not answer a probe in time. -/
def probeTimedOut : LogLine := ⟨.warn, "store health check timed out", []⟩

end LogLine

end ControlPlane
