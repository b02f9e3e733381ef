/-
What a client is answered, and which status a call's end has.
-/
import ControlPlane.Error
import ControlPlane.Machine.Json
import ControlPlane.Telemetry.Ambient
import ControlPlane.Version

namespace ControlPlane.Http

/-- The body of a response. -/
inductive Body
  | empty
  | text (s : String)
  | json (j : Json)
  deriving Repr

/-- The text of a body. -/
def Body.content : Body → String
  | empty => ""
  | text s => s
  | json j => j.text

/-- A response: its status, the headers that matter, and its body. -/
structure Response where
  status : Nat
  contentType : Option String := none
  allow : Option String := none
  cacheControl : Option String := none
  body : Body := .empty
  deriving Repr

namespace Response

/-- A text. -/
def ofText (status : Nat) (s : String) : Response :=
  { status, contentType := some "text/plain; charset=utf-8", body := .text s }

/-- A value. -/
def ofJson (j : Json) : Response :=
  { status := 200, contentType := some "application/json", body := .json j }

/-- A status and nothing else. -/
def bare (status : Nat) : Response := { status }

/-- No such place. -/
def notFound : Response := bare 404

/-- The method is not one of those that are allowed. -/
def notAllowed (allow : String) : Response :=
  { status := 405, allow := some allow }

/-- The head of a stream of events. -/
def streamHead : Response :=
  { status := 200, contentType := some "text/event-stream",
    cacheControl := some "no-cache" }

/-- The response to the same request made only for its head. -/
def withoutBody (r : Response) : Response := { r with body := .empty }

end Response

/-- The status that tells a client what to do about an error. -/
def errorStatus : ServiceError → Nat
  | .notFound _ => 404
  | .alreadyAllocated _ => 409
  | .notAllocated _ => 409
  | .store e => if e.isConflict then 409 else 503

/-- The response to a failed call; the log tells of those that are no
fault of the client. -/
def reject (e : ServiceError) (a : Ambient) : Response × Ambient :=
  (.ofText (errorStatus e) e.message,
    if 500 ≤ errorStatus e then a.say (.requestFailed e.message) else a)

/-- The response to a call on a record. -/
def answerRecord (result : Except ServiceError MachineRecord) (a : Ambient) :
    Response × Ambient :=
  match result with
  | .ok r => (.ofJson r.toJson, a)
  | .error e => reject e a

/-- The response to a call for a machine's history. -/
def answerHistory (machine : String)
    (result : Except ServiceError (List ProvisioningEvent)) (a : Ambient) :
    Response × Ambient :=
  match result with
  | .ok events =>
    (.ofJson (.object [("machine_id", .string machine),
      ("events", .array (events.map ProvisioningEvent.toJson))]), a)
  | .error e => reject e a

/-- The response to a probe of the store; `none` if the store did not
answer in time. -/
def answerProbe (result : Option (Except StoreError Unit)) (a : Ambient) :
    Response × Ambient :=
  match result with
  | some (.ok _) => (.ofText 200 "OK", a)
  | some (.error e) => (.bare 503, a.say (.probeFailed e.message))
  | none => (.bare 408, a.say .probeTimedOut)

/-- How long a probe of the store may take. -/
def probeTimeout : Duration := .ofSecs 2

/-- Is the replica ready? -/
def answerReadiness (ready : Bool) : Response :=
  if ready then .ofText 200 "READY" else .bare 503

/-- What the build and the replica say about themselves. -/
def answerVersion (b : Build) (node : String) : Response :=
  .ofJson (.object
    [("version", .string b.version), ("git_sha", .string b.commit),
    ("git_branch", .string b.branch), ("built", .string b.built),
    ("rustc", .string b.compiler), ("wait_protocol", .ofUInt32 waitProtocol),
    ("node_id", .string node)])

/-- The exposition of the metrics, if there are any. -/
def answerMetrics (lines : Option (List String)) : Response :=
  match lines with
  | some ls => .ofText 200 (String.join (ls.map (· ++ "\n")))
  | none => .ofText 503 "Metrics not initialized"

end ControlPlane.Http
