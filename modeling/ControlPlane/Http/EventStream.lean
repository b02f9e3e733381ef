/-
Streams of events. A wait stream sends keep-alives and one last event. A
few events are kept between the call and the client; a keep-alive that
finds no room for too long tells that the client is gone.
-/
import ControlPlane.Text.Json.Printer
import ControlPlane.Wait.Call

namespace ControlPlane.Http

/-- An event of a wait stream. -/
inductive StreamEvent
  | keepalive
  | allocated (machine : String) (outcome : Wait.Outcome)
  | failed (e : WaitError)
  deriving DecidableEq, Repr

namespace StreamEvent

/-- The last event of a stream whose call ended so. -/
def final (machine : String) : Except WaitError Wait.Outcome → StreamEvent
  | .ok outcome => allocated machine outcome
  | .error e => failed e

/-- The name of an event. -/
def name : StreamEvent → String
  | keepalive => "keepalive"
  | allocated _ _ => "allocated"
  | failed _ => "error"

/-- The data of an event, members in the order of their keys. -/
def data : StreamEvent → Json
  | keepalive => .object []
  | allocated machine outcome =>
    .object [("machine_id", .string machine),
      ("outcome", .string outcome.name)]
  | failed e =>
    .object [("code", .string e.code), ("message", .string e.message)]

/-- The text of an event. -/
def text (e : StreamEvent) : String :=
  "event: " ++ e.name ++ "\ndata: " ++ e.data.text ++ "\n\n"

end StreamEvent

/-- How many events are kept between a call and its client. -/
def streamBuffer : Nat := 8

/-- How long a keep-alive may wait for room. -/
def sendTimeout : Duration := .ofSecs 10

/-- The events between a call and its client. -/
structure Channel where
  buffer : List StreamEvent := []
  /-- The client is gone. -/
  dropped : Bool := false
  /-- The call will send no more. -/
  finished : Bool := false
  deriving Repr, Inhabited

/-- What becomes of an event that is to be sent. -/
inductive Sent
  | queued (c : Channel)
  | full
  | gone
  deriving Repr

namespace Channel

/-- Sends an event, if there is room and a client. -/
def send (c : Channel) (e : StreamEvent) : Sent :=
  if c.dropped then .gone
  else if c.buffer.length < streamBuffer then
    .queued { c with buffer := c.buffer ++ [e] }
  else .full

/-- Takes all events that are there. -/
def drain (c : Channel) : List StreamEvent × Channel :=
  (c.buffer, { c with buffer := [] })

/-- Would sending be decided now? -/
def isDecided (c : Channel) : Bool :=
  c.dropped || c.buffer.length < streamBuffer

/-- Is there anything to take, or nothing more to come? -/
def hasNews (c : Channel) : Bool := ! c.buffer.isEmpty || c.finished

end Channel

/-- How a keep-alive fails whose client is gone. -/
def goneError : WaitError := .transport "channel closed"

/-- How a keep-alive fails that found no room. -/
def stalledError : WaitError :=
  .transport "timed out waiting on send operation"

end ControlPlane.Http
