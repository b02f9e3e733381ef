/-
The envelope that every message on the bus travels in.
-/
import ControlPlane.Machine.Json
import ControlPlane.Uuid

namespace ControlPlane

/-- A message on its way. -/
structure Envelope where
  id : Uuid
  topic : String
  publishedAt : Timestamp
  payload : Json
  deriving Repr

namespace Envelope

/-- The longest age that can be asked about, in nanoseconds; messages of a
longer one never expire. -/
def maxAge : Nat := 9223372036854775807 * 1000000

/-- Is the message older than `ttl` at `now`? -/
def isExpiredAt (m : Envelope) (ttl : Duration) (now : Timestamp) : Bool :=
  ttl.nanos ≤ maxAge && (ttl.nanos : Int) < now.sub m.publishedAt

/-- A message's JSON. -/
def toJson (m : Envelope) : Json :=
  .object [("id", .string m.id.text), ("topic", .string m.topic),
    ("published_at", m.publishedAt.toJson), ("payload", m.payload)]

/-- A message's fields. The payload may be any JSON, but must be there. -/
def form : Json.Form Envelope :=
  ((((Json.Form.required "id" (Json.Draft.parsed Uuid.parse?)).both
    (Json.Form.required "topic" Json.Draft.text)).both
    (Json.Form.required "published_at" Timestamp.read)).both
    (Json.Form.required "payload" (Json.Draft.value (Json.maxDepth - 1)))).map
    fun (((id, topic), publishedAt), payload) =>
      ⟨id, topic, publishedAt, payload⟩

end Envelope

end ControlPlane
