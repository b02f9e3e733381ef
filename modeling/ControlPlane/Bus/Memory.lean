/-
The bus in memory. Every topic keeps the messages that were published
while it had subscribers, and every subscription has its own place in
them, so each one gets every message. Only the latest messages of a topic
can still be read: a subscription that has fallen further behind goes on
with the oldest of them.

The receive loop of a subscription takes a turn (`turn`) whenever it can.
It notices that it was cancelled only when it is about to receive.
-/
import ControlPlane.Bus.Dispatcher

namespace ControlPlane

/-- A running or ended subscription of the bus in memory. -/
structure Subscription where
  topic : String
  dispatcher : Dispatcher
  /-- The number of the message that comes next. -/
  cursor : Nat
  /-- Its handle was dropped. -/
  cancelled : Bool := false
  /-- Its receive loop has ended. -/
  ended : Bool := false
  deriving Repr

/-- The name of a subscription. -/
def Subscription.name (s : Subscription) : String := s.dispatcher.subscription

/-- Topics, the names in use, and all subscriptions that ever were. -/
structure MemoryBus where
  /-- How many messages of a topic can be read. -/
  capacity : Nat
  topics : Table String (Array Envelope) := .empty
  names : List String := []
  subscriptions : List Subscription := []
  deriving Repr, Inhabited

/-- What a subscription receives. -/
inductive Received
  | nothing
  | message (m : Envelope)
  /-- Messages were lost; the place of the oldest one left. -/
  | lagged (skipped next : Nat)
  deriving Repr

namespace MemoryBus

/-- The least power of two that is not below a number, looked for from `p`
on. -/
def roundUp : Nat → Nat → Nat → Nat
  | 0, p, _ => p
  | fuel + 1, p, n => if n ≤ p then p else roundUp fuel (2 * p) n

/-- The bus whose topics keep at least so many messages. -/
def withCapacity (n : Nat) : MemoryBus :=
  { capacity := roundUp 64 1 (max n 1) }

/-- The messages of a topic. -/
def messages (b : MemoryBus) (topic : String) : Array Envelope :=
  (b.topics.get? topic).getD #[]

/-- Does anybody receive a topic's messages? -/
def hasReceiver (b : MemoryBus) (topic : String) : Bool :=
  b.subscriptions.any fun s => s.topic = topic && ! s.ended

/-- Publishes a payload. Without subscribers the message is gone. -/
def publish (b : MemoryBus) (topic : String) (payload : Json) (a : Ambient) :
    MemoryBus × Ambient :=
  let (id, a) := a.uuid
  let (now, a) := a.now
  if b.hasReceiver topic then
    ({ b with
      topics := b.topics.set topic
        ((b.messages topic).push ⟨id, topic, now, payload⟩) }, a)
  else (b, a.say (.noSubscribers topic))

/-- Subscribes under a name that nobody uses; the number of the
subscription. -/
def subscribe (b : MemoryBus) (topic name : String)
    (options : SubscriptionOptions) : Except BusError Nat × MemoryBus :=
  if name ∈ b.names then (.error (.duplicateSubscription name), b)
  else
    let s : Subscription :=
      { topic
        dispatcher := { subscription := name, options, checkAge := true }
        cursor := (b.messages topic).size }
    (.ok b.subscriptions.length,
      { b with
        names := name :: b.names
        subscriptions := b.subscriptions ++ [s] })

/-- Changes a subscription. -/
def modify (b : MemoryBus) (i : Nat) (f : Subscription → Subscription) :
    MemoryBus :=
  { b with subscriptions := b.subscriptions.modify i f }

/-- Drops the handle of a subscription. -/
def cancel (b : MemoryBus) (i : Nat) : MemoryBus :=
  b.modify i fun s => { s with cancelled := true }

/-- What a subscription at `cursor` receives next. -/
def receive (b : MemoryBus) (topic : String) (cursor : Nat) : Received :=
  let ms := b.messages topic
  if cursor + b.capacity < ms.size then
    .lagged (ms.size - b.capacity - cursor) (ms.size - b.capacity)
  else
    match ms[cursor]? with
    | some m => .message m
    | none => .nothing

/-- A turn of a subscription's receive loop: the bus after it, and the
message whose delivery it started. `none` if the loop has to wait. -/
def turn (b : MemoryBus) (i : Nat) (a : Ambient) :
    Option (Option Envelope × MemoryBus × Ambient) :=
  match b.subscriptions[i]? with
  | none => none
  | some s =>
    if s.ended then none
    else if s.dispatcher.waiting.isSome then
      match s.dispatcher.start with
      | some (m, d) =>
        some (some m, b.modify i fun s => { s with dispatcher := d }, a)
      | none => none
    else if s.cancelled then
      let b := b.modify i fun s => { s with ended := true }
      some (none,
        { b with names := b.names.filter fun n => ! decide (n = s.name) },
        a.say (.subscriptionClosed s.name))
    else
      match b.receive s.topic s.cursor with
      | .nothing => none
      | .lagged skipped next =>
        some (none, b.modify i fun s => { s with cursor := next },
          a.say (.lagged s.name skipped))
      | .message m =>
        let (d, a) := s.dispatcher.accept m a
        some (none,
          b.modify i fun s =>
            { s with cursor := s.cursor + 1, dispatcher := d },
          a)

/-- Can the receive loop of a subscription take a turn? -/
def canTurn (b : MemoryBus) (i : Nat) : Bool :=
  match b.subscriptions[i]? with
  | none => false
  | some s =>
    if s.ended then false
    else if s.dispatcher.waiting.isSome then s.dispatcher.start.isSome
    else s.cancelled ||
      match b.receive s.topic s.cursor with
      | .nothing => false
      | _ => true

/-- A delivery of a subscription has ended. -/
def finish (b : MemoryBus) (i : Nat) : MemoryBus :=
  b.modify i fun s => { s with dispatcher := s.dispatcher.finish }

end MemoryBus

end ControlPlane
