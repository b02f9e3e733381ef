/-
The bus on the key-value server. Every message is a key below one for its
topic, on a lease as long as messages live. Every subscription watches all
keys of its topic, so each one gets every message.

The receive loop of a subscription takes a turn (`turn`) whenever it can.
It looks at the changes of one response after the other, and keeps the
highest revision at which it saw a message put. When its watch breaks it
pauses and opens another one, which starts behind that revision. It
notices that it was cancelled only when it is about to receive, or while
it pauses.
-/
import ControlPlane.Bus.Dispatcher
import ControlPlane.Demand
import ControlPlane.Etcd.Server

namespace ControlPlane.Etcd

/-- An open watch, as it is on its way to the loop. -/
structure Watch where
  /-- The first revision of which it has yet to tell. -/
  next : Nat
  /-- If the server broke it: the last revision of which it still tells,
  and whether it ends with an error. -/
  cut : Option (Nat × Bool) := none
  deriving DecidableEq, Repr

/-- How an open watch goes on. -/
inductive News
  | changes (cs : List Change)
  | ended
  | failed
  deriving DecidableEq, Repr

/-- What a watch tells next, and the watch behind it; `none` while there
is nothing to tell. -/
def Watch.receive (w : Watch) (r : Range) (s : Server) :
    Option (News × Watch) :=
  let known := match w.cut with
    | some (last, _) =>
      (s.changesFrom r w.next).filter fun (c : Change) =>
        decide (c.revision ≤ last)
    | none => s.changesFrom r w.next
  match known.getLast?, w.cut with
  | some c, _ => some (.changes known, { w with next := c.revision + 1 })
  | none, some (_, true) => some (.failed, w)
  | none, some (_, false) => some (.ended, w)
  | none, none => none

/-- Where a receive loop stands. -/
inductive LoopState
  | watching (w : Watch)
  /-- The watch broke; nothing is done until then. -/
  | paused (till : Moment)
  /-- The next thing to do is to open a watch. -/
  | opening
  | ended
  deriving DecidableEq, Repr

/-- A running or ended subscription. -/
structure Subscriber where
  topic : String
  dispatcher : Dispatcher
  state : LoopState
  /-- What is left of the response that is being looked at. -/
  batch : List Change := []
  /-- The highest revision at which a message was seen put; zero if none
  was. -/
  last : Nat := 0
  /-- Its handle was dropped. -/
  cancelled : Bool := false
  deriving Repr

/-- The bus: how long messages live and broken watches rest, the names in
use, and all subscriptions that ever were. -/
structure Bus where
  /-- The seconds of a message's lease. -/
  leaseSecs : Int
  reconnectDelay : Duration
  names : List String := []
  subscribers : List Subscriber := []
  deriving Repr

namespace Subscriber

/-- The name of a subscription. -/
def name (s : Subscriber) : String := s.dispatcher.subscription

/-- Has the receive loop ended? -/
def hasEnded (s : Subscriber) : Bool := decide (s.state = .ended)

/-- The start of the watch that is opened when one broke: behind the last
message that was seen, if one was. -/
def resumeFrom (s : Subscriber) : Option Nat :=
  if 0 < s.last then some (s.last + 1) else none

/-- Looks at a change. A deletion says nothing. What was put is handed
over, if it is a message; it is seen in any case. -/
def look (s : Subscriber) (c : Change) (a : Ambient) : Subscriber × Ambient :=
  match c with
  | .delete _ _ => (s, a)
  | .put e =>
    let s := { s with last := max s.last e.modified }
    match Json.readAll Envelope.form.read e.value.toList with
    | .ok m =>
      let (dispatcher, a) := s.dispatcher.accept m a
      ({ s with dispatcher }, a)
    | .error _ => (s, a.say (.invalidMessage s.name "no message"))

end Subscriber

namespace Bus

variable {σ : Type}

/-- What the keys of all messages begin with. -/
def root : String := "/metal/bus/"

/-- What the keys of a topic's messages begin with. -/
def topicRoot (topic : String) : String := root ++ topic ++ "/"

/-- The key of a message. -/
def key (m : Envelope) : String := topicRoot m.topic ++ m.id.text

/-- The whole seconds of a life time, at least one, as a number of 64 bits. -/
def leaseOf (ttl : Duration) : Int := (Int64.ofNat (max ttl.secs 1)).toInt

/-- The bus that its settings ask for. -/
def ofSettings (s : BusSettings) : Bus :=
  { leaseSecs := leaseOf s.messageTtl, reconnectDelay := s.reconnectDelay }

/-- Publishes a payload. -/
def publish (b : Bus) (c : Client σ) (topic : String) (payload : Json) (s : σ)
    (a : Ambient) : Except BusError Unit × σ × Ambient :=
  let (id, a) := a.uuid
  let (now, a) := a.now
  let m : Envelope := ⟨id, topic, now, payload⟩
  match c.send (.grant b.leaseSecs) s with
  | (.error detail, s) => (.error (.etcd detail), s, a)
  | (.ok lease, s) =>
    match c.send (.put (key m) m.toJson.text lease) s with
    | (.error detail, s) => (.error (.etcd detail), s, a)
    | (.ok (), s) => (.ok (), s, a.say (.messagePublished topic id.text))

/-- Subscribes under a name that nobody uses; the number of the
subscription. Its first watch is open before anybody knows of it, so that
it misses nothing that is published behind it. -/
def subscribe (b : Bus) (c : Client σ) (topic name : String)
    (options : SubscriptionOptions) (s : σ) (a : Ambient) :
    Except BusError Nat × Bus × σ × Ambient :=
  if name ∈ b.names then (.error (.duplicateSubscription name), b, s, a)
  else
    match c.send (.watch (.under (topicRoot topic)) none) s with
    | (.error detail, s) => (.error (.etcd detail), b, s, a)
    | (.ok next, s) =>
      let x : Subscriber :=
        { topic
          dispatcher := { subscription := name, options, checkAge := false }
          state := .watching { next } }
      (.ok b.subscribers.length,
        { b with
          names := name :: b.names
          subscribers := b.subscribers ++ [x] },
        s,
        a.say (.watchStarted name (topicRoot topic)))

/-- Changes a subscription. -/
def modify (b : Bus) (i : Nat) (f : Subscriber → Subscriber) : Bus :=
  { b with subscribers := b.subscribers.modify i f }

/-- Drops the handle of a subscription. -/
def cancel (b : Bus) (i : Nat) : Bus :=
  b.modify i fun x => { x with cancelled := true }

/-- A delivery of a subscription has ended. -/
def finish (b : Bus) (i : Nat) : Bus :=
  b.modify i fun x => { x with dispatcher := x.dispatcher.finish }

/-- The receive loop of a subscription ends, and its name is free. -/
def close (b : Bus) (i : Nat) (x : Subscriber) (a : Ambient) : Bus × Ambient :=
  let b := b.modify i fun x => { x with state := .ended }
  ({ b with names := b.names.filter fun n => ! decide (n = x.name) },
    a.say (.subscriptionClosed x.name))

/-- The server breaks all open watches behind the changes that it has made. -/
def breakWatches (b : Bus) (s : Server) (withError : Bool) : Bus :=
  { b with
    subscribers := b.subscribers.map fun x =>
      match x.state with
      | .watching { next, cut := none } =>
        { x with state := .watching ⟨next, some (s.revision, withError)⟩ }
      | _ => x }

/-- A turn of a subscription's receive loop: the message whose delivery it
started, and the bus, the server and all else behind it. `none` if the
loop has to wait. `server` is the server of the state that requests go to. -/
def turn (b : Bus) (c : Client σ) (server : σ → Server) (i : Nat)
    (now : Moment) (s : σ) (a : Ambient) :
    Option (Option Envelope × Bus × σ × Ambient) :=
  match b.subscribers[i]? with
  | none => none
  | some x =>
    let pause (x : Subscriber) : Subscriber :=
      { x with state := .paused (now + b.reconnectDelay.nanos) }
    let close (_ : Unit) :=
      let (b, a) := b.close i x a
      some (none, b, s, a)
    if x.hasEnded then none
    else if x.dispatcher.waiting.isSome then
      match x.dispatcher.start with
      | some (m, dispatcher) =>
        some (some m, b.modify i fun x => { x with dispatcher }, s, a)
      | none => none
    else
      match x.batch with
      | change :: batch =>
        let (x, a) := { x with batch }.look change a
        some (none, b.modify i fun _ => x, s, a)
      | [] =>
        match x.state with
        | .ended => none
        | .watching w =>
          if x.cancelled then close ()
          else
            match w.receive (.under (topicRoot x.topic)) (server s) with
            | none => none
            | some (.changes batch, w) =>
              some (none,
                b.modify i fun x =>
                  { x with state := .watching w, batch }, s, a)
            | some (.ended, _) =>
              some (none, b.modify i pause, s, a.say (.watchEnded x.name))
            | some (.failed, _) =>
              some (none, b.modify i pause, s,
                a.say (.watchFailed x.name "watch broken"))
        | .paused till =>
          if x.cancelled then close ()
          else if till ≤ now then
            some (none, b.modify i fun x => { x with state := .opening }, s, a)
          else none
        | .opening =>
          match c.send
              (.watch (.under (topicRoot x.topic)) x.resumeFrom) s with
          | (.ok next, s) =>
            some (none,
              b.modify i fun x => { x with state := .watching { next } }, s, a)
          | (.error detail, s) =>
            some (none, b.modify i pause, s,
              a.say (.watchRefused x.name ("etcd error: " ++ detail)))

/-- Can the receive loop of a subscription take a turn? -/
def canTurn (b : Bus) (server : Server) (i : Nat) (now : Moment) : Bool :=
  match b.subscribers[i]? with
  | none => false
  | some x =>
    if x.hasEnded then false
    else if x.dispatcher.waiting.isSome then x.dispatcher.start.isSome
    else if ! x.batch.isEmpty then true
    else
      match x.state with
      | .ended => false
      | .watching w =>
        x.cancelled || (w.receive (.under (topicRoot x.topic)) server).isSome
      | .paused till => x.cancelled || till ≤ now
      | .opening => true

/-- The moment until which the receive loop of a subscription pauses, if
it does. -/
def pausedTill (b : Bus) (i : Nat) : Option Moment :=
  match b.subscribers[i]?.map Subscriber.state with
  | some (.paused till) => some till
  | _ => none

end Bus

end ControlPlane.Etcd
