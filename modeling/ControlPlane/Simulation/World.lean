/-
The simulated world: several replicas over shared backends, with all their
tasks, in virtual time. Time is counted in whole milliseconds and stands
still while any task can run. A task that cannot go on waits for
conditions, each of which is a question to the world, with a number that
says since when it has been waiting for it: of tasks that become ready
together the longest waiting one runs first.
-/
import ControlPlane.Bus.Memory
import ControlPlane.Etcd.Bus
import ControlPlane.Etcd.EventLog
import ControlPlane.Etcd.MachineStore
import ControlPlane.Simulation.Cluster
import ControlPlane.Simulation.Fault
import ControlPlane.Simulation.Work
import ControlPlane.Store.Memory

namespace ControlPlane.Simulation

/-- A replica. -/
structure Replica where
  node : String
  ready : Bool := false
  registry : Registry := {}
  /-- The token that ends all wait streams of the replica. -/
  shutdown : Nat
  /-- The name under which the replica itself subscribes. -/
  subscription : String
  /-- The name under which its second notifier subscribes. -/
  ownSubscription : String
  deriving Inhabited

/-- A cancellation, which may have come by itself or with its parent. -/
structure Token where
  fired : Bool := false
  parent : Option Nat := none
  deriving Repr, Inhabited

/-- What a task can wait for. -/
inductive Condition
  | due (time : Nat)
  | cancelled (token : Nat)
  | woken (replica : Nat) (r : Registration)
  /-- A place in a stream, or its end. -/
  | room (stream : Nat)
  /-- An event of a stream, or its end. -/
  | news (stream : Nat)
  /-- A turn of a subscription's receive loop. -/
  | turn (subscription : Nat)
  /-- The end of a subscription's receive loop. -/
  | ended (subscription : Nat)
  deriving DecidableEq, Repr

/-- Where the keep-alives of a wait call go. -/
inductive Sink
  | none
  /-- A counter that takes its time and may fail after some. -/
  | counter (i : Nat) (delay : Nat) (failAfter : Option Nat)
    (failure : WaitError)
  | stream (i : Nat)

/-- What a task's demand waits for, beside the conditions that are asked
anew each time. -/
inductive Phase
  | idle
  /-- A call to a backend is held up. -/
  | held (time : Nat) (m : Misbehaviour)
  | paused (time : Nat)
  /-- A keep-alive waits until then at most. -/
  | sending (time : Nat)

/-- What is done with the answer of a task's work. -/
inductive Finish
  /-- It is kept, for the script. -/
  | keep
  /-- It is listed among the ended background tasks. -/
  | listed (name : String)
  /-- It is the last event of a stream. -/
  | stream (i : Nat) (machine : String)

/-- How the answer of a task's work becomes a response, if it does. -/
structure Respond where
  machine : String
  headOnly : Bool

/-- A call that a task carries out. -/
structure Running where
  replica : Nat
  work : Work
  phase : Phase := .idle
  /-- When the call is given up. -/
  deadline : Option Nat := none
  token : Option Nat := none
  sink : Sink := .none
  respond : Option Respond := none
  finish : Finish := .keep

/-- How a subscription's handler behaves. -/
inductive Handler
  /-- It fires signals of a replica. -/
  | notifier (replica : Nat)
  /-- It takes its time and records the delivery, unless `mode` or the
  payload has it end before. -/
  | scripted (mode : String) (delay : Nat)
  deriving Repr, Inhabited

/-- A delivery of a message. -/
structure Delivery where
  subscription : Nat
  message : Envelope
  /-- When the handler goes on; `none` before it has begun. -/
  resume : Option Nat := none
  /-- When the delivery has failed. -/
  deadline : Nat := 0
  /-- A slow handler has taken its hour. -/
  rested : Bool := false

/-- A wait call whose events become the body of a response. -/
structure StreamOpening where
  replica : Nat
  call : Wait.Call
  deadline : Option Duration
  /-- The client asked for the head only, and drops the body at once. -/
  headOnly : Bool := false
  finish : Finish := .keep

/-- An open stream: its channel, and the token that ends its call. -/
structure OpenStream where
  channel : Nat
  token : Nat

/-- What a task is. -/
inductive Job
  | call (r : Running)
  | opening (o : StreamOpening)
  /-- Reads a stream to its end; `text` was read so far. -/
  | reading (stream : OpenStream) (text : String) (finish : Finish)
  | loop (subscription : Nat)
  | delivery (d : Delivery)
  /-- Waits for room for the last event of a stream. -/
  | last (stream : Nat) (event : Http.StreamEvent)
  /-- Waits for the end of a receive loop. -/
  | closing (subscription : Nat)
  | over (a : Answer)

/-- A task, and what it waits for since when. -/
structure Task where
  job : Job
  waits : List (Condition × Nat) := []

/-- A subscription to be made. -/
structure Subscribing where
  topic : String
  name : String
  options : SubscriptionOptions
  handler : Handler

/-- Where the replicas keep what they share. -/
inductive Backing
  | memory
  | etcd
  deriving DecidableEq, Repr, Inhabited

/-- The world. -/
structure World where
  time : Nat := 0
  ambient : Ambient
  backing : Backing := .memory
  store : MemoryStore := {}
  events : MemoryEventLog := {}
  bus : MemoryBus := .withCapacity 1024
  cluster : Cluster := {}
  etcdBus : Etcd.Bus := .ofSettings {}
  wait : WaitSettings := .standard
  retry : RetrySettings := {}
  busSettings : BusSettings := {}
  hasMetrics : Bool := true
  build : Build
  replicas : List Replica := []
  tokens : List Token := []
  plans : List FaultPlan := []
  /-- The handlers of all subscriptions, by number. -/
  handlers : List Handler := []
  channels : List Http.Channel := []
  /-- All tasks that were ever started; one that has ended is `none`. -/
  tasks : Array (Option Task) := #[]
  /-- The tasks that can run, in order. -/
  queue : List Nat := []
  /-- The number of the next wait for a condition. -/
  seq : Nat := 0
  /-- The tasks that the script waits for, in order. -/
  main : List Task := []
  /-- Ended background tasks and waits: when, name, answer; the latest
  first. -/
  done : List (Nat × String × Answer) := []
  /-- Recorded deliveries: when, subscription, payload; the latest first. -/
  delivered : List (Nat × String × Json) := []
  /-- Keep-alives sent, by the numbers of all waits that were ever started. -/
  counters : List Nat := []
  /-- The number of the latest wait of a name. -/
  waitNumbers : Table String Nat := .empty

namespace World

/-- The moment of the current time. -/
def moment (w : World) : Moment := w.time * 1000000

/-- The replica of a number. -/
def replica (w : World) (i : Nat) : Replica := w.replicas.getD i default

/-- Changes a replica. -/
def modifyReplica (w : World) (i : Nat) (f : Replica → Replica) : World :=
  { w with replicas := w.replicas.modify i f }

/-- Takes a step on a replica. -/
def move {κ : Type} (w : World) (i : Nat) (k : Move κ) : κ × World :=
  let (c, l) := k ⟨(w.replica i).registry, w.ambient⟩
  (c,
    { (w.modifyReplica i fun r => { r with registry := l.registry }) with
      ambient := l.ambient })

/-- Changes what is around a replica. -/
def adjust (w : World) (i : Nat) (k : Local → Local) : World :=
  (w.move i fun l => ((), k l)).2

/-- Adds a line to the log. -/
def say (w : World) (l : LogLine) : World :=
  { w with ambient := w.ambient.say l }

/-- Has a cancellation come? -/
def isCancelled (w : World) (token : Nat) : Bool :=
  match w.tokens[token]? with
  | some t =>
    t.fired || match t.parent with
      | some p => (w.tokens.getD p {}).fired
      | none => false
  | none => false

/-- A new token. -/
def newToken (w : World) (t : Token) : Nat × World :=
  (w.tokens.length, { w with tokens := w.tokens ++ [t] })

/-- Cancels. -/
def cancel (w : World) (token : Nat) : World :=
  { w with tokens := w.tokens.modify token fun t => { t with fired := true } }

/-- A stream's channel. -/
def channel (w : World) (i : Nat) : Http.Channel := w.channels.getD i {}

/-- Replaces a stream's channel. -/
def setChannel (w : World) (i : Nat) (c : Http.Channel) : World :=
  { w with channels := w.channels.set i c }

/-- The dispatcher of a subscription. -/
def dispatcher (w : World) (i : Nat) : Option Dispatcher :=
  match w.backing with
  | .memory => w.bus.subscriptions[i]?.map Subscription.dispatcher
  | .etcd => w.etcdBus.subscribers[i]?.map Etcd.Subscriber.dispatcher

/-- Has a subscription's receive loop ended? -/
def loopEnded (w : World) (i : Nat) : Bool :=
  match w.backing with
  | .memory => (w.bus.subscriptions[i]?.map Subscription.ended).getD true
  | .etcd => (w.etcdBus.subscribers[i]?.map Etcd.Subscriber.hasEnded).getD true

/-- Can a subscription's receive loop take a turn? -/
def canTurn (w : World) (i : Nat) : Bool :=
  match w.backing with
  | .memory => w.bus.canTurn i
  | .etcd => w.etcdBus.canTurn w.cluster.server i w.moment

/-- A turn of a subscription's receive loop, and the message whose
delivery it started. -/
def turn (w : World) (i : Nat) : Option (Option Envelope × World) :=
  match w.backing with
  | .memory =>
    (w.bus.turn i w.ambient).map fun (m, bus, ambient) =>
      (m, { w with bus, ambient })
  | .etcd =>
    (w.etcdBus.turn Cluster.client Cluster.server i w.moment w.cluster
      w.ambient).map
      fun (m, etcdBus, cluster, ambient) =>
        (m, { w with etcdBus, cluster, ambient })

/-- What a subscription's receive loop waits for. -/
def loopWaits (w : World) (i : Nat) : List Condition :=
  match w.backing with
  | .memory => [.turn i]
  | .etcd =>
    .turn i ::
      ((w.etcdBus.pausedTill i).map fun till =>
        .due (Duration.mk till).millisUp).toList

/-- A delivery of a subscription has ended. -/
def finishDelivery (w : World) (i : Nat) : World :=
  match w.backing with
  | .memory => { w with bus := w.bus.finish i }
  | .etcd => { w with etcdBus := w.etcdBus.finish i }

/-- Drops the handle of a subscription. -/
def dropSubscription (w : World) (i : Nat) : World :=
  match w.backing with
  | .memory => { w with bus := w.bus.cancel i }
  | .etcd => { w with etcdBus := w.etcdBus.cancel i }

/-- Does a condition hold? -/
def holds (w : World) : Condition → Bool
  | .due t => t ≤ w.time
  | .cancelled token => w.isCancelled token
  | .woken i r => (w.replica i).registry.isWoken r
  | .room i => (w.channel i).isDecided
  | .news i => (w.channel i).hasNews
  | .turn i => w.canTurn i
  | .ended i => w.loopEnded i

/-- Starts a task. -/
def spawn (w : World) (j : Job) : Nat × World :=
  let n := w.tasks.size
  (n, { w with tasks := w.tasks.push (some ⟨j, []⟩), queue := w.queue ++ [n] })

/-- A new counter for the keep-alives of a wait. -/
def newCounter (w : World) (name : String) : Nat × World :=
  let n := w.counters.length
  (n,
    { w with
      counters := w.counters ++ [0]
      waitNumbers := w.waitNumbers.set name n })

/-- How many keep-alives were sent, by the names of waits. -/
def keepalives (w : World) : List (String × Nat) :=
  w.waitNumbers.entries.map fun (name, n) => (name, w.counters.getD n 0)

/-- Starts a wait call whose events go into a stream, which ends with the
replica at the latest. -/
def openStream (w : World) (o : StreamOpening) : OpenStream × World :=
  let (token, w) :=
    w.newToken { parent := some (w.replica o.replica).shutdown }
  let channel := w.channels.length
  let (_, w) :=
    { w with channels := w.channels ++ [({} : Http.Channel)] }.spawn (.call
      { replica := o.replica, work := .wait o.call
        deadline := o.deadline.map fun (d : Duration) => w.time + d.millisUp
        token := some token, sink := .stream channel
        finish := .stream channel o.call.machine })
  (⟨channel, token⟩, w)

/-- Drops a stream: its client is gone. -/
def dropStream (w : World) (h : OpenStream) : World :=
  (w.setChannel h.channel { w.channel h.channel with dropped := true }).cancel
    h.token

/-- Ends a task from outside. -/
def kill (w : World) (i : Nat) : World :=
  { w with tasks := w.tasks.set! i none, queue := w.queue.filter (· ≠ i) }

/-- The gauge of blocked wait calls over all replicas, if any was ever set. -/
def streams (w : World) : Option Int :=
  w.replicas.foldl (fun total r =>
    match r.registry.streams with
    | some n => some (total.getD 0 + n)
    | none => total) none

/-- The lines of the metrics' exposition. -/
def metricLines (w : World) : List String := w.ambient.metrics.lines w.streams

/-- Subscribes and starts the receive loop. -/
def subscribe (w : World) (s : Subscribing) : Except BusError Nat × World :=
  let (answer, w) := match w.backing with
    | .memory =>
      let (answer, bus) := w.bus.subscribe s.topic s.name s.options
      (answer, { w with bus })
    | .etcd =>
      let (answer, etcdBus, cluster, ambient) :=
        w.etcdBus.subscribe Cluster.client s.topic s.name s.options w.cluster
          w.ambient
      (answer, { w with etcdBus, cluster, ambient })
  match answer with
  | .error e => (.error e, w)
  | .ok i =>
    let (_, w) :=
      { w with handlers := w.handlers ++ [s.handler] }.spawn (.loop i)
    (.ok i, w)

end World

end ControlPlane.Simulation
