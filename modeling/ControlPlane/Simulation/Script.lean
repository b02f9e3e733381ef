/-
What can be done to a simulated world from outside, step by step: asking
its replicas, starting and ending waits, holding signals, subscribing,
planning faults. A step begins when the one before has ended, and ends
when nothing can run any more without time passing. Names stand for what
earlier steps made.
-/
import ControlPlane.Http.Route
import ControlPlane.Simulation.Scheduler

namespace ControlPlane.Simulation

/-- A version that an earlier step remembered, or one that is spelled out. -/
inductive Source
  | remembered (name : String)
  | given (v : Versioned)

/-- What a replica is asked. -/
inductive Ask
  | query (q : Query)
  /-- Writes the patched record over an old version. -/
  | update (old : Source) (patch : Json)
  | find (id : String)
  | history (id : String)
  | operation (id : String) (op : Operation)
  | notify (id : String)
  | publish (topic : String) (payloads : List Json)
  | http (r : Http.Request)
  | sleep (ms : Nat)
  /-- Cannot be asked; `what` says why. -/
  | refused (a : Answer)

/-- A question to a replica, and the name under which a version that it
answers is remembered. -/
structure Asking where
  replica : Nat
  ask : Ask
  as : Option String := none

/-- A wait to be started. -/
structure WaitStart where
  name : String
  replica : Nat
  machine : String
  deadline : Option Nat
  cancelled : Bool
  failAfter : Option Nat
  failure : WaitError
  delay : Nat

/-- A signal by the name of a look-up, or the one under a machine. -/
inductive SignalRef
  | named (name : String)
  | current (replica : Nat) (machine : String)

/-- A step. -/
inductive Step
  | idle
  | put (record : MachineRecord)
  | outage (on : Bool)
  | inject (plan : FaultPlan)
  | ask (a : Asking)
  | background (name : String) (a : Asking)
  | together (as : List Asking)
  | wait (w : WaitStart)
  | cancel (name : String)
  | kill (name : String)
  | enter (name : String) (replica : Nat) (machine : String)
  | leave (name : String)
  | woken (name : String)
  | lookup (r : SignalRef) (name : Option String)
  | close (r : SignalRef)
  | fire (r : SignalRef) (allocated : Bool)
  | sameSignal (x y : String)
  | remove (replica : Nat) (machine : String)
  | handleAllocation (replica : Nat) (machine : String)
  | subscribe (name : String) (s : Subscribing)
  /-- Subscribes a replica to allocations: itself, or its second notifier. -/
  | listen (name : String) (replica : Nat) (own : Bool)
  | unsubscribe (name : String) (drop : Bool)
  | setReady (replica : Nat) (ready : Bool)
  | shutdown (replica : Nat)
  | metrics
  | openStream (name : String) (replica : Nat) (r : Http.Request)
  | readStream (name : String)
  | dropStream (name : String)
  /-- Somebody else writes a key. -/
  | writeKey (key value : String)
  /-- Somebody else deletes a key. -/
  | deleteKey (key : String)
  /-- All keys of the key-value server. -/
  | allKeys
  /-- The requests that the key-value server has received since they were
  last asked for. -/
  | requests
  | planServer (plan : ServerPlan)
  /-- The key-value server breaks all watches. -/
  | breakWatches (withError : Bool)

/-- A started wait: its task and its token. -/
structure WaitHandle where
  task : Nat
  token : Nat

/-- The body of a response that was kept under a name. -/
inductive Kept
  | stream (h : OpenStream)
  /-- All of it is there; this was not read yet. -/
  | text (rest : String)

/-- A world, and what the names of a script stand for. -/
structure Session where
  world : World
  versions : Table String Versioned := .empty
  waits : Table String WaitHandle := .empty
  registrations : Table String (Nat × Registration) := .empty
  signals : Table String (Nat × Nat) := .empty
  subscriptions : Table String Nat := .empty
  streams : Table String Kept := .empty

namespace Session

/-- The call of an operation on a machine. -/
def lifecycle (s : Session) (machine : String) (op : Operation) : Work :=
  .lifecycle
    (.start s.world.retry s.world.busSettings.allocationTopic machine op)

/-- A wait call on a replica. -/
def waitCall (s : Session) (replica : Nat) (machine : String) : Wait.Call :=
  { machine, node := (s.world.replica replica).node
    settings := s.world.wait, retry := s.world.retry }

/-- The task of a request. -/
def httpJob (s : Session) (replica : Nat) (r : Http.Request) : Job :=
  let headOnly : Bool := decide (r.method = "HEAD")
  let reply (x : Http.Response) : Job :=
    .over (.response (if headOnly then x.withoutBody else x))
  let call (machine : String) (work : Work) : Job :=
    .call { replica, work, respond := some ⟨machine, headOnly⟩ }
  match r.plan with
  | .reply x => reply x
  | .probe =>
    .call { replica, work := .query .ping, respond := some ⟨"", headOnly⟩
            deadline := some (s.world.time + Http.probeTimeout.millisUp) }
  | .readiness => reply (Http.answerReadiness (s.world.replica replica).ready)
  | .version =>
    reply (Http.answerVersion s.world.build (s.world.replica replica).node)
  | .metrics =>
    reply (Http.answerMetrics
      (if s.world.hasMetrics then some s.world.metricLines else none))
  | .lookup machine => call machine (.lookup (.reading machine))
  | .history machine => call machine (.history (.reading machine))
  | .call machine op => call machine (s.lifecycle machine op)
  | .wait machine deadline =>
    .opening
      { replica, call := s.waitCall replica machine, deadline, headOnly }

/-- The record that a patch makes of another one. -/
def patched (r : MachineRecord) (patch : Json) : Option MachineRecord :=
  Json.decode? MachineRecord.form.read (r.toJson.sorted.mergePatch patch)

/-- The task of a question. -/
def job (s : Session) (a : Asking) : Job :=
  let call (work : Work) : Job := .call { replica := a.replica, work }
  match a.ask with
  | .query q => call (.query q)
  | .update old patch =>
    let version := match old with
      | .remembered name => s.versions.get? name
      | .given v => some v
    match version with
    | none => .over (.unknown "version")
    | some v =>
      match patched v.record patch with
      | some next => call (.query (.update v next))
      | none => .over .malformed
  | .find id => call (.lookup (.reading id))
  | .history id => call (.history (.reading id))
  | .operation id op => call (s.lifecycle id op)
  | .notify id =>
    call (.query (.notify s.world.busSettings.allocationTopic id))
  | .publish topic payloads => call (.publish topic payloads)
  | .http r => s.httpJob a.replica r
  | .sleep ms => call (.pause (.ofMillis ms))
  | .refused answer => .over answer

/-- Changes the world. -/
def modify (s : Session) (f : World → World) : Session :=
  { s with world := f s.world }

/-- Lets all tasks run that can. -/
def settle (s : Session) : Session := s.modify World.settle

/-- Runs tasks to their end. -/
def perform (s : Session) (jobs : List Job) : List Answer × Session :=
  let (answers, world) := s.world.perform jobs
  (answers, { s with world })

/-- Remembers a version that was answered. -/
def remember (s : Session) (name : Option String) (a : Answer) : Session :=
  match name, a with
  | some name, .stored (.ok v) => { s with versions := s.versions.set name v }
  | _, _ => s

/-- A job that ends among the background tasks. -/
def inBackground (name : String) (w : World) : Job → World
  | .call r => (w.spawn (.call { r with finish := .listed name })).2
  | .opening o => (w.spawn (.opening { o with finish := .listed name })).2
  | .over a => { w with done := (w.time, name, a) :: w.done }
  | j => (w.spawn j).2

/-- Starts a wait. -/
def startWait (s : Session) (x : WaitStart) : Session :=
  let (token, w) := s.world.newToken { fired := x.cancelled }
  let (counter, w) := w.newCounter x.name
  let (task, w) := w.spawn (.call
    { replica := x.replica, work := .wait (s.waitCall x.replica x.machine)
      deadline := x.deadline.map (w.time + ·), token := some token
      sink := .counter counter x.delay x.failAfter x.failure
      finish := .listed x.name })
  { s with world := w, waits := s.waits.set x.name ⟨task, token⟩ }

/-- Drops the call of a wait where it stands. -/
def killWait (s : Session) (h : WaitHandle) : Session :=
  match s.world.tasks.getD h.task none with
  | some ⟨.call r, _⟩ =>
    match r.work with
    | .wait c => s.modify fun w => (w.adjust r.replica c.abandon).kill h.task
    | _ => s.modify fun w => w.kill h.task
  | _ => s

/-- What a signal's reference stands for. -/
def resolve (s : Session) : SignalRef → Option (Nat × Nat)
  | .named name => s.signals.get? name
  | .current i machine =>
    ((s.world.replica i).registry.lookup machine).map fun g => (i, g)

/-- What can be seen of a signal. -/
def view (s : Session) (i g : Nat) (fired : Option Bool) : SignalView :=
  let x := (s.world.replica i).registry.signal g
  ⟨x.holders, x.isClosed, fired⟩

/-- Changes a replica's registry. -/
def adjustRegistry (s : Session) (i : Nat) (f : Registry → Registry) :
    Session :=
  s.modify fun w => w.modifyReplica i fun r =>
    { r with registry := f r.registry }

/-- A signal's view after a change to it. -/
def onSignal (s : Session) (r : SignalRef)
    (f : Registry → Nat → Option Bool × Registry) : Answer × Session :=
  match s.resolve r with
  | none => (.signal none, s)
  | some (i, g) =>
    let (fired, registry) := f (s.world.replica i).registry g
    let s := s.adjustRegistry i fun _ => registry
    (.signal (some (s.view i g fired)), s.settle)

/-- Makes a subscription after the delay that is planned for it, and keeps
it under a name; one that had the name before is dropped. -/
def subscribeAs (s : Session) (name : String) (x : Subscribing) :
    Except BusError Nat × Session :=
  let (m, plans) := takeFault .subscribe s.world.plans
  let s := s.modify fun w => { w with plans }
  let s := match m with
    | some m =>
      if m.delay = 0 then s
      else
        (s.perform
          [.call { replica := 0, work := .pause (.ofMillis m.delay) }]).2
    | none => s
  match m with
  | some _ => (.error (.duplicateSubscription "injected"), s)
  | none =>
    match s.world.subscribe x with
    | (.error e, world) => (.error e, { s with world })
    | (.ok i, world) =>
      let old := s.subscriptions.get? name
      let s := { s with world, subscriptions := s.subscriptions.set name i }
      (.ok i, match old with
        | some j => s.modify fun w => w.dropSubscription j
        | none => s)

/-- Subscribes a replica to allocations. -/
def listen (s : Session) (name : String) (i : Nat) (own : Bool) :
    Answer × Session :=
  let r := s.world.replica i
  let subscription := if own then r.ownSubscription else r.subscription
  let topic := s.world.busSettings.allocationTopic
  match s.subscribeAs name
      { topic, name := subscription, options := .ofSettings s.world.busSettings
        handler := .notifier i } with
  | (.error e, s) => (.listening (.error e), s)
  | (.ok _, s) =>
    let s := s.modify fun w => w.say (.subscribed topic subscription)
    let s := if own then s else s.modify fun w =>
      (w.modifyReplica i fun r => { r with ready := true }).say
        (.replicaReady subscription)
    (.listening (.ok (subscription, own, (s.world.replica i).ready)), s)

/-- Drops a body that was kept. -/
def drop (s : Session) : Kept → Session
  | .stream h => s.modify fun w => w.dropStream h
  | .text _ => s

/-- Keeps a body under a name; one that had the name before is dropped. -/
def keep (s : Session) (name : String) (k : Kept) : Session :=
  let old := s.streams.get? name
  let s := { s with streams := s.streams.set name k }
  match old with
  | some old => s.drop old
  | none => s

/-- Makes a request and keeps the body of its response, if all went well,
to be read later. -/
def openStream (s : Session) (name : String) (i : Nat) (r : Http.Request) :
    Answer × Session :=
  let whole (job : Job) : Answer × Session :=
    match s.perform [job] with
    | ([.response x], s) =>
      (.response x,
        if x.status = 200 then (s.keep name (.text x.body.content)).settle
        else s)
    | ([a], s) => (a, s)
    | (_, s) => (.nothing, s)
  match s.httpJob i r with
  | .opening o =>
    if o.headOnly then whole (.opening o)
    else
      let (h, world) := s.world.openStream o
      (.response .streamHead, ({ s with world }.keep name (.stream h)).settle)
  | job => whole job

/-- Reads all that a stream holds, letting tasks send more until nothing
comes. -/
def readAll : Nat → Session → Nat → List String → List String × Session
  | 0, s, _, texts => (texts, s)
  | fuel + 1, s, i, texts =>
    let (events, c) := (s.world.channel i).drain
    if events.isEmpty then (texts, s)
    else
      readAll fuel (s.modify fun w => (w.setChannel i c).settle) i
        (texts ++ events.map Http.StreamEvent.text)

/-- Changes the key-value server, as somebody else would. -/
def onServer (s : Session) (f : Etcd.Server → Etcd.Server) : Session :=
  s.modify fun w => { w with cluster := w.cluster.modify f }

/-- Takes a step. -/
def run (s : Session) : Step → Answer × Session
  | .idle => (.nothing, s.settle)
  | .put r =>
    let (v, store) := s.world.store.put r
    (.revision v.revision, s.modify fun w => { w with store }.settle)
  | .outage on =>
    (.nothing,
      s.modify fun w => { w with store :=
        { w.store with offline := on } }.settle)
  | .inject plan =>
    (.nothing, s.modify fun w => { w with plans := w.plans ++ [plan] }.settle)
  | .ask a =>
    match s.perform [s.job a] with
    | ([answer], s) => (answer, s.remember a.as answer)
    | (_, s) => (.nothing, s)
  | .background name a =>
    let j := s.job a
    (.nothing, s.modify fun w => (inBackground name w j).settle)
  | .together as =>
    let (answers, s) := s.perform (as.map s.job)
    (.several answers,
      (as.zip answers).foldl (fun s x => s.remember x.1.as x.2) s)
  | .wait x => (.nothing, (s.startWait x).settle)
  | .cancel name =>
    match s.waits.get? name with
    | some h => (.nothing, s.modify fun w => (w.cancel h.token).settle)
    | none => (.unknown "wait", s.settle)
  | .kill name =>
    match s.waits.get? name with
    | some h => (.nothing, (s.killWait h).settle)
    | none => (.unknown "wait", s.settle)
  | .enter name i machine =>
    match s.world.move i fun l => l.register machine with
    | (.error e, world) => (.entered (.error e), { s with world }.settle)
    | (.ok r, world) =>
      let old := s.registrations.get? name
      let s :=
        { s with world, registrations := s.registrations.set name (i, r) }
      let s := match old with
        | some (j, r) => s.modify fun w => w.adjust j fun l => l.release r
        | none => s
      (.entered (.ok machine), s.settle)
  | .leave name =>
    match s.registrations.get? name with
    | some (i, r) =>
      (.dropped true,
        { s.modify (fun w => w.adjust i fun l => l.release r) with
        registrations := s.registrations.erase name }.settle)
    | none => (.dropped false, s.settle)
  | .woken name =>
    match s.registrations.get? name with
    | some (i, r) =>
      match (s.world.replica i).registry.woken r with
      | some (wake, r) =>
        (.woken (some wake),
          { s with registrations := s.registrations.set name (i, r) }.settle)
      | none => (.woken none, s.settle)
    | none => (.unknown "registration", s.settle)
  | .lookup r name =>
    match s.resolve r with
    | none => (.signal none, s.settle)
    | some (i, g) =>
      let s := match name with
        | some name => { s with signals := s.signals.set name (i, g) }
        | none => s
      (.signal (some (s.view i g none)), s.settle)
  | .close r => s.onSignal r fun x g => (none, x.close g)
  | .fire r allocated => s.onSignal r fun x g =>
    let (fired, x) := x.fire g allocated
    (some fired, x)
  | .sameSignal x y =>
    (.flag (match s.signals.get? x, s.signals.get? y with
      | some a, some b => a = b
      | _, _ => false), s.settle)
  | .remove i machine =>
    let s := s.adjustRegistry i fun r => r.remove machine
    (.registry (s.world.replica i).registry.size, s.settle)
  | .handleAllocation i machine =>
    let (woke, world) :=
      s.world.move i (Notifier.wake (s.world.replica i).ownSubscription
        machine)
    (.flag woke, { s with world }.settle)
  | .subscribe name x =>
    let (r, s) := s.subscribeAs name x
    (.subscribed (r.map fun _ => x.name), s.settle)
  | .listen name i own =>
    let (a, s) := s.listen name i own
    (a, s.settle)
  | .unsubscribe name drop =>
    match s.subscriptions.get? name with
    | none => (.unknown "subscription", s.settle)
    | some i =>
      let s := { s.modify (fun w => w.dropSubscription i) with
        subscriptions := s.subscriptions.erase name }
      if drop then (.nothing, s.settle)
      else
        let (_, s) := s.perform [.closing i]
        (.nothing, s)
  | .setReady i ready =>
    (.flag ready,
      (s.modify fun w => w.modifyReplica i fun r => { r with ready }).settle)
  | .shutdown i =>
    (.nothing, s.modify fun w => (w.cancel (w.replica i).shutdown).settle)
  | .metrics => let s := s.settle; (.lines s.world.metricLines, s)
  | .openStream name i r => s.openStream name i r
  | .readStream name =>
    match s.streams.get? name with
    | none => (.noStream, s.settle)
    | some (.stream h) =>
      let (texts, s) := readAll 100000 s.settle h.channel []
      (.stream (String.join texts) (s.world.channel h.channel).finished, s)
    | some (.text rest) =>
      (.stream rest true,
        { s with streams := s.streams.set name (.text "") }.settle)
  | .dropStream name =>
    match s.streams.get? name with
    | none => (.dropped false, s.settle)
    | some k =>
      (.dropped true, { s.drop k with streams := s.streams.erase name }.settle)
  | .writeKey key value =>
    (.nothing, (s.onServer fun x => x.put key value 0).settle)
  | .deleteKey key => (.nothing, (s.onServer fun x => x.delete key).settle)
  | .allKeys =>
    let s := s.settle
    (.entries (s.world.cluster.server.range (.under "")), s)
  | .requests =>
    let s := s.settle
    (.requests s.world.cluster.received.reverse,
      s.modify fun w => { w with cluster :=
        { w.cluster with received := [] } })
  | .planServer plan =>
    (.nothing, (s.modify fun w =>
      { w with cluster :=
        { w.cluster with plans := w.cluster.plans ++ [plan] } }).settle)
  | .breakWatches withError =>
    (.nothing, (s.modify fun w =>
      { w with etcdBus :=
        w.etcdBus.breakWatches w.cluster.server withError }).settle)

/-- The replicas of a world, each with a token and the names of its two
notifiers. -/
def addReplica (w : World) (node : String) : World :=
  let (a, ambient) := w.ambient.uuid
  let (b, ambient) := ambient.uuid
  let (shutdown, w) := { w with ambient }.newToken {}
  { w with replicas := w.replicas ++
      [{ node, shutdown, subscription := node ++ "-" ++ a.text
         ownSubscription := node ++ "-" ++ b.text }] }

/-- What happened since the last look: ended tasks, recorded deliveries
and log lines, each in the order in which they came; and the session that
goes on without them. -/
def collect (s : Session) :
    (List (Nat × String × Answer) × List (Nat × String × Json) × List LogLine)
      × Session :=
  ((s.world.done.reverse, s.world.delivered.reverse,
    s.world.ambient.log.reverse),
    s.modify fun w =>
      { w with
        done := []
        delivered := []
        ambient := { w.ambient with log := [] } })

end Session

end ControlPlane.Simulation
