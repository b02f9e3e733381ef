/-
The scheduler. Tasks run one at a time, each until it has to wait. Those
that can run stand in a queue; the tasks that the script waits for come
first when they can go on, and then the queue is emptied, with all that
the tasks in it set off. When nothing can run, time moves to the next
moment that somebody waits for. All loops have fuel, far more than any
script needs.
-/
import ControlPlane.Simulation.World

namespace ControlPlane.Simulation

namespace World

-- ================================================== calls to the backends

/-- Another writer puts a patched record, or a patched new one if no
record is found. -/
def race (w : World) (id : String) (patch : Json) : World :=
  let (r, w) := match w.store.find id with
    | .ok v => (v.record, w)
    | .error _ =>
      let (now, a) := w.ambient.now
      (MachineRecord.fresh id now, { w with ambient := a })
  match Json.decode? MachineRecord.form.read
      (r.toJson.sorted.mergePatch patch) with
  | some r => { w with store := (w.store.put r).2 }
  | none => w

/-- Carries out what a misbehaving call does before its answer, and the
error it ends with. A race where there is no record to race for fails the
call. -/
def misbehave (w : World) (method : Method) (id : String) (m : Misbehaviour) :
    Option StoreError × World :=
  match m.race with
  | none => (m.failure.map fun make => make id, w)
  | some patch =>
    if method.isOnRecord then
      (m.failure.map fun make => make id, w.race id patch)
    else (some ((m.failure.map fun make => make id).getD (.unavailable id)), w)

/-- Publishes, as the misbehaviour lets it. -/
def publish (w : World) (topic : String) (payload : Json)
    (m : Option Misbehaviour) : Except BusError Unit × World :=
  let once (w : World) : Except BusError Unit × World :=
    match w.backing with
    | .memory =>
      let (bus, ambient) := w.bus.publish topic payload w.ambient
      (.ok (), { w with bus, ambient })
    | .etcd =>
      let (answer, cluster, ambient) :=
        w.etcdBus.publish Cluster.client topic payload w.cluster w.ambient
      (answer, { w with cluster, ambient })
  match m.bind Misbehaviour.bus with
  | none => once w
  | some .drop => (.ok (), w)
  | some .duplicate =>
    match once w with
    | (.ok (), w) => once w
    | failed => failed
  | some .fail => (.error (.serialization "refused"), w)

/-- The method and the machine of a demand that goes to a backend. -/
def backendCall {κ ρ : Type} : Demand κ ρ → Option (Method × String)
  | .find id _ => some (.find, id)
  | .create r _ => some (.create, r.id)
  | .update old _ _ => some (.update, old.record.id)
  | .ping _ => some (.ping, "")
  | .append id _ _ => some (.append, id)
  | .list id _ => some (.list, id)
  | .publish _ _ _ => some (.publish, "")
  | _ => none

/-- The answer of the backends to a question, which a failure may take the
place of. -/
def answer {α : Type} (w : World) (failed : Option StoreError)
    (memory : World → Except StoreError α × World)
    (etcd : Cluster → Ambient → Except StoreError α × Cluster × Ambient) :
    Except StoreError α × World :=
  match failed, w.backing with
  | some e, _ => (.error e, w)
  | none, .memory => memory w
  | none, .etcd =>
    let (a, cluster, ambient) := etcd w.cluster w.ambient
    (a, { w with cluster, ambient })

/-- A write to the store on the key-value server, with what it logs. -/
def reported (found : Except StoreError Versioned × Cluster) (a : Ambient) :
    Except StoreError Versioned × Cluster × Ambient :=
  (found.1, found.2, Etcd.MachineStore.report found.1 a)

/-- Asks the backends what a demand wants, and takes the step that follows. -/
def ask {κ ρ : Type} (w : World) (i : Nat) (m : Option Misbehaviour)
    (d : Demand κ ρ) : Option (κ × World) :=
  let (failed, w) := match m, backendCall d with
    | some m, some (method, id) => w.misbehave method id m
    | _, _ => (none, w)
  match d with
  | .find id k =>
    let (a, w) := w.answer failed (fun w => (w.store.find id, w)) fun c a =>
      let (r, c) := Etcd.MachineStore.find Cluster.client id c
      (r, c, a)
    some (w.move i (k a))
  | .create r k =>
    let (a, w) := w.answer failed
      (fun w =>
        let (a, store) := w.store.create r
        (a, { w with store }))
      fun c => reported (Etcd.MachineStore.create Cluster.client r c)
    some (w.move i (k a))
  | .update old next k =>
    let (a, w) := w.answer failed
      (fun w =>
        let (a, store) := w.store.update old next
        (a, { w with store }))
      fun c => reported (Etcd.MachineStore.update Cluster.client old next c)
    some (w.move i (k a))
  | .ping k =>
    let (a, w) := w.answer failed (fun w => (w.store.ping, w)) fun c a =>
      let (r, c) := Etcd.MachineStore.ping Cluster.client c
      (r, c, a)
    some (w.move i (k a))
  | .append id e k =>
    let (a, w) :=
      w.answer failed (fun w =>
        (.ok (), { w with events := w.events.append id e }))
      fun c a =>
        let (u, a) := a.uuid
        let (r, c) := Etcd.EventLog.append Cluster.client id e u c
        (r, c, a)
    some (w.move i (k a))
  | .list id k =>
    let (a, w) :=
      w.answer failed (fun w => (.ok (w.events.list id), w)) fun c a =>
      let (r, c) := Etcd.EventLog.list Cluster.client id c
      (r, c, a)
    some (w.move i (k a))
  | .publish topic payload k =>
    let (a, w) := w.publish topic payload m
    some (w.move i (k a))
  | _ => none

-- ========================================================== running calls

/-- How a running call goes on. -/
inductive Turn
  /-- It went on; it may go on further. -/
  | moved (r : Running) (w : World)
  /-- It has to wait. -/
  | waiting (r : Running) (w : World) (on : List Condition)
  | finished (a : Answer) (w : World)

/-- Goes on with new work. -/
def Turn.next (r : Running) (found : Work × World) : Turn :=
  .moved { r with work := found.1, phase := .idle } found.2

/-- Sends a keep-alive. -/
def sendKeepalive (w : World) (r : Running)
    (k : Except WaitError Unit → Move Work) : Turn :=
  match r.sink with
  | .none => .next r (w.move r.replica (k (.ok ())))
  | .counter i delay failAfter failure =>
    let go (w : World) : Turn :=
      let sent := w.counters.getD i 0
      if (failAfter.map fun n => decide (n ≤ sent)).getD false then
        .next r (w.move r.replica (k (.error failure)))
      else
        let w := { w with counters := w.counters.set i (sent + 1) }
        .next r (w.move r.replica (k (.ok ())))
    match r.phase with
    | .sending time => if time ≤ w.time then go w else .waiting r w [.due time]
    | _ =>
      if delay = 0 then go w
      else
        .waiting { r with phase := .sending (w.time + delay) } w
          [.due (w.time + delay)]
  | .stream i =>
    match (w.channel i).send .keepalive with
    | .queued c => .next r ((w.setChannel i c).move r.replica (k (.ok ())))
    | .gone => .next r (w.move r.replica (k (.error Http.goneError)))
    | .full =>
      match r.phase with
      | .sending time =>
        if time ≤ w.time then
          .next r (w.move r.replica (k (.error Http.stalledError)))
        else .waiting r w [.room i, .due time]
      | _ =>
        let time := w.time + Http.sendTimeout.millisUp
        .waiting { r with phase := .sending time } w [.room i, .due time]

/-- Whichever comes first for a blocked call. -/
def select (w : World) (r : Running) (listen : Option Registration)
    (tick : Moment) (cancelled : Move Work)
    (woken : Wake → Registration → Moment → Move Work)
    (ticked : Moment → Move Work) : Turn :=
  if (r.token.map w.isCancelled).getD false then
    .next r (w.move r.replica cancelled)
  else
    match listen.bind (w.replica r.replica).registry.woken with
    | some (wake, registration) =>
      .next r (w.move r.replica (woken wake registration w.moment))
    | none =>
      if tick ≤ w.moment then .next r (w.move r.replica (ticked w.moment))
      else
        .waiting r w ((r.token.map Condition.cancelled).toList ++
          (listen.map (Condition.woken r.replica)).toList ++
          [.due (Duration.mk tick).millisUp])

/-- A call to a backend, as planned faults let it. -/
def callBackend (w : World) (r : Running) (method : Method)
    (d : Demand Work Answer) : Turn :=
  let go (w : World) (m : Option Misbehaviour) : Turn :=
    match w.ask r.replica m d with
    | some found => .next r found
    | none => .waiting r w []
  match r.phase with
  | .held time m =>
    if time ≤ w.time then go w (some m) else .waiting r w [.due time]
  | _ =>
    let (m, plans) := takeFault method w.plans
    let w := { w with plans }
    match m with
    | some m =>
      if m.delay = 0 then go w (some m)
      else
        .waiting { r with phase := .held (w.time + m.delay) m } w
          [.due (w.time + m.delay)]
    | none => go w none

/-- A step of a running call. -/
def takeTurn (w : World) (r : Running) : Turn :=
  match r.work.demand w.moment with
  | .proceed k => .next r (w.move r.replica k)
  | .pause d k =>
    match r.phase with
    | .paused time =>
      if time ≤ w.time then .next r (w.move r.replica k)
      else .waiting r w [.due time]
    | _ =>
      let time := w.time + d.millisUp
      if time ≤ w.time then .next r (w.move r.replica k)
      else .waiting { r with phase := .paused time } w [.due time]
  | .send k => w.sendKeepalive r k
  | .select listen tick cancelled woken ticked =>
    w.select r listen tick cancelled woken ticked
  | .finished a => .finished a w
  | d =>
    match backendCall d with
    | some (method, _) => w.callBackend r method d
    | none => .waiting r w []

/-- A call is given up at its deadline. -/
def expire (w : World) (r : Running) : Running × World :=
  let r := { r with deadline := none, phase := .idle }
  match r.work with
  | .wait c =>
    let (c, w) := w.move r.replica c.expire
    ({ r with work := .wait c }, w)
  | _ =>
    let (response, ambient) := Http.answerProbe none w.ambient
    ({ r with work := .done (.response response) }, { w with ambient })

/-- Runs a call until it has to wait or is done. -/
def runCall : Nat → World → Running → Turn
  | 0, w, r => .waiting r w []
  | fuel + 1, w, r =>
    match w.takeTurn r with
    | .moved r w => runCall fuel w r
    | .finished a w => .finished a w
    | .waiting r w on =>
      match r.deadline with
      | some time =>
        if time ≤ w.time then
          let (r, w) := w.expire r
          runCall fuel w r
        else .waiting r w (on ++ [.due time])
      | none => .waiting r w on

/-- The answer of a call as a response. -/
def respond (w : World) (r : Running) (a : Answer) : Answer × World :=
  match r.respond with
  | none => (a, w)
  | some h =>
    let (response, ambient) := match a with
      | .record result => Http.answerRecord result w.ambient
      | .history result => Http.answerHistory h.machine result w.ambient
      | .checked result => Http.answerProbe (some result) w.ambient
      | .response response => (response, w.ambient)
      | _ => (.bare 500, w.ambient)
    (.response (if h.headOnly then response.withoutBody else response),
      { w with ambient })

-- ================================================================== tasks

/-- How a task goes on. -/
inductive Poll
  | waiting (j : Job) (w : World) (on : List Condition)
  | over (a : Answer) (w : World)

/-- The fuel of one task's run. -/
def taskFuel : Nat := 1000000

/-- A task ends with an answer. -/
def conclude (w : World) (finish : Finish) (a : Answer) : Poll :=
  match finish with
  | .keep => .over a w
  | .listed name => .over a { w with done := (w.time, name, a) :: w.done }
  | .stream i machine =>
    match a with
    | .waited result => .waiting (.last i (.final machine result)) w []
    | _ => .over a w

/-- Runs a call's task. -/
def pollCall (w : World) (r : Running) : Poll :=
  match runCall taskFuel w r with
  | .finished a w =>
    let (a, w) := w.respond r a
    w.conclude r.finish a
  | .waiting r w on => .waiting (.call r) w on
  | .moved r w => .waiting (.call r) w []

/-- Reads a stream as far as it goes. Once it has ended it becomes the
body of a response. -/
def pollReading (w : World) (h : OpenStream) (text : String)
    (finish : Finish) : Poll :=
  let (events, c) := (w.channel h.channel).drain
  let w := w.setChannel h.channel c
  let text := text ++ String.join (events.map Http.StreamEvent.text)
  if c.finished then
    (w.dropStream h).conclude finish
      (.response { Http.Response.streamHead with body := .text text })
  else .waiting (.reading h text finish) w [.news h.channel]

/-- Opens a stream for a response. -/
def pollOpening (w : World) (o : StreamOpening) : Poll :=
  let (h, w) := w.openStream o
  if o.headOnly then (w.dropStream h).conclude o.finish (.response .streamHead)
  else w.pollReading h "" o.finish

/-- Runs a receive loop. -/
def pollLoop : Nat → World → Nat → Poll
  | 0, w, i => .waiting (.loop i) w []
  | fuel + 1, w, i =>
    match w.turn i with
    | some (started, w) =>
      match started with
      | some m =>
        pollLoop fuel
          (w.spawn (.delivery { subscription := i, message := m })).2 i
      | none => pollLoop fuel w i
    | none =>
      if w.loopEnded i then .over .nothing w
      else .waiting (.loop i) w (w.loopWaits i)

/-- An hour, in milliseconds. -/
def hour : Nat := 3600000

/-- A delivery is over. -/
def endDelivery (w : World) (d : Delivery) (e : DeliveryEnd) : Poll :=
  let name :=
    ((w.dispatcher d.subscription).map Dispatcher.subscription).getD ""
  .over .nothing
    ({ w with ambient := e.report name d.message.id w.ambient }.finishDelivery
      d.subscription)

/-- The way in which a scripted handler ends: as the payload says, if it
says one, or as the handler was made. -/
def handlerMode (mode : String) : Json → String
  | .string s => if s ∈ ["panic", "fail", "slow"] then s else mode
  | _ => mode

/-- Runs a delivery. -/
def pollDelivery (w : World) (d : Delivery) : Poll :=
  match w.dispatcher d.subscription, w.handlers[d.subscription]? with
  | some s, some (.notifier i) =>
    let (answer, w) :=
      w.move i (Notifier.handle s.subscription d.message.payload)
    w.endDelivery d (match answer with
      | .ok _ => .handled
      | .error e => .failed e)
  | some s, some (.scripted mode delay) =>
    let mode := handlerMode mode d.message.payload
    let timeout := s.options.handlerTimeout.millisUp
    let d := match d.resume with
      | some _ => d
      | none =>
        { d with
          resume := some (w.time + delay)
          deadline := w.time + timeout }
    let resume := d.resume.getD 0
    let wait (d : Delivery) (resume : Nat) : Poll :=
      if d.deadline ≤ w.time then w.endDelivery d .timedOut
      else .waiting (.delivery d) w [.due resume, .due d.deadline]
    if w.time < resume then wait d resume
    else if mode = "panic" then w.endDelivery d .panicked
    else if mode = "fail" then
      w.endDelivery d (.failed (.duplicateSubscription "handler says no"))
    else if mode = "slow" && ! d.rested then
      wait { d with rested := true, resume := some (w.time + hour) }
        (w.time + hour)
    else
      let delivered :=
        (w.time, s.subscription, d.message.payload) :: w.delivered
      { w with delivered }.endDelivery d .handled
  | _, _ => .over .nothing w

/-- Runs a task until it has to wait or is over. -/
def poll (w : World) : Job → Poll
  | .call r =>
    match w.pollCall r with
    | .waiting (.last i e) w _ => sendLast w i e
    | p => p
  | .opening o => w.pollOpening o
  | .reading h text finish => w.pollReading h text finish
  | .loop i => pollLoop taskFuel w i
  | .delivery d => w.pollDelivery d
  | .last i e => sendLast w i e
  | .closing i =>
    if w.holds (.ended i) then .over .nothing w
    else .waiting (.closing i) w [.ended i]
  | .over a => .over a w
where
  /-- Sends the last event of a stream, and ends the stream. -/
  sendLast (w : World) (i : Nat) (e : Http.StreamEvent) : Poll :=
    match (w.channel i).send e with
    | .queued c => .over .nothing (w.setChannel i { c with finished := true })
    | .gone => .over .nothing w
    | .full => .waiting (.last i e) w [.room i]

/-- Numbers the conditions that a task waits for; one that it has been
waiting for keeps its number. -/
def number (w : World) (before : List (Condition × Nat)) :
    List Condition → List (Condition × Nat) × World
  | [] => ([], w)
  | c :: rest =>
    match before.find? fun p => decide (p.1 = c) with
    | some p =>
      let (ps, w) := w.number before rest
      (p :: ps, w)
    | none =>
      let (ps, w) := { w with seq := w.seq + 1 }.number before rest
      ((c, w.seq) :: ps, w)

/-- The number by which a task that can go on has its place; `none` if it
cannot. -/
def place (w : World) (t : Task) : Option Nat :=
  (t.waits.filter fun p => w.holds p.1).foldl (fun best p =>
    match best with
    | some b => some (min b p.2)
    | none => some p.2) none

/-- Puts the tasks that can go on into the queue, the longest waiting one
first. -/
def wake (w : World) : World :=
  let ready := (w.tasks.toList.zipIdx).filterMap fun (t, i) =>
    match t with
    | some t => if i ∈ w.queue then none else (w.place t).map fun n => (n, i)
    | none => none
  if ready.isEmpty then w
  else
    { w with queue := w.queue ++
      (ready.mergeSort fun a b => decide (a.1 ≤ b.1)).map Prod.snd }

/-- Runs the task that stands first in the queue. -/
def runNext (w : World) : Option World :=
  match w.queue with
  | [] => none
  | i :: rest =>
    let w := { w with queue := rest }
    match w.tasks.getD i none with
    | none => some w
    | some t =>
      match w.poll t.job with
      | .over _ w => some ({ w with tasks := w.tasks.set! i none }.wake)
      | .waiting job w on =>
        let (waits, w) := w.number t.waits on
        some ({ w with tasks := w.tasks.set! i (some ⟨job, waits⟩) }.wake)

/-- Empties the queue. -/
def drainQueue : Nat → World → World
  | 0, w => w
  | fuel + 1, w =>
    match w.runNext with
    | none => w
    | some w => drainQueue fuel w

/-- The fuel of a step of a script. -/
def stepFuel : Nat := 1000000

/-- Runs all tasks that can run, without time passing. -/
def settle (w : World) : World := drainQueue stepFuel w.wake

/-- Runs the tasks that the script waits for, in order, as far as they go. -/
def pollMain (w : World) : World :=
  let (ts, w) := go w w.main
  { w with main := ts }.wake
where
  /-- Runs tasks in order. -/
  go (w : World) : List Task → List Task × World
    | [] => ([], w)
    | t :: rest =>
      let (t, w) := match t.job with
        | .over _ => (t, w)
        | job =>
          match w.poll job with
          | .over a w => (⟨.over a, []⟩, w)
          | .waiting job w on =>
            let (waits, w) := w.number t.waits on
            (⟨job, waits⟩, w)
      let (ts, w) := go w rest
      (t :: ts, w)

/-- Are all tasks done that the script waits for? -/
def mainOver (w : World) : Bool := w.main.all fun t => match t.job with
  | .over _ => true
  | _ => false

/-- Can a task go on that the script waits for? -/
def mainReady (w : World) : Bool := w.main.any fun t => (w.place t).isSome

/-- The next moment that somebody waits for. -/
def nextDue (w : World) : Option Nat :=
  let waits := w.main.flatMap Task.waits ++
    w.tasks.toList.flatMap fun t => (t.map Task.waits).getD []
  waits.foldl (fun best p =>
    match p.1, best with
    | .due t, some b => if w.time < t then some (min b t) else best
    | .due t, none => if w.time < t then some t else none
    | _, _ => best) none

/-- Runs until the tasks are done that the script waits for. -/
def runMain : Nat → World → World
  | 0, w => w
  | fuel + 1, w =>
    if w.mainOver then w
    else if w.mainReady then runMain fuel w.pollMain
    else
      let w := w.settle
      if w.mainReady then runMain fuel w
      else
        match w.nextDue with
        | some t => runMain fuel { w with time := t }.wake
        | none => w

/-- Runs tasks for the script until they are done, and then all others
that can run. -/
def perform (w : World) (jobs : List Job) : List Answer × World :=
  let w := { w with main := jobs.map fun j => ⟨j, []⟩ }.pollMain
  let w := runMain stepFuel w
  let answers := w.main.map fun t => match t.job with
    | .over a => a
    | _ => .nothing
  (answers, { w with main := [] }.settle)

end World

end ControlPlane.Simulation
