/-
Lifecycle calls. A call reads the machine's record, changes it and writes
it back if it is still the record that was read; when another writer came
between, it pauses and starts over, a bounded number of times. A
registration of an unknown machine creates the record instead. After the
write an allocation is published, and the operation's entry is added to
the machine's history; neither can fail the call.
-/
import ControlPlane.Demand
import ControlPlane.Lifecycle.Operation
import ControlPlane.Notifier
import ControlPlane.Retry

namespace ControlPlane.Lifecycle

/-- Where a call stands. -/
inductive Stage
  | reading
  /-- About to create the record of an unknown machine. -/
  | creating (record : MachineRecord)
  /-- About to write `next` over what was read. -/
  | writing (old : Versioned) (next : MachineRecord)
  | pausing (d : Duration)
  /-- The write is done; the allocation is to be published. -/
  | publishing (record : MachineRecord)
  /-- The history is to be added to. -/
  | recording (record : MachineRecord) (event : ProvisioningEvent)
  | finished (result : Except ServiceError MachineRecord)
  deriving Repr

/-- A call of an operation on a machine. -/
structure Call where
  machine : String
  operation : Operation
  /-- The topic that allocations are published on. -/
  topic : String
  retry : RetrySettings
  pacing : Pacing
  stage : Stage := .reading
  deriving Repr

namespace Call

/-- A call that has not done anything yet. -/
def start (retry : RetrySettings) (topic machine : String)
    (operation : Operation) : Call :=
  { machine, operation, topic, retry, pacing := .start retry }

/-- The call at another stage. -/
def goto (c : Call) (s : Stage) : Call := { c with stage := s }

/-- The call ended with an error, without having written anything. -/
def fail (c : Call) (e : ServiceError) : Call := c.goto (.finished (.error e))

/-- An attempt ended with an error: after a conflict there is another one
while the budget lasts. -/
def attemptFailed (c : Call) (e : StoreError) : Move Call := fun l =>
  if e.isConflict then
    match c.pacing.again c.operation.name c.retry l.ambient with
    | some (delay, pacing, ambient) =>
      ({ c with pacing, stage := .pausing delay }, { l with ambient })
    | none => (c.fail (.ofStore e), l)
  else (c.fail (.ofStore e), l)

/-- The entry for the history, with the time at which it is made. -/
def record (c : Call) (r : MachineRecord) (created : Bool) :
    Move Call := fun l =>
  match c.operation.entry created with
  | some (kind, message) =>
    let (now, l) := l.now
    (c.goto (.recording r ⟨kind, message, now⟩), l)
  | none => (c.goto (.finished (.ok r)), l)

/-- The write is done. -/
def written (c : Call) (r : MachineRecord) (created : Bool) :
    Move Call := fun l =>
  match c.operation with
  | .register _ =>
    c.record r created (l.say
      (.machineRegistered c.machine r.partition created))
  | .allocate _ => (c.goto (.publishing r), l)
  | _ => c.record r created l

/-- The record was read: the change is made to it. -/
def found (c : Call) (v : Versioned) : Move Call := fun l =>
  match c.operation.change v.record l.ambient with
  | (.error e, a) => (c.fail e, { l with ambient := a })
  | (.ok none, a) =>
    c.record v.record false
      ({ l with ambient := a }.say
        (.nothingToWrite c.machine c.operation.name))
  | (.ok (some r), a) =>
    let (now, l) := { l with ambient := a }.now
    (c.goto (.writing v { r with changedAt := now }), l)

/-- The record could not be read. A registration takes an unknown machine
for a new one. -/
def missed (c : Call) (e : StoreError) : Move Call := fun l =>
  match c.operation, e with
  | .register req, .notFound _ =>
    let (now, l) := l.now
    (c.goto (.creating (Operation.created req c.machine now)), l)
  | _, e => c.attemptFailed e l

/-- The allocation was published, or not. -/
def published (c : Call) (r : MachineRecord) (answer : Except BusError Unit) :
    Move Call := fun l =>
  let l := Notifier.published c.machine c.topic answer l
  match c.operation with
  | .allocate req =>
    c.record r false
      (l.say (.machineAllocated c.machine req.project req.hostname))
  | _ => c.record r false l

/-- The history was added to, or not. -/
def recorded (c : Call) (r : MachineRecord) (kind : EventKind)
    (answer : Except StoreError Unit) : Move Call := fun l =>
  match answer with
  | .ok _ => (c.goto (.finished (.ok r)), l)
  | .error e =>
    (c.goto (.finished (.ok r)),
      l.say (.eventLost c.machine kind.name e.message))

/-- What a call wants next. -/
def demand (c : Call) : Demand Call (Except ServiceError MachineRecord) :=
  match c.stage with
  | .reading => .find c.machine fun
    | .ok v => c.found v
    | .error e => c.missed e
  | .creating r => .create r fun
    | .ok v => c.written v.record true
    | .error e => c.attemptFailed e
  | .writing old next => .update old next fun
    | .ok v => c.written v.record false
    | .error e => c.attemptFailed e
  | .pausing d => .pause d fun l => (c.goto .reading, l)
  | .publishing r =>
    .publish c.topic (Notifier.payload c.machine) fun a => c.published r a
  | .recording r event =>
    .append c.machine event fun a => c.recorded r event.kind a
  | .finished result => .finished result

end Call

/-- A call that reads a machine's history: an unknown machine has none,
not an empty one. -/
inductive HistoryCall
  | reading (machine : String)
  | listing (machine : String)
  | finished (result : Except ServiceError (List ProvisioningEvent))
  deriving Repr

/-- What a call for a history wants next. -/
def HistoryCall.demand :
    HistoryCall → Demand HistoryCall
      (Except ServiceError (List ProvisioningEvent))
  | reading machine => .find machine fun
    | .ok _ => fun l => (listing machine, l)
    | .error e => fun l => (finished (.error (.ofStore e)), l)
  | listing machine => .list machine fun a l =>
    (finished (a.mapError ServiceError.ofStore), l)
  | finished result => .finished result

/-- A call that reads a machine's record. -/
inductive LookupCall
  | reading (machine : String)
  | finished (result : Except ServiceError MachineRecord)
  deriving Repr

/-- What a call for a record wants next. -/
def LookupCall.demand :
    LookupCall → Demand LookupCall (Except ServiceError MachineRecord)
  | reading machine => .find machine fun a l =>
    (finished ((a.map Versioned.record).mapError ServiceError.ofStore), l)
  | finished result => .finished result

end ControlPlane.Lifecycle
