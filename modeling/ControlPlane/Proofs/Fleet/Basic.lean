/-
Fleets: any number of replicas over one store and one bus, with every
call that they carry out. The outside chooses what happens next, one
event at a time: which call takes its next step and how the world
answers it, which message is delivered where, when the store is out of
reach, when a caller goes away. A history of events is therefore an
interleaving, and a statement about all histories is one about all
interleavings.

# What one event is

A call moves by meeting its own demand (`Lifecycle.Call.demand`,
`Wait.Call.demand`), so an event is exactly one call to the store, to a
machine's history or to the bus, or one wake-up, tick or cancellation.
Nothing here says again what a call does: `meet` only supplies answers.

# What is left open

- Moments of the timers are arbitrary, so that ticks, pauses and
  deadlines fall anywhere.
- A backend may refuse a call, or carry it out and lose its answer. A
  history is `Faithful` when the store never does; then it is the store
  in memory, whose outages are events of their own, while the bus may
  still fail.
- A message of the allocation topic may be handled on any replica, at
  any later time and any number of times (`redeliver`), beside its
  deliveries by the bus in memory (`turn`, `deliver`).
- Signals may be closed and removed from outside, but nobody fires one
  except a message's handler, and only allocations are published on the
  allocation topic.
-/
import Mathlib.Logic.Function.Basic
import ControlPlane.Bus.Memory
import ControlPlane.Lifecycle.Call
import ControlPlane.Store.Memory
import ControlPlane.Wait.Call

namespace ControlPlane

-- ============================================================= calls

/-- A call of whichever kind. -/
inductive Fleet.Task
  | lifecycle (c : Lifecycle.Call)
  | wait (c : Wait.Call)
  deriving Repr

/-- A call that was begun, and the replica that carries it out. -/
structure Fleet.Slot where
  replica : Nat
  task : Fleet.Task
  /-- The call was given up where it stood. -/
  dropped : Bool := false
  deriving Repr

/-- Replicas, what they share, and all that is under way. -/
structure Fleet where
  /-- The topic that allocations are published on. -/
  topic : String
  ambient : Ambient
  store : MemoryStore := {}
  events : MemoryEventLog := {}
  bus : MemoryBus
  /-- The signals of every replica. -/
  registries : Nat → Registry := fun _ => {}
  /-- All calls that were ever begun. -/
  slots : List Fleet.Slot := []
  /-- For every subscription the replica whose signals its handler
  fires; `none` for a handler that does something else. -/
  handlers : List (Option Nat) := []
  /-- The deliveries under way, by subscription. -/
  deliveries : List (Nat × Envelope) := []
  /-- All that was ever published, the latest first. -/
  posted : List (String × Json) := []

namespace Fleet

/-- The machine that a call is about. -/
def Task.machine : Task → String
  | lifecycle c => c.machine
  | wait c => c.machine

/-- The registration that a call holds where it stands. -/
def Task.hold? : Task → Option Registration
  | lifecycle _ => none
  | wait c => c.stage.block?.map Wait.Block.registration

/-- The registration that a call holds; one that was given up holds
none. -/
def Slot.hold? (s : Slot) : Option Registration :=
  if s.dropped then none else s.task.hold?

/-- The latest version of a machine's record. -/
def stored (f : Fleet) (machine : String) : Option Versioned :=
  f.store.records.get? machine

/-- Does a machine's record carry an allocation? -/
def Allocated (f : Fleet) (machine : String) : Prop :=
  ∃ v, f.stored machine = some v ∧ v.record.isAllocated = true

-- =================================================== meeting demands

/-- What the world does about a demand, where it has a choice. -/
inductive Choice
  /-- What is demanded is done; a call that begins to block does so at
  `now`. -/
  | serve (now : Moment)
  /-- The backend refuses. -/
  | refuse (e : StoreError)
  /-- The backend does what is demanded, but its answer is lost. -/
  | lose (e : StoreError)
  /-- The bus fails, with or without the message on its way. -/
  | garble (sent : Bool) (e : BusError)
  /-- The keep-alive cannot be sent. -/
  | stall (e : WaitError)
  /-- The caller of a blocked call goes away. -/
  | cancel
  /-- A blocked call sees its signal. -/
  | wake (now : Moment)
  /-- The tick of a blocked call comes. -/
  | tick (now : Moment)
  deriving Repr

/-- The moment at which a choice is carried out. -/
def Choice.now : Choice → Moment
  | serve t | wake t | tick t => t
  | _ => 0

/-- Is what the store answers what it did? -/
def Choice.faithful : Choice → Bool
  | refuse _ | lose _ => false
  | _ => true

/-- Takes a step on a replica. -/
def move {κ : Type} (f : Fleet) (i : Nat) (k : Move κ) : κ × Fleet :=
  ((k ⟨f.registries i, f.ambient⟩).1,
    { f with
      registries := Function.update f.registries i
        (k ⟨f.registries i, f.ambient⟩).2.registry
      ambient := (k ⟨f.registries i, f.ambient⟩).2.ambient })

/-- Publishes a payload. -/
def post (f : Fleet) (topic : String) (payload : Json) : Fleet :=
  { f with
    bus := (f.bus.publish topic payload f.ambient).1
    ambient := (f.bus.publish topic payload f.ambient).2
    posted := (topic, payload) :: f.posted }

/-- What a call on replica `i` becomes, and what it leaves around it,
when the world meets its demand by a choice; `none` if the choice is
none that the demand leaves. -/
def meet {κ ρ : Type} (f : Fleet) (i : Nat) :
    Choice → Demand κ ρ → Option (κ × Fleet)
  | .serve _, .proceed k => some (f.move i k)
  | .serve _, .find id k => some (f.move i (k (f.store.find id)))
  | .serve _, .create r k =>
      some ({ f with store := (f.store.create r).2 }.move i
        (k (f.store.create r).1))
  | .serve _, .update old next k =>
      some ({ f with store := (f.store.update old next).2 }.move i
        (k (f.store.update old next).1))
  | .serve _, .ping k => some (f.move i (k f.store.ping))
  | .serve _, .append id e k =>
      some ({ f with events := f.events.append id e }.move i (k (.ok ())))
  | .serve _, .list id k => some (f.move i (k (.ok (f.events.list id))))
  | .serve _, .publish topic payload k =>
      some ((f.post topic payload).move i (k (.ok ())))
  | .serve _, .pause _ k => some (f.move i k)
  | .serve _, .send k => some (f.move i (k (.ok ())))
  | .refuse e, .find _ k => some (f.move i (k (.error e)))
  | .refuse e, .create _ k => some (f.move i (k (.error e)))
  | .refuse e, .update _ _ k => some (f.move i (k (.error e)))
  | .refuse e, .ping k => some (f.move i (k (.error e)))
  | .refuse e, .append _ _ k => some (f.move i (k (.error e)))
  | .refuse e, .list _ k => some (f.move i (k (.error e)))
  | .lose e, .create r k =>
      some ({ f with store := (f.store.create r).2 }.move i (k (.error e)))
  | .lose e, .update old next k =>
      some ({ f with store := (f.store.update old next).2 }.move i
        (k (.error e)))
  | .lose e, .append id entry k =>
      some ({ f with events := f.events.append id entry }.move i
        (k (.error e)))
  | .garble sent e, .publish topic payload k =>
      some ((if sent then f.post topic payload else f).move i
        (k (.error e)))
  | .stall e, .send k => some (f.move i (k (.error e)))
  | .cancel, .select _ _ cancelled _ _ => some (f.move i cancelled)
  | .wake now, .select (some r) _ _ woken _ =>
      match (f.registries i).woken r with
      | some (wake, r) => some (f.move i (woken wake r now))
      | none => none
  | .tick now, .select _ due _ _ ticked =>
      if due ≤ now then some (f.move i (ticked now)) else none
  | _, _ => none

/-- `meet` on a call of either kind. -/
def meetTask (f : Fleet) (i : Nat) (ch : Choice) :
    Task → Option (Task × Fleet)
  | .lifecycle c =>
      (f.meet i ch c.demand).map fun x => (.lifecycle x.1, x.2)
  | .wait c => (f.meet i ch (c.demand ch.now)).map fun x => (.wait x.1, x.2)

-- ============================================================ events

/-- What happens beside the calls. -/
inductive Aside
  /-- The store goes out of reach, or comes back. -/
  | outage (on : Bool)
  /-- The clock moves on. -/
  | clock (t : Timestamp)
  /-- A replica subscribes to allocations. -/
  | listen (replica : Nat) (name : String) (options : SubscriptionOptions)
  /-- Somebody else subscribes, to whatever topic. -/
  | subscribe (topic name : String) (options : SubscriptionOptions)
  /-- The handle of a subscription is dropped. -/
  | unsubscribe (subscription : Nat)
  /-- Somebody publishes on another topic. -/
  | publish (topic : String) (payload : Json)
  /-- A turn of a subscription's receive loop. -/
  | turn (subscription : Nat)
  /-- A delivery runs; a handler that is no replica's ends as `other`. -/
  | deliver (k : Nat) (other : DeliveryEnd)
  /-- A message that was published once is handled on a replica. -/
  | redeliver (replica : Nat) (name : String) (k : Nat)
  /-- A replica's entry for a machine is taken away from outside. -/
  | remove (replica : Nat) (machine : String)
  /-- A replica's signal is closed from outside. -/
  | close (replica generation : Nat)

/-- What happens. -/
inductive Event
  /-- A lifecycle call begins. -/
  | submit (replica : Nat) (retry : RetrySettings) (machine : String)
      (op : Operation)
  /-- A wait call begins. -/
  | await (replica : Nat) (node : String) (settings : WaitSettings)
      (retry : RetrySettings) (machine : String)
  /-- A call takes its next step. -/
  | step (i : Nat) (ch : Choice)
  /-- The deadline of a wait call passes. -/
  | expire (i : Nat)
  /-- A call is given up where it stands. -/
  | drop (i : Nat)
  | aside (a : Aside)

/-- The call whose step an event is. -/
def Event.caller? : Event → Option Nat
  | step i _ | expire i | drop i => some i
  | _ => none

/-- Does the store do what it answers? -/
def Event.faithful : Event → Bool
  | step _ ch => ch.faithful
  | _ => true

-- ======================================================== the effects

/-- The signals of a replica replaced. -/
def setRegistry (f : Fleet) (i : Nat) (r : Registry) : Fleet :=
  { f with registries := Function.update f.registries i r }

/-- The call of a number replaced. -/
def setSlot (f : Fleet) (i : Nat) (s : Slot) : Fleet :=
  { f with slots := f.slots.set i s }

/-- A call takes its next step. -/
def advance (f : Fleet) (i : Nat) (ch : Choice) : Fleet :=
  match f.slots[i]? with
  | none => f
  | some s =>
      if s.dropped then f
      else
        match f.meetTask s.replica ch s.task with
        | none => f
        | some (t, g) => g.setSlot i { s with task := t }

/-- Is a wait call's outcome still open, and the call under its
deadline? -/
def underDeadline : Wait.Stage → Bool
  | .opening | .closing _ | .ended _ => false
  | _ => true

/-- The deadline of a wait call passes. -/
def expire (f : Fleet) (i : Nat) : Fleet :=
  match f.slots[i]? with
  | some ⟨r, .wait c, false⟩ =>
      if underDeadline c.stage then
        (f.move r c.expire).2.setSlot i
          ⟨r, .wait (f.move r c.expire).1, false⟩
      else f
  | _ => f

/-- A call is given up where it stands. -/
def giveUp (f : Fleet) (i : Nat) : Fleet :=
  match f.slots[i]? with
  | some ⟨r, .wait c, false⟩ =>
      (f.move r fun l => ((), c.abandon l)).2.setSlot i ⟨r, .wait c, true⟩
  | some ⟨r, .lifecycle c, false⟩ => f.setSlot i ⟨r, .lifecycle c, true⟩
  | _ => f

/-- A subscription is made, for a replica or for somebody else. -/
def enroll (f : Fleet) (topic name : String)
    (options : SubscriptionOptions) (handler : Option Nat) : Fleet :=
  match f.bus.subscribe topic name options with
  | (.ok _, bus) => { f with bus, handlers := f.handlers ++ [handler] }
  | (.error _, _) => f

/-- The name of a subscription. -/
def nameOf (f : Fleet) (s : Nat) : String :=
  (f.bus.subscriptions[s]?.map Subscription.name).getD ""

/-- A replica handles a payload of the allocation topic. -/
def handle (f : Fleet) (i : Nat) (name : String) (payload : Json) :
    DeliveryEnd × Fleet :=
  (match (f.move i (Notifier.handle name payload)).1 with
    | .ok _ => .handled
    | .error e => .failed e,
    (f.move i (Notifier.handle name payload)).2)

/-- A delivery is over. -/
def conclude (f : Fleet) (s : Nat) (m : Envelope) (e : DeliveryEnd) :
    Fleet :=
  { f with
    bus := f.bus.finish s
    ambient := e.report (f.nameOf s) m.id f.ambient }

/-- A delivery runs. -/
def deliver (f : Fleet) (k : Nat) (other : DeliveryEnd) : Fleet :=
  match f.deliveries[k]? with
  | none => f
  | some (s, m) =>
      let g := { f with deliveries := f.deliveries.eraseIdx k }
      match f.handlers[s]? with
      | some (some i) =>
          (g.handle i (g.nameOf s) m.payload).2.conclude s m
            (g.handle i (g.nameOf s) m.payload).1
      | _ => g.conclude s m other

/-- What an event beside the calls makes of a fleet. -/
def happen (f : Fleet) : Aside → Fleet
  | .outage on => { f with store := { f.store with offline := on } }
  | .clock t =>
      if f.ambient.clock < t then
        { f with ambient := { f.ambient with clock := t } }
      else f
  | .listen i name options => f.enroll f.topic name options (some i)
  | .subscribe topic name options => f.enroll topic name options none
  | .unsubscribe s => { f with bus := f.bus.cancel s }
  | .publish topic payload =>
      if topic = f.topic then f else f.post topic payload
  | .turn s =>
      match f.bus.turn s f.ambient with
      | none => f
      | some (m, bus, ambient) =>
          { f with
            bus, ambient
            deliveries := f.deliveries ++ (m.map fun m => (s, m)).toList }
  | .deliver k other => f.deliver k other
  | .redeliver i name k =>
      match f.posted[k]? with
      | some (topic, payload) =>
          if topic = f.topic then (f.handle i name payload).2 else f
      | none => f
  | .remove i machine =>
      f.setRegistry i ((f.registries i).remove machine)
  | .close i g => f.setRegistry i ((f.registries i).close g)

/-- What an event makes of a fleet; one that cannot happen leaves it as
it is. -/
def step (f : Fleet) : Event → Fleet
  | .submit r retry machine op =>
      { f with slots := f.slots ++
          [⟨r, .lifecycle (.start retry f.topic machine op), false⟩] }
  | .await r node settings retry machine =>
      { f with slots := f.slots ++
          [⟨r, .wait { machine, node, settings, retry }, false⟩] }
  | .step i ch => f.advance i ch
  | .expire i => f.expire i
  | .drop i => f.giveUp i
  | .aside a => f.happen a

-- ========================================================= histories

/-- What a fleet starts from: no records, no calls, no subscriptions. -/
structure Setting where
  topic : String
  /-- How many messages of a topic can be read at least. -/
  capacity : Nat
  ambient : Ambient

/-- The fleet before anything has happened. -/
def initial (s : Setting) : Fleet :=
  { topic := s.topic, ambient := s.ambient,
    bus := .withCapacity s.capacity }

/-- A fleet with nothing special about it, to try histories on. -/
def lab : Setting where
  topic := "machine.allocation"
  capacity := 16
  ambient := { clock := ⟨0, 0⟩ }

/-- Retries without jitter, for the same purpose. -/
def labRetry : RetrySettings :=
  { maxAttempts := 3, jitter := .zero false, precision := .exact }

/-- Events, the latest first, so that the histories up to earlier
moments are the tails. -/
abbrev History := List Event

/-- The fleet after a history. -/
def after (s : Setting) : History → Fleet
  | [] => initial s
  | e :: h => (after s h).step e

/-- Does the store do what it answers, all along? -/
def Faithful (h : History) : Prop := ∀ e ∈ h, e.faithful = true

end Fleet

end ControlPlane
