/-
What one event does to a fleet. A step of a call is one of the cases of
Steps.lean; the deadline and the drop of a call let go of what it held;
all else leaves the calls, the records and the histories of machines
alone (`Apart`).

# Two ways to read an event

- `Happened` follows the event: an invariant of the whole fleet has one
  case for each of its constructors.
- `SlotStep` follows one call: a fact about a call after an event comes
  from the fact about it before, or from its beginning.

Chain: over Steps.lean and Bus.lean; everything said about histories
starts here.
-/
import ControlPlane.Proofs.Bus
import ControlPlane.Proofs.Fleet.Steps

namespace ControlPlane.Fleet

variable {f g : Fleet} {e : Event} {i r : Nat} {ch : Choice}
  {t t' : Task} {s s' : Slot}

-- ===================================================== beside the calls

theorem enroll_cases (f : Fleet) (topic name : String)
    (options : SubscriptionOptions) (handler : Option Nat) :
    f.enroll topic name options handler = f
      ∨ ∃ bus, bus.topics = f.bus.topics ∧ bus.capacity = f.bus.capacity
        ∧ bus.subscriptions = f.bus.subscriptions
          ++ [f.bus.newcomer topic name options]
        ∧ f.enroll topic name options handler
          = { f with bus, handlers := f.handlers ++ [handler] } := by
  unfold enroll
  rcases f.bus.subscribe_cases topic name options with
    ⟨x, h⟩ | ⟨bus, h, ht, hc, hs⟩
  · rw [h]
    exact Or.inl rfl
  · rw [h]
    exact Or.inr ⟨bus, ht, hc, hs, rfl⟩

/-- The machine that a payload of the allocation topic tells of. -/
def told? (payload : Json) : Option String :=
  (Json.decode? AllocationEvent.form.read payload).map
    AllocationEvent.machineId

theorem told_payload (m : String) :
    told? (Notifier.payload m) = some m := rfl

/-- A payload that tells of a machine has its signal fired, and any
other payload changes nothing. -/
def heard (f : Fleet) (i : Nat) (payload : Json) : Fleet :=
  match told? payload with
  | some m => f.setRegistry i ((f.registries i).notified m)
  | none => f

theorem wake_registry (name m : String) (l : Local) :
    (Notifier.wake name m l).2.registry = l.registry.notified m
      ∧ (Notifier.wake name m l).2.ambient.clock = l.ambient.clock := by
  unfold Notifier.wake Registry.notified
  cases l.registry.lookup m with
  | none => exact ⟨rfl, rfl⟩
  | some g => exact ⟨rfl, rfl⟩

theorem handle_still (f : Fleet) (i : Nat) (name : String)
    (payload : Json) :
    Still (f.heard i payload) (f.handle i name payload).2 := by
  show Still _ (f.move i (Notifier.handle name payload)).2
  unfold heard told?
  cases h : Json.decode? AllocationEvent.form.read payload with
  | none =>
      have hq : Quiet (Notifier.handle name payload) := by
        intro l
        simp only [Notifier.handle, h]
        exact ⟨trivial, le_refl _⟩
      exact still_of_quiet hq
  | some event =>
      have hk : Notifier.handle name payload
          = fun l => (.ok (), (Notifier.wake name event.machineId l).2) := by
        funext l
        simp only [Notifier.handle, h]
      rw [hk]
      have hw := wake_registry name event.machineId
        ⟨f.registries i, f.ambient⟩
      exact still_of_registry (f := f) (i := i) hw.1 (le_of_eq hw.2.symm)

theorem heard_eq (f : Fleet) (i : Nat) (payload : Json) :
    ∃ reg, f.heard i payload = f.setRegistry i reg := by
  unfold heard
  cases told? payload with
  | none => exact ⟨_, setRegistry_eq_self.symm⟩
  | some m => exact ⟨_, rfl⟩

/-- What comes to a subscription is heard by its replica, if it is one's
subscription. -/
def received (f : Fleet) (s : Nat) (payload : Json) : Fleet :=
  match f.handlers[s]? with
  | some (some i) => f.heard i payload
  | _ => f

theorem received_heard {k : Nat} {payload : Json}
    (h : f.handlers[k]? = some (some i)) :
    f.received k payload = f.heard i payload := by
  unfold received
  rw [h]

theorem received_cases (f : Fleet) (k : Nat) (payload : Json) :
    f.received k payload = f
      ∨ ∃ i, f.handlers[k]? = some (some i)
          ∧ f.received k payload = f.heard i payload := by
  unfold received
  match h : f.handlers[k]? with
  | some (some i) => exact Or.inr ⟨i, rfl, rfl⟩
  | some none => exact Or.inl rfl
  | none => exact Or.inl rfl

/-- Only signals change by what is received. -/
theorem received_eq (f : Fleet) (k : Nat) (payload : Json) :
    ∃ i reg, f.received k payload = f.setRegistry i reg := by
  rcases f.received_cases k payload with h | ⟨i, -, h⟩
  · exact ⟨0, _, h.trans setRegistry_eq_self.symm⟩
  · obtain ⟨reg, hreg⟩ := f.heard_eq i payload
    exact ⟨i, reg, h.trans hreg⟩

/-- A delivery that runs is over afterwards, and only its own replica
hears of the message. -/
theorem deliver_cases (f : Fleet) (k : Nat) (other : DeliveryEnd) :
    (f.deliveries[k]? = none ∧ f.deliver k other = f)
      ∨ ∃ s m, f.deliveries[k]? = some (s, m)
        ∧ Still
          { f.received s m.payload with
            deliveries := f.deliveries.eraseIdx k
            bus := f.bus.finish s }
          (f.deliver k other) := by
  have hreport : ∀ (d : DeliveryEnd) (name : String) (id : Uuid)
      (a : Ambient), a.clock ≤ (d.report name id a).clock := by
    intro d name id a
    unfold DeliveryEnd.report
    split <;> exact le_refl _
  unfold deliver
  cases hk : f.deliveries[k]? with
  | none => exact Or.inl ⟨rfl, rfl⟩
  | some p =>
      obtain ⟨s, m⟩ := p
      refine Or.inr ⟨s, m, rfl, ?_⟩
      unfold received
      match hh : f.handlers[s]? with
      | some (some j) =>
          obtain ⟨a, ha, hg⟩ := handle_still
            { f with deliveries := f.deliveries.eraseIdx k } j
            (Fleet.nameOf
              { f with deliveries := f.deliveries.eraseIdx k } s)
            m.payload
          simp only [hh, hg]
          unfold heard at ha ⊢
          cases hm : told? m.payload with
          | none =>
              rw [hm] at ha
              exact ⟨_, le_trans ha (hreport _ _ _ _), rfl⟩
          | some x =>
              rw [hm] at ha
              exact ⟨_, le_trans ha (hreport _ _ _ _), rfl⟩
      | some none =>
          simp only [hh]
          exact ⟨_, hreport _ _ _ _, rfl⟩
      | none =>
          simp only [hh]
          exact ⟨_, hreport _ _ _ _, rfl⟩

/-- What an event beside the calls can be, and the fleet after it. -/
inductive AsideStep (f : Fleet) : Aside → Fleet → Prop
  /-- Nothing happens. -/
  | idle {a} : AsideStep f a f
  | outage {on} : AsideStep f (.outage on)
      { f with store := { f.store with offline := on } }
  | clock {t : Timestamp} {g : Fleet} (hg : Still f g) :
    AsideStep f (.clock t) g
  /-- There is one subscription more, its handler a replica's on the
  allocation topic only. -/
  | enrolled {a topic name options handler bus}
      (ha : ∀ i, handler = some i → topic = f.topic)
      (ht : bus.topics = f.bus.topics)
      (hc : bus.capacity = f.bus.capacity)
      (hs : bus.subscriptions = f.bus.subscriptions
        ++ [f.bus.newcomer topic name options]) :
      AsideStep f a { f with bus, handlers := f.handlers ++ [handler] }
  | unsubscribed {s : Nat} :
      AsideStep f (.unsubscribe s) { f with bus := f.bus.cancel s }
  | posted {topic payload} (ht : topic ≠ f.topic) :
      AsideStep f (.publish topic payload) (f.post topic payload)
  /-- A subscription took a turn, and a delivery may have begun. -/
  | turned {m sub sub' bus ambient} {s : Nat}
      (hsub : f.bus.subscriptions[s]? = some sub)
      (hend : sub.ended = false) (hturn : f.bus.Turn f.ambient sub m sub')
      (ht : bus.topics = f.bus.topics)
      (hc : bus.capacity = f.bus.capacity)
      (hs : bus.subscriptions = f.bus.subscriptions.set s sub')
      (ha : f.ambient.clock ≤ ambient.clock) :
      AsideStep f (.turn s)
        { f with
          bus, ambient
          deliveries := f.deliveries ++ (m.map fun m => (s, m)).toList }
  | delivered {k other m} {s : Nat} {g : Fleet}
      (hk : f.deliveries[k]? = some (s, m))
      (hg : Still
        { f.received s m.payload with
          deliveries := f.deliveries.eraseIdx k
          bus := f.bus.finish s } g) :
      AsideStep f (.deliver k other) g
  | redelivered {name k payload} {i : Nat} {g : Fleet}
      (hk : f.posted[k]? = some (f.topic, payload))
      (hg : Still (f.heard i payload) g) :
      AsideStep f (.redeliver i name k) g
  | removed {m} {i : Nat} : AsideStep f (.remove i m)
      (f.setRegistry i ((f.registries i).remove m))
  | closed {i k : Nat} : AsideStep f (.close i k)
      (f.setRegistry i ((f.registries i).close k))

theorem aside_step (f : Fleet) (a : Aside) : AsideStep f a (f.happen a) := by
  cases a with
  | outage on => exact .outage
  | clock t =>
      simp only [happen]
      split
      · rename_i h
        exact .clock ⟨_, le_of_lt h, rfl⟩
      · exact .idle
  | listen i name options =>
      simp only [happen]
      rcases f.enroll_cases f.topic name options (some i) with
        h | ⟨bus, ht, hc, hs, h⟩
      · rw [h]
        exact .idle
      · rw [h]
        exact .enrolled (fun _ _ => rfl) ht hc hs
  | subscribe topic name options =>
      simp only [happen]
      rcases f.enroll_cases topic name options none with
        h | ⟨bus, ht, hc, hs, h⟩
      · rw [h]
        exact .idle
      · rw [h]
        exact .enrolled (fun _ h => by cases h) ht hc hs
  | unsubscribe s => exact .unsubscribed
  | publish topic payload =>
      simp only [happen]
      split
      · exact .idle
      · rename_i h
        exact .posted h
  | turn s =>
      simp only [happen]
      cases h : f.bus.turn s f.ambient with
      | none => exact .idle
      | some x =>
          obtain ⟨m, bus, a⟩ := x
          obtain ⟨sub, sub', hsub, hend, hturn, ht, hc, hs, ha⟩ :=
            MemoryBus.turn_cases h
          exact .turned hsub hend hturn ht hc hs ha
  | deliver k other =>
      simp only [happen]
      rcases f.deliver_cases k other with ⟨-, h⟩ | ⟨s, m, hk, hg⟩
      · rw [h]
        exact .idle
      · exact .delivered hk hg
  | redeliver i name k =>
      simp only [happen]
      split
      · rename_i topic payload hk
        split
        · rename_i ht
          subst ht
          exact .redelivered hk (f.handle_still i name payload)
        · exact .idle
      · exact .idle
  | remove i m => exact .removed
  | close i k => exact .closed

/-- What no event beside the calls changes. -/
structure Apart (f g : Fleet) : Prop where
  topic : g.topic = f.topic
  slots : g.slots = f.slots
  records : g.store.records = f.store.records
  revision : g.store.revision = f.store.revision
  events : g.events = f.events
  clock : f.ambient.clock ≤ g.ambient.clock

theorem Apart.refl (f : Fleet) : Apart f f :=
  ⟨rfl, rfl, rfl, rfl, rfl, le_refl _⟩

theorem Apart.still {f' : Fleet} (h : Apart f f') (hg : Still f' g) :
    Apart f g := by
  obtain ⟨a, ha, rfl⟩ := hg
  exact ⟨h.topic, h.slots, h.records, h.revision, h.events,
    le_trans h.clock ha⟩

theorem AsideStep.apart {a : Aside} (h : AsideStep f a g) : Apart f g := by
  cases h with
  | clock hg => exact (Apart.refl f).still hg
  | posted ht =>
      exact ⟨rfl, rfl, rfl, rfl, rfl, MemoryBus.publish_clock _⟩
  | turned hsub hend hturn ht hc hs ha =>
      exact ⟨rfl, rfl, rfl, rfl, rfl, ha⟩
  | @delivered k other m s g hk hg =>
      refine Apart.still ?_ hg
      obtain ⟨i, reg, hr⟩ := f.received_eq s m.payload
      rw [hr]
      exact ⟨rfl, rfl, rfl, rfl, rfl, le_refl _⟩
  | @redelivered name k payload i g hk hg =>
      refine Apart.still ?_ hg
      obtain ⟨reg, hr⟩ := f.heard_eq i payload
      rw [hr]
      exact ⟨rfl, rfl, rfl, rfl, rfl, le_refl _⟩
  | _ => exact ⟨rfl, rfl, rfl, rfl, rfl, le_refl _⟩

/-- The store goes out of reach, and comes back, with an event of its
own. -/
theorem AsideStep.offline {a : Aside} (h : AsideStep f a g)
    (ha : ∀ on, a ≠ .outage on) : g.store.offline = f.store.offline := by
  cases h with
  | @outage on => exact absurd rfl (ha on)
  | clock hg =>
      obtain ⟨a, -, rfl⟩ := hg
      rfl
  | @delivered k other m s g hk hg =>
      obtain ⟨a, -, rfl⟩ := hg
      obtain ⟨i, reg, hr⟩ := f.received_eq s m.payload
      rw [hr]
      rfl
  | @redelivered name k payload i g hk hg =>
      obtain ⟨a, -, rfl⟩ := hg
      obtain ⟨reg, hr⟩ := f.heard_eq i payload
      rw [hr]
      rfl
  | _ => rfl

-- ============================================================ all events

/-- What an event can be, and the fleet after it. -/
inductive Happened (f : Fleet) : Event → Fleet → Prop
  | submitted {retry m op} {r : Nat} : Happened f (.submit r retry m op)
      { f with slots := f.slots ++
        [⟨r, .lifecycle (.start retry f.topic m op), false⟩] }
  | awaited {node settings retry machine} {r : Nat} :
      Happened f (.await r node settings retry machine)
        { f with slots := f.slots ++
          [⟨r, .wait { machine, node, settings, retry }, false⟩] }
  | advanced {i r : Nat} {ch : Choice} {t t' : Task} {g : Fleet}
      (hi : f.slots[i]? = some ⟨r, t, false⟩)
      (ht : TaskStep f r t ch t' g) :
      Happened f (.step i ch) (g.setSlot i ⟨r, t', false⟩)
  | expired {i r : Nat} {c : Wait.Call} {g : Fleet}
      (hi : f.slots[i]? = some ⟨r, .wait c, false⟩)
      (hu : underDeadline c.stage = true)
      (hg : Still (f.setRegistry r
        ((f.registries r).vacated (Task.wait c).hold?)) g) :
      Happened f (.expire i) (g.setSlot i ⟨r,
        .wait (c.close (.error (.cancelled .deadlineExceeded))), false⟩)
  | dropped {i r : Nat} {t : Task} {g : Fleet}
      (hi : f.slots[i]? = some ⟨r, t, false⟩)
      (hg : Still (f.setRegistry r
        ((f.registries r).vacated t.hold?)) g) :
      Happened f (.drop i) (g.setSlot i ⟨r, t, true⟩)
  | aside {a : Aside} {g : Fleet} (h : AsideStep f a g) :
    Happened f (.aside a) g
  /-- The event cannot happen. -/
  | idle {e : Event} (he : e.caller?.isSome = true) : Happened f e f

/-- Giving a wait call up lets go of what it holds. -/
theorem abandon_still (f : Fleet) (i : Nat) (c : Wait.Call)
    {κ : Type} (x : κ) :
    Still (f.setRegistry i ((f.registries i).vacated (Task.wait c).hold?))
      (f.move i fun l => (x, c.abandon l)).2 := by
  have h : ∀ l : Local,
      (c.abandon l).registry = l.registry.vacated (Task.wait c).hold?
        ∧ (c.abandon l).ambient.clock = l.ambient.clock := by
    intro l
    simp only [Wait.Call.abandon, Task.hold?]
    cases c.stage.block? with
    | none => exact ⟨rfl, rfl⟩
    | some b => exact ⟨rfl, rfl⟩
  exact still_of_registry (h _).1 (le_of_eq (h ⟨_, f.ambient⟩).2.symm)

theorem happened (f : Fleet) (e : Event) : Happened f e (f.step e) := by
  cases e with
  | submit r retry m op => exact .submitted
  | await r node settings retry m => exact .awaited
  | aside a => exact .aside (f.aside_step a)
  | step i ch =>
      simp only [step, advance]
      cases hi : f.slots[i]? with
      | none => exact .idle rfl
      | some s =>
          obtain ⟨r, t, d⟩ := s
          cases d with
          | true => exact .idle rfl
          | false =>
              cases hm : f.meetTask r ch t with
              | none =>
                  simp only [hm]
                  exact .idle rfl
              | some x =>
                  obtain ⟨t', g⟩ := x
                  simp only [hm]
                  exact .advanced hi (task_step hm)
  | expire i =>
      simp only [step, expire]
      split
      · rename_i r c hi
        split
        · rename_i hu
          exact .expired hi hu (f.abandon_still r c _)
        · exact .idle rfl
      · exact .idle rfl
  | drop i =>
      simp only [step, giveUp]
      split
      · rename_i r c hi
        exact .dropped hi (f.abandon_still r c _)
      · rename_i r c hi
        refine .dropped hi ?_
        have h : f.setRegistry r ((f.registries r).vacated
            (Task.lifecycle c).hold?) = f := setRegistry_eq_self
        rw [h]
        exact Still.refl f
      · exact .idle rfl

end ControlPlane.Fleet
