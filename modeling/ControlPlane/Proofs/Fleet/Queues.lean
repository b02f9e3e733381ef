/-
The queues of the subscriptions, through all that happens. Every
subscription reads the messages of its topic at its own cursor; this
module follows one of them from event to event (`queue_step`), as
`SlotStep` follows a call. Between two moments its queue can only grow
at the end, its cursor only moves in its own turns, and what it takes
goes to its dispatcher and from there to a delivery.

# What never goes wrong

- A cursor is never ahead of the messages (`queued`), so a message that
  is published to a live subscription lies ahead of its cursor.
- A receive loop ends only after the handle was dropped, and a dropped
  handle stays dropped.
- A delivery that was begun stays until it runs (`delivery_step`).

Chain: over Events.lean and Bus.lean, sibling of News.lean; consumed by
NoLostWakeup.lean.
-/
import ControlPlane.Proofs.Fleet.History

namespace ControlPlane.Fleet

variable {s : Setting} {f g : Fleet} {e : Event} {h p : History}
  {k : Nat} {q q' : Subscription} {m : Envelope}

-- ============================================================== the bus

/-- What an event can be to the bus. -/
inductive BusStep (f : Fleet) : Event → Fleet → Prop
  | same {e : Event} {g : Fleet} (hb : g.bus = f.bus) : BusStep f e g
  | posted {e : Event} {topic : String} {payload : Json} {g : Fleet}
      (hb : g.bus = (f.post topic payload).bus) : BusStep f e g
  | enrolled {e : Event} {topic name : String}
      {options : SubscriptionOptions} {g : Fleet}
      (ht : g.bus.topics = f.bus.topics)
      (hc : g.bus.capacity = f.bus.capacity)
      (hs : g.bus.subscriptions = f.bus.subscriptions
        ++ [f.bus.newcomer topic name options]) : BusStep f e g
  | cancelled {e : Event} {n : Nat} {g : Fleet}
      (hb : g.bus = f.bus.cancel n) : BusStep f e g
  | finished {e : Event} {n : Nat} {g : Fleet}
      (hb : g.bus = f.bus.finish n) : BusStep f e g
  /-- A subscription takes a turn, and the delivery that it begins, if
  it begins one, is under way. -/
  | turned {n : Nat} {q q' : Subscription} {m : Option Envelope}
      {g : Fleet} (hq : f.bus.subscriptions[n]? = some q)
      (hend : q.ended = false) (hturn : f.bus.Turn f.ambient q m q')
      (ht : g.bus.topics = f.bus.topics)
      (hc : g.bus.capacity = f.bus.capacity)
      (hs : g.bus.subscriptions = f.bus.subscriptions.set n q')
      (hd : ∀ x, m = some x → (n, x) ∈ g.deliveries) :
      BusStep f (.aside (.turn n)) g

theorem bus_step (f : Fleet) (e : Event) : BusStep f e (f.step e) := by
  have hh := happened f e
  generalize f.step e = g at hh
  cases hh with
  | submitted => exact .same rfl
  | awaited => exact .same rfl
  | advanced hi ht =>
      rcases ht.posts with ⟨hb, -⟩ | ⟨c, x, -, -, hb, -⟩
      · exact .same hb
      · exact .posted hb
  | expired hi hu hg =>
      obtain ⟨a, -, rfl⟩ := hg
      exact .same rfl
  | dropped hi hg =>
      obtain ⟨a, -, rfl⟩ := hg
      exact .same rfl
  | idle he => exact .same rfl
  | aside ha =>
      cases ha with
      | clock hg =>
          obtain ⟨a, -, rfl⟩ := hg
          exact .same rfl
      | enrolled ha ht hc hs => exact .enrolled ht hc hs
      | unsubscribed => exact .cancelled rfl
      | posted hne => exact .posted rfl
      | @turned m q q' bus a n hq hend hturn ht hc hs ha =>
          refine .turned hq hend hturn ht hc hs ?_
          rintro x rfl
          exact List.mem_append_right _ (List.mem_singleton.mpr rfl)
      | delivered hk hg =>
          obtain ⟨a, -, rfl⟩ := hg
          exact .finished rfl
      | @redelivered name k payload i g hk hg =>
          obtain ⟨reg, hr⟩ := f.heard_eq i payload
          rw [hr] at hg
          obtain ⟨a, -, rfl⟩ := hg
          exact .same rfl
      | _ => exact .same rfl

/-- The messages of a topic only grow, at the end. -/
theorem BusStep.messages (h : BusStep f e g) (t : String) :
    g.bus.messages t = f.bus.messages t
      ∨ ∃ x, g.bus.messages t = (f.bus.messages t).push x := by
  have hsame : g.bus.topics = f.bus.topics →
      g.bus.messages t = f.bus.messages t := by
    intro ht
    simp only [MemoryBus.messages, ht]
  cases h with
  | same hb => exact Or.inl (by rw [hb])
  | @posted _ topic payload _ hb =>
      rw [hb, show (f.post topic payload).bus
        = (f.bus.publish topic payload f.ambient).1 from rfl,
        MemoryBus.publish_messages]
      split
      · rename_i ht
        rw [ht.2]
        exact Or.inr ⟨_, rfl⟩
      · exact Or.inl rfl
  | enrolled ht hc hs => exact Or.inl (hsame ht)
  | cancelled hb => exact Or.inl (hsame (by rw [hb]; rfl))
  | finished hb => exact Or.inl (hsame (by rw [hb]; rfl))
  | turned hq hend hturn ht hc hs hd => exact Or.inl (hsame ht)

theorem BusStep.size_le (h : BusStep f e g) (t : String) :
    (f.bus.messages t).size ≤ (g.bus.messages t).size := by
  rcases h.messages t with hm | ⟨x, hm⟩
  · rw [hm]
  · rw [hm, Array.size_push]
    exact Nat.le_succ _

/-- A message keeps its place. -/
theorem BusStep.place (h : BusStep f e g) {t : String} {n : Nat}
    (hm : (f.bus.messages t)[n]? = some m) :
    (g.bus.messages t)[n]? = some m := by
  rcases h.messages t with ht | ⟨x, ht⟩
  · rw [ht, hm]
  · obtain ⟨hlt, -⟩ := Array.getElem?_eq_some_iff.mp hm
    rw [ht, Array.getElem?_push, if_neg (Nat.ne_of_lt hlt), hm]

-- ==================================================== one subscription

/-- What an event can make of subscription `k`. -/
inductive QueueStep (f : Fleet) (k : Nat) (q : Subscription) :
    Event → Subscription → Fleet → Prop
  | same {e : Event} {g : Fleet} : QueueStep f k q e q g
  | cancelled {e : Event} {g : Fleet} :
      QueueStep f k q e { q with cancelled := true } g
  | finished {e : Event} {g : Fleet} :
      QueueStep f k q e { q with dispatcher := q.dispatcher.finish } g
  | turned {q' : Subscription} {m : Option Envelope} {g : Fleet}
      (hend : q.ended = false) (hturn : f.bus.Turn f.ambient q m q')
      (hd : ∀ x, m = some x → (k, x) ∈ g.deliveries) :
      QueueStep f k q (.aside (.turn k)) q' g

/-- A subscription stays a subscription. -/
theorem BusStep.queue (h : BusStep f e g)
    (hq : f.bus.subscriptions[k]? = some q) :
    ∃ q', g.bus.subscriptions[k]? = some q'
      ∧ QueueStep f k q e q' g := by
  obtain ⟨hlt, -⟩ := List.getElem?_eq_some_iff.mp hq
  cases h with
  | same hb => exact ⟨q, by rw [hb, hq], .same⟩
  | @posted _ topic payload _ hb =>
      refine ⟨q, ?_, .same⟩
      rw [hb, show (f.post topic payload).bus.subscriptions
        = f.bus.subscriptions from MemoryBus.publish_subscriptions _, hq]
  | enrolled ht hc hs =>
      refine ⟨q, ?_, .same⟩
      rw [hs, List.getElem?_append_left hlt, hq]
  | @cancelled _ n _ hb =>
      rw [hb, MemoryBus.cancel, MemoryBus.modify_get?, hq]
      by_cases hn : n = k
      · rw [if_pos hn]
        exact ⟨_, rfl, .cancelled⟩
      · rw [if_neg hn]
        exact ⟨q, rfl, .same⟩
  | @finished _ n _ hb =>
      rw [hb, MemoryBus.finish, MemoryBus.modify_get?, hq]
      by_cases hn : n = k
      · rw [if_pos hn]
        exact ⟨_, rfl, .finished⟩
      · rw [if_neg hn]
        exact ⟨q, rfl, .same⟩
  | @turned n q₀ q' m _ hq₀ hend hturn ht hc hs hd =>
      rw [hs, List.getElem?_set]
      by_cases hn : n = k
      · subst hn
        cases hq₀.symm.trans hq
        rw [if_pos rfl, if_pos hlt]
        exact ⟨q', rfl, .turned hend hturn hd⟩
      · rw [if_neg hn]
        exact ⟨q, hq, .same⟩

theorem QueueStep.topic (h : QueueStep f k q e q' g) :
    q'.topic = q.topic := by
  cases h with
  | turned hend hturn hd => exact hturn.same.1
  | _ => rfl

/-- A handle that was dropped stays dropped. -/
theorem QueueStep.cancelled_of (h : QueueStep f k q e q' g)
    (hq : q.cancelled = true) : q'.cancelled = true := by
  cases h with
  | same => exact hq
  | cancelled => rfl
  | finished => exact hq
  | turned hend hturn hd => rw [hturn.same.2, hq]

/-- A subscription was there before, or is a new one. -/
theorem BusStep.queue_before (h : BusStep f e g)
    (hq : g.bus.subscriptions[k]? = some q') :
    (∃ q, f.bus.subscriptions[k]? = some q)
      ∨ ∃ topic name options, q' = f.bus.newcomer topic name options := by
  obtain ⟨hlt, -⟩ := List.getElem?_eq_some_iff.mp hq
  have hold : k < f.bus.subscriptions.length →
      ∃ q, f.bus.subscriptions[k]? = some q :=
    fun hlt => ⟨_, List.getElem?_eq_getElem hlt⟩
  cases h with
  | same hb => exact Or.inl ⟨q', by rw [← hb, hq]⟩
  | @posted _ topic payload _ hb =>
      refine Or.inl ⟨q', ?_⟩
      rw [← hq, hb, show (f.post topic payload).bus.subscriptions
        = f.bus.subscriptions from MemoryBus.publish_subscriptions _]
  | enrolled ht hc hs =>
      by_cases hk : k < f.bus.subscriptions.length
      · exact Or.inl (hold hk)
      · right
        rw [hs, List.length_append, List.length_singleton] at hlt
        have heq : k = f.bus.subscriptions.length := by omega
        subst heq
        rw [hs, List.getElem?_append_right (Nat.le_refl _),
          Nat.sub_self] at hq
        exact ⟨_, _, _, (Option.some.inj hq).symm⟩
  | cancelled hb =>
      rw [hb, MemoryBus.cancel, MemoryBus.modify_length] at hlt
      exact Or.inl (hold hlt)
  | finished hb =>
      rw [hb, MemoryBus.finish, MemoryBus.modify_length] at hlt
      exact Or.inl (hold hlt)
  | turned hq₀ hend hturn ht hc hs hd =>
      rw [hs, List.length_set] at hlt
      exact Or.inl (hold hlt)

-- ============================================================== all along

/-- A subscription is not ahead of its topic, and does not end before
its handle is dropped. -/
structure Orderly (b : MemoryBus) (q : Subscription) : Prop where
  cursor : q.cursor ≤ (b.messages q.topic).size
  ended : q.ended = true → q.cancelled = true

theorem QueueStep.orderly (h : QueueStep f k q e q' g)
    (hb : BusStep f e g) (hq : Orderly f.bus q) : Orderly g.bus q' where
  cursor := by
    rw [h.topic]
    refine Nat.le_trans ?_ (hb.size_le q.topic)
    cases h with
    | turned hend hturn hd => exact hturn.cursor_le hq.cursor
    | _ => exact hq.cursor
  ended hend := by
    cases h with
    | same => exact hq.ended hend
    | cancelled => rfl
    | finished => exact hq.ended hend
    | turned hlive hturn hd =>
        cases hturn with
        | closed hw hc => exact hc
        | _ => cases hlive.symm.trans hend

theorem orderly (hq : (after s h).bus.subscriptions[k]? = some q) :
    Orderly (after s h).bus q := by
  induction h generalizing q with
  | nil => cases hq
  | cons e h ih =>
      rw [after_cons] at hq ⊢
      have hb := bus_step (after s h) e
      generalize (after s h).step e = g at hq hb ⊢
      rcases hb.queue_before hq with ⟨q₀, hq₀⟩ | ⟨topic, name, options, rfl⟩
      · obtain ⟨q₁, hq₁, hstep⟩ := hb.queue hq₀
        cases hq₁.symm.trans hq
        exact hstep.orderly hb (ih hq₀)
      · exact ⟨hb.size_le topic, fun hend => by cases hend⟩

/-- A handler stays where it was subscribed. -/
theorem handlers_step (e : Event) {x : Option Nat}
    (hx : f.handlers[k]? = some x) : (f.step e).handlers[k]? = some x := by
  have hh := happened f e
  generalize f.step e = g at hh
  cases hh with
  | @advanced i r ch t t' g hi ht =>
      show g.handlers[k]? = _
      rw [ht.frame.handlers, hx]
  | expired hi hu hg =>
      obtain ⟨a, -, rfl⟩ := hg
      exact hx
  | dropped hi hg =>
      obtain ⟨a, -, rfl⟩ := hg
      exact hx
  | aside ha =>
      cases ha with
      | clock hg =>
          obtain ⟨a, -, rfl⟩ := hg
          exact hx
      | enrolled ha ht hc hs =>
          obtain ⟨hlt, -⟩ := List.getElem?_eq_some_iff.mp hx
          show (f.handlers ++ _)[k]? = _
          rw [List.getElem?_append_left hlt, hx]
      | @delivered j other m n g hk hg =>
          obtain ⟨i, reg, hr⟩ := f.received_eq n m.payload
          rw [hr] at hg
          obtain ⟨a, -, rfl⟩ := hg
          exact hx
      | @redelivered name j payload i g hk hg =>
          obtain ⟨reg, hr⟩ := f.heard_eq i payload
          rw [hr] at hg
          obtain ⟨a, -, rfl⟩ := hg
          exact hx
      | _ => exact hx
  | _ => exact hx

/-- Between `f` and `g` the delivery of a message to subscription `k`
runs: a replica whose subscription it is hears of the message. -/
structure Delivers (f g : Fleet) (k : Nat) (m : Envelope) : Prop where
  slots : g.slots = f.slots
  heard : ∀ r, f.handlers[k]? = some (some r) →
    g.registries = (f.heard r m.payload).registries

/-- A delivery under way stays so until it runs. -/
theorem delivery_step (e : Event) (hm : (k, m) ∈ f.deliveries) :
    (k, m) ∈ (f.step e).deliveries ∨ Delivers f (f.step e) k m := by
  have hh := happened f e
  generalize f.step e = g at hh
  cases hh with
  | @advanced i r ch t t' g hi ht =>
      left
      show (k, m) ∈ g.deliveries
      rw [ht.frame.deliveries]
      exact hm
  | expired hi hu hg =>
      obtain ⟨a, -, rfl⟩ := hg
      exact Or.inl hm
  | dropped hi hg =>
      obtain ⟨a, -, rfl⟩ := hg
      exact Or.inl hm
  | aside ha =>
      have hslots := ha.apart.slots
      cases ha with
      | clock hg =>
          obtain ⟨a, -, rfl⟩ := hg
          exact Or.inl hm
      | turned => exact Or.inl (List.mem_append_left _ hm)
      | @delivered j other m' n g hj hg =>
          by_cases heq : (n, m') = (k, m)
          · cases heq
            refine Or.inr ⟨hslots, ?_⟩
            intro r hr
            rw [received_heard hr] at hg
            obtain ⟨a, -, rfl⟩ := hg
            rfl
          · -- another delivery runs: this one only moves up
            left
            obtain ⟨i, hi⟩ := List.getElem?_of_mem hm
            have hij : i ≠ j := by
              rintro rfl
              exact heq (Option.some.inj (hj.symm.trans hi))
            obtain ⟨a, -, rfl⟩ := hg
            exact List.mem_eraseIdx_iff_getElem?.mpr ⟨i, hij, hi⟩
      | @redelivered name j payload i g hk hg =>
          obtain ⟨reg, hr⟩ := f.heard_eq i payload
          rw [hr] at hg
          obtain ⟨a, -, rfl⟩ := hg
          exact Or.inl hm
      | _ => exact Or.inl hm
  | _ => exact Or.inl hm

end ControlPlane.Fleet
