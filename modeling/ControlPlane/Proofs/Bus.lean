/-
What the operations of the bus in memory do, seen through `messages`
(all that was ever kept of a topic) and `subscriptions`. A topic's
messages only grow, at the end; a subscription changes by its own turns,
by the end of one of its deliveries, and by the drop of its handle.

# The way of a message

A message that a subscription is to get lies at some place among the
messages, at or ahead of the cursor; a turn takes it to the dispatcher,
where it waits, and another turn starts its delivery. A turn can also
pass it by, for two reasons only: the subscription lags, or the message
is too old (`turn_cases`).

Chain: the base layer for the news of Fleet/News.lean, for the copies of
NoLostWakeup.lean and for FanOut.lean; sibling of Signals.lean.
-/
import ControlPlane.Bus.Memory
import ControlPlane.Proofs.Clock

namespace ControlPlane.MemoryBus

variable {b : MemoryBus} {a : Ambient} {topic : String} {i : Nat}

-- ======================================================== publishing

/-- What `publish` puts among the messages. -/
def draft (topic : String) (payload : Json) (a : Ambient) : Envelope :=
  ⟨a.uuid.1, topic, a.uuid.2.now.1, payload⟩

@[simp] theorem publish_subscriptions (payload : Json) :
    (b.publish topic payload a).1.subscriptions = b.subscriptions := by
  simp only [publish]
  split <;> rfl

@[simp] theorem publish_capacity (payload : Json) :
    (b.publish topic payload a).1.capacity = b.capacity := by
  simp only [publish]
  split <;> rfl

/-- A message is kept for a topic that somebody receives. -/
theorem publish_messages (payload : Json) (t : String) :
    (b.publish topic payload a).1.messages t
      = if b.hasReceiver topic = true ∧ topic = t then
          (b.messages topic).push (draft topic payload a)
        else b.messages t := by
  unfold publish
  by_cases hr : b.hasReceiver topic = true
  · by_cases ht : topic = t
    · subst ht
      simp [hr, messages, draft]
    · simp [hr, messages, ht]
  · simp [hr]

theorem publish_clock (payload : Json) :
    a.clock ≤ (b.publish topic payload a).2.clock := by
  have h : a.clock ≤ a.uuid.2.now.2.clock := a.uuid.2.clock_le_now
  simp only [publish]
  split
  · exact h
  · exact h

-- ======================================================= subscribing

/-- The subscription that `subscribe` adds. -/
def newcomer (b : MemoryBus) (topic name : String)
    (options : SubscriptionOptions) : Subscription :=
  { topic, dispatcher := { subscription := name, options, checkAge := true }
    cursor := (b.messages topic).size }

/-- Subscribing adds one subscription at the end, or fails. -/
theorem subscribe_cases (b : MemoryBus) (topic name : String)
    (options : SubscriptionOptions) :
    (∃ e, b.subscribe topic name options = (.error e, b))
      ∨ ∃ bus, b.subscribe topic name options
          = (.ok b.subscriptions.length, bus)
        ∧ bus.topics = b.topics ∧ bus.capacity = b.capacity
        ∧ bus.subscriptions
          = b.subscriptions ++ [b.newcomer topic name options] := by
  unfold subscribe
  split
  · exact Or.inl ⟨_, rfl⟩
  · exact Or.inr ⟨_, rfl, rfl, rfl, rfl⟩

-- =========================================================== turning

theorem modify_get? (g : Subscription → Subscription) (j : Nat) :
    (b.modify i g).subscriptions[j]?
      = if i = j then b.subscriptions[j]?.map g
        else b.subscriptions[j]? := by
  show (b.subscriptions.modify i g)[j]? = _
  rw [List.getElem?_modify]
  split <;> simp

@[simp] theorem modify_length (g : Subscription → Subscription) :
    (b.modify i g).subscriptions.length = b.subscriptions.length :=
  List.length_modify ..

/-- What a turn of the receive loop of a subscription can be: the
message whose delivery begins, and the subscription after it. -/
inductive Turn (b : MemoryBus) (a : Ambient) (s : Subscription) :
    Option Envelope → Subscription → Prop
  /-- The message that waited is handed to the handler. -/
  | started {m d} (hw : s.dispatcher.waiting = some m)
      (hd : d.waiting = none) :
      Turn b a s (some m) { s with dispatcher := d }
  /-- The loop ends. -/
  | closed (hw : s.dispatcher.waiting = none) (hc : s.cancelled = true) :
      Turn b a s none { s with ended := true }
  /-- Messages were lost to the ones behind them. -/
  | lagged {next} (hw : s.dispatcher.waiting = none)
      (hn : next = (b.messages s.topic).size - b.capacity)
      (hc : s.cursor < next) :
      Turn b a s none { s with cursor := next }
  /-- The next message was too old. -/
  | expired {m} (hw : s.dispatcher.waiting = none)
      (hm : (b.messages s.topic)[s.cursor]? = some m)
      (ttl : m.isExpiredAt s.dispatcher.options.messageTtl a.now.1
        = true) :
      Turn b a s none { s with cursor := s.cursor + 1 }
  /-- The next message waits for a slot. -/
  | taken {m d} (hw : s.dispatcher.waiting = none)
      (hm : (b.messages s.topic)[s.cursor]? = some m)
      (hd : d.waiting = some m) :
      Turn b a s none { s with cursor := s.cursor + 1, dispatcher := d }

/-- A turn keeps the topic, and the handle as it is. -/
theorem Turn.same {s s' : Subscription} {m : Option Envelope}
    (h : b.Turn a s m s') :
    s'.topic = s.topic ∧ s'.cancelled = s.cancelled := by
  cases h <;> exact ⟨rfl, rfl⟩

/-- A cursor never gets ahead of the messages. -/
theorem Turn.cursor_le {s s' : Subscription} {m : Option Envelope}
    (h : b.Turn a s m s')
    (hs : s.cursor ≤ (b.messages s.topic).size) :
    s'.cursor ≤ (b.messages s.topic).size := by
  cases h with
  | started hw hd => exact hs
  | closed hw hc => exact hs
  | lagged hw hn hc => exact hn ▸ Nat.sub_le _ _
  | expired hw hm ttl => exact (Array.getElem?_eq_some_iff.mp hm).1
  | taken hw hm hd => exact (Array.getElem?_eq_some_iff.mp hm).1

theorem accept_cases (d : Dispatcher) (m : Envelope) (a : Ambient) :
    a.clock ≤ (d.accept m a).2.clock
      ∧ (((d.accept m a).1 = d
          ∧ m.isExpiredAt d.options.messageTtl a.now.1 = true)
        ∨ (d.accept m a).1.waiting = some m) := by
  cases hd : d.checkAge with
  | false =>
      simp only [Dispatcher.accept, hd, Bool.false_and]
      exact ⟨le_refl _, Or.inr rfl⟩
  | true =>
      simp only [Dispatcher.accept, hd, Bool.true_and, if_true]
      by_cases he : m.isExpiredAt d.options.messageTtl a.now.1 = true
      · rw [if_pos he]
        exact ⟨a.clock_le_now, Or.inl ⟨rfl, he⟩⟩
      · rw [if_neg he]
        exact ⟨a.clock_le_now, Or.inr rfl⟩

theorem start_cases {d d' : Dispatcher} {m : Envelope}
    (h : d.start = some (m, d')) :
    d.waiting = some m ∧ d'.waiting = none := by
  unfold Dispatcher.start at h
  split at h
  · rename_i hw
    split at h
    · cases h
      exact ⟨hw, rfl⟩
    · cases h
  · cases h

/-- A turn changes its own subscription only, and leaves all messages
where they are. -/
theorem turn_cases {m : Option Envelope} {bus : MemoryBus} {a' : Ambient}
    (h : b.turn i a = some (m, bus, a')) :
    ∃ s s', b.subscriptions[i]? = some s ∧ s.ended = false
      ∧ Turn b a s m s' ∧ bus.topics = b.topics
      ∧ bus.capacity = b.capacity
      ∧ bus.subscriptions = b.subscriptions.set i s'
      ∧ a.clock ≤ a'.clock := by
  -- the loop modifies the subscription that it has just looked up
  have hset : ∀ (s s' : Subscription) (g : Subscription → Subscription),
      b.subscriptions[i]? = some s → g s = s' →
        b.subscriptions.modify i g = b.subscriptions.set i s' := by
    intro s s' g hs hg
    obtain ⟨hi, -⟩ := List.getElem?_eq_some_iff.mp hs
    apply List.ext_getElem?
    intro j
    rw [List.getElem?_modify, List.getElem?_set]
    by_cases hj : i = j
    · subst hj
      rw [hs, if_pos rfl, if_pos hi, ← hg]
      simp
    · rw [if_neg hj]
      simp [hj]
  unfold turn at h
  split at h
  · cases h
  · rename_i s hs
    split at h
    · cases h
    · rename_i hend
      have hend : s.ended = false := by simpa using hend
      split at h
      · split at h
        · rename_i m' d hst
          cases h
          obtain ⟨hw, hd⟩ := start_cases hst
          exact ⟨s, _, hs, hend, .started hw hd, rfl, rfl,
            hset s _ _ hs rfl, le_refl _⟩
        · cases h
      · rename_i hwait
        have hwait : s.dispatcher.waiting = none := by simpa using hwait
        split at h
        · rename_i hc
          cases h
          exact ⟨s, _, hs, hend, .closed hwait hc, rfl, rfl,
            hset s _ _ hs rfl, le_refl _⟩
        · unfold receive at h
          by_cases hlag : s.cursor + b.capacity
              < (b.messages s.topic).size
          · simp only [if_pos hlag] at h
            cases h
            exact ⟨s, _, hs, hend, .lagged hwait rfl (by omega), rfl, rfl,
              hset s _ _ hs rfl, le_refl _⟩
          · simp only [if_neg hlag] at h
            cases hm : (b.messages s.topic)[s.cursor]? with
            | none =>
                rw [hm] at h
                cases h
            | some m' =>
                rw [hm] at h
                obtain ⟨hclock, hacc⟩ := accept_cases s.dispatcher m' a
                cases h
                rcases hacc with ⟨hd, ttl⟩ | hd
                · refine ⟨s, _, hs, hend, .expired hwait hm ttl, rfl, rfl,
                    hset s _ _ hs ?_, hclock⟩
                  rw [hd]
                · exact ⟨s, _, hs, hend, .taken hwait hm hd, rfl, rfl,
                    hset s _ _ hs rfl, hclock⟩

end ControlPlane.MemoryBus
