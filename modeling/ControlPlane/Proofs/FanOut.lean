/-
What one subscription of the bus in memory receives. A topic keeps all
that is published while it has subscribers, and of these the latest
`room` can be read; every subscription has a cursor of its own. Read from
where a subscription joined, its cursor is a place among the messages
that were sent to it since (`passed`), and all that a turn of its loop
does is told by these messages and that place (`heard`).

So a loop takes messages in their order, each once, and passes a message
by only where as many later ones were sent as there is room for; and it
takes what it would take on a bus of its own (`fan_out`). What it took
waits for a slot before the handler is called with it, so that deliveries
start in the same order.

# What is left open

Publishing, subscribing, dropped handles, turns of the receive loops and
the ends of deliveries come in any order: a handler is as slow as the
history has it, and a loop whose slots are all taken waits. The clock and
the drawn identifiers are given anew with every event.

# The room
# A turn, by what is received
# Events
# What a subscription is sent and takes
# The cursor
# Deliveries
# On a bus of its own

Chain: Bus.lean → FanOut (this file).
-/
import Mathlib
import ControlPlane.Proofs.Bus

namespace ControlPlane

-- ============================================================ the room

namespace MemoryBus

/-- Doubling finds a power of two that is not below a number, and goes on
only as long as it is. -/
theorem roundUp_bounds (fuel p n : Nat) (h : n ≤ p * 2 ^ fuel) :
    (∃ k, roundUp fuel p n = p * 2 ^ k) ∧ n ≤ roundUp fuel p n
      ∧ (roundUp fuel p n = p ∨ roundUp fuel p n < 2 * n) := by
  induction fuel generalizing p with
  | zero =>
      have hle : n ≤ p := by simpa using h
      exact ⟨⟨0, by simp [roundUp]⟩, hle, Or.inl rfl⟩
  | succ fuel ih =>
      unfold roundUp
      split
      · rename_i hle
        exact ⟨⟨0, by simp⟩, hle, Or.inl rfl⟩
      · rename_i hlt
        obtain ⟨⟨k, hk⟩, hle, hsmall⟩ :=
          ih (2 * p) (by rw [pow_succ] at h; linarith)
        refine ⟨⟨k + 1, by rw [hk, pow_succ]; ring⟩, hle, Or.inr ?_⟩
        rcases hsmall with hsmall | hsmall
        · omega
        · exact hsmall

/-- How many messages of a topic can be read. -/
def room (n : UInt64) : Nat := (withCapacity n.toNat).capacity

/-- The room is the number that was asked for, at least one, rounded up
to a power of two. -/
theorem room_bounds (n : UInt64) :
    (∃ k, room n = 2 ^ k) ∧ max n.toNat 1 ≤ room n
      ∧ room n < 2 * max n.toNat 1 := by
  have hsize := n.toNat_lt
  obtain ⟨⟨k, hk⟩, hle, hsmall⟩ :=
    roundUp_bounds 64 1 (max n.toNat 1) (by omega)
  refine ⟨⟨k, by rw [room, withCapacity, hk, Nat.one_mul]⟩, hle, ?_⟩
  unfold room withCapacity
  simp only
  omega

end MemoryBus

-- ======================================== a turn, by what is received

namespace Received

/-- The message, if one is received. -/
def message? : Received → Option Envelope
  | message m => some m
  | _ => none

/-- How many messages it takes the cursor ahead. -/
def width : Received → Nat
  | nothing => 0
  | message _ => 1
  | lagged skipped _ => skipped

/-- The same, read from `n` messages further on. -/
def shift (n : Nat) : Received → Received
  | lagged skipped next => lagged skipped (n + next)
  | r => r

@[simp] theorem message?_shift (n : Nat) (r : Received) :
    (r.shift n).message? = r.message? := by
  cases r <;> rfl

@[simp] theorem width_shift (n : Nat) (r : Received) :
    (r.shift n).width = r.width := by
  cases r <;> rfl

end Received

namespace Subscription

/-- Is the loop about to receive? -/
def free (s : Subscription) : Bool :=
  ! s.ended && s.dispatcher.waiting.isNone && ! s.cancelled

/-- A turn of the loop, by what it would receive: the message whose
delivery it starts, and the subscription after it. -/
def turned (s : Subscription) (r : Received) (a : Ambient) :
    Option Envelope × Subscription :=
  if s.ended then (none, s)
  else if s.dispatcher.waiting.isSome then
    match s.dispatcher.start with
    | some (m, d) => (some m, { s with dispatcher := d })
    | none => (none, s)
  else if s.cancelled then (none, { s with ended := true })
  else
    match r with
    | .nothing => (none, s)
    | .lagged _ next => (none, { s with cursor := next })
    | .message m =>
      (none, { s with
        cursor := s.cursor + 1
        dispatcher := (s.dispatcher.accept m a).1 })

/-- The same subscription with its cursor elsewhere. -/
def moved (s : Subscription) (c : Nat) : Subscription :=
  { s with cursor := c }

/-- But for the cursor, a turn does not depend on where the messages are
counted from. -/
theorem turned_shift (s : Subscription) (c n n' : Nat) (r : Received)
    (a : Ambient) :
    ∃ c', (s.moved c).turned (r.shift n') a
      = ((s.turned (r.shift n) a).1,
        (s.turned (r.shift n) a).2.moved c') := by
  unfold turned moved
  simp only
  split
  · exact ⟨c, rfl⟩
  split
  · split
    · exact ⟨c, rfl⟩
    · exact ⟨c, rfl⟩
  split
  · exact ⟨c, rfl⟩
  cases r with
  | nothing => exact ⟨c, rfl⟩
  | message m => exact ⟨c + 1, rfl⟩
  | lagged skipped next => exact ⟨n' + next, rfl⟩

/-- A loop that is about to receive does so. -/
theorem turned_free {s : Subscription} (h : s.free = true) (r : Received)
    (a : Ambient) :
    (s.turned r a).2 = match r with
      | .nothing => s
      | .lagged _ next => { s with cursor := next }
      | .message m => { s with
          cursor := s.cursor + 1
          dispatcher := (s.dispatcher.accept m a).1 } := by
  simp only [free, Bool.and_eq_true, Bool.not_eq_true',
    Option.isNone_iff_eq_none] at h
  obtain ⟨⟨hrun, hwait⟩, hkept⟩ := h
  unfold turned
  rw [hrun, hwait, hkept]
  cases r <;> rfl

/-- A turn that is about something else leaves the cursor. -/
theorem turned_busy {s : Subscription} (h : s.free = false) (r : Received)
    (a : Ambient) : (s.turned r a).2.cursor = s.cursor := by
  unfold turned
  split
  · rfl
  split
  · split <;> rfl
  split
  · rfl
  · rename_i hrun hwait hkept
    simp_all [free]

theorem turned_ended {s : Subscription} (h : s.ended = true)
    (r : Received) (a : Ambient) : s.turned r a = (none, s) := by
  unfold turned
  rw [if_pos h]

theorem turned_topic (s : Subscription) (r : Received) (a : Ambient) :
    (s.turned r a).2.topic = s.topic := by
  unfold turned
  repeat' split
  all_goals rfl

/-- What a turn hands over was waiting, and what waits behind it was
waiting or is received. -/
theorem turned_waiting (s : Subscription) (r : Received) (a : Ambient) :
    ((s.turned r a).1.toList
        ++ (s.turned r a).2.dispatcher.waiting.toList).Sublist
      (s.dispatcher.waiting.toList
        ++ if s.free then r.message?.toList else []) := by
  have still : s.dispatcher.waiting.toList.Sublist
      (s.dispatcher.waiting.toList
        ++ if s.free then r.message?.toList else []) :=
    List.sublist_append_left _ _
  unfold turned
  split
  · exact still
  rename_i hrun
  split
  · cases hd : s.dispatcher.start with
    | none => exact still
    | some started =>
        obtain ⟨m, d⟩ := started
        obtain ⟨hwaits, hnone⟩ := MemoryBus.start_cases hd
        simp only [hnone]
        rw [hwaits] at still ⊢
        exact still
  rename_i hwait
  split
  · exact still
  rename_i hkept
  have hnone : s.dispatcher.waiting = none := by simpa using hwait
  have hfree : s.free = true := by simp_all [free]
  cases r with
  | nothing => exact still
  | lagged skipped next => exact still
  | message m =>
      -- unless it is too old, the message waits
      rcases (MemoryBus.accept_cases s.dispatcher m a).2 with ⟨hd, -⟩ | hd
      · simp [hd, hnone]
      · simp [hd, hnone, hfree, Received.message?]

end Subscription

namespace MemoryBus

variable {b : MemoryBus} {s s' : Subscription} {i : Nat} {a : Ambient}

/-- A turn of a loop is told by what it receives, and is nothing to the
others. -/
theorem turn_eq (hs : b.subscriptions[i]? = some s) (a : Ambient) :
    (b.turn i a).bind Prod.fst
        = (s.turned (b.receive s.topic s.cursor) a).1
      ∧ ∀ j, ((b.turn i a).elim b fun r => r.2.1).subscriptions[j]?
        = if i = j then
            some (s.turned (b.receive s.topic s.cursor) a).2
          else b.subscriptions[j]? := by
  -- the loop modifies the subscription that it has looked up
  have took : ∀ (g : Subscription → Subscription) (j : Nat),
      (b.modify i g).subscriptions[j]?
        = if i = j then some (g s) else b.subscriptions[j]? := by
    intro g j
    rw [modify_get?]
    split
    · rename_i hij
      rw [← hij, hs, Option.map_some]
    · rfl
  have still : ∀ j, b.subscriptions[j]?
      = if i = j then some s else b.subscriptions[j]? := by
    intro j
    split
    · rename_i hij
      rw [← hij, hs]
    · rfl
  unfold turn Subscription.turned
  rw [hs]
  simp only
  split
  · exact ⟨rfl, still⟩
  split
  · cases s.dispatcher.start with
    | none => exact ⟨rfl, still⟩
    | some started => exact ⟨rfl, took _⟩
  split
  · exact ⟨rfl, took _⟩
  cases b.receive s.topic s.cursor with
  | nothing => exact ⟨rfl, still⟩
  | lagged skipped next => exact ⟨rfl, took _⟩
  | message m => exact ⟨rfl, took _⟩

-- ============================================================== events

/-- What happens to a bus. -/
inductive Event
  | publish (topic : String) (payload : Json) (a : Ambient)
  | subscribe (topic name : String) (options : SubscriptionOptions)
  /-- The handle of a subscription is dropped, or it is closed. -/
  | drop (i : Nat)
  /-- A receive loop takes a turn, if it can. -/
  | turn (i : Nat) (a : Ambient)
  /-- A delivery of a subscription ends. -/
  | finish (i : Nat)

/-- What an event makes of a bus. -/
def step (b : MemoryBus) : Event → MemoryBus
  | .publish topic payload a => (b.publish topic payload a).1
  | .subscribe topic name options => (b.subscribe topic name options).2
  | .drop i => b.cancel i
  | .turn i a => (b.turn i a).elim b fun r => r.2.1
  | .finish i => b.finish i

/-- Events, the latest first. -/
abbrev History := List Event

/-- The bus after a history. -/
def after (n : UInt64) : History → MemoryBus
  | [] => withCapacity n.toNat
  | e :: h => (after n h).step e

variable {n : UInt64} {e : Event} {h p : History}

/-- What becomes of subscription `i` with an event. -/
def went (b : MemoryBus) (i : Nat) (s : Subscription) :
    Event → Subscription
  | .drop j => if j = i then { s with cancelled := true } else s
  | .turn j a =>
    if j = i then (s.turned (b.receive s.topic s.cursor) a).2 else s
  | .finish j =>
    if j = i then { s with dispatcher := s.dispatcher.finish } else s
  | _ => s

theorem went_topic (b : MemoryBus) (i : Nat) (s : Subscription)
    (e : Event) : (b.went i s e).topic = s.topic := by
  unfold went
  split
  · split <;> rfl
  · split
    · exact s.turned_topic _ _
    · rfl
  · split <;> rfl
  · rfl

/-- An ended loop stays so. -/
theorem went_ended (hs : s.ended = true) (b : MemoryBus) (i : Nat)
    (e : Event) : (b.went i s e).ended = true := by
  unfold went
  split
  · split <;> exact hs
  · split
    · rw [Subscription.turned_ended hs]
      exact hs
    · exact hs
  · split <;> exact hs
  · exact hs

/-- A subscription that is there is there after the event. -/
theorem step_get? (hs : b.subscriptions[i]? = some s) (e : Event) :
    (b.step e).subscriptions[i]? = some (b.went i s e) := by
  cases e with
  | publish topic payload a =>
      exact (congrArg (·[i]?) (publish_subscriptions payload)).trans hs
  | subscribe topic name options =>
      rcases b.subscribe_cases topic name options with
        ⟨err, hb⟩ | ⟨bus, hb, -, -, hsubs⟩
      · rw [step, hb]
        exact hs
      · rw [step, hb, hsubs, List.getElem?_append_left
          (List.getElem?_eq_some_iff.mp hs).1]
        exact hs
  | drop j =>
      rw [step, cancel, modify_get?, went, hs]
      split <;> rfl
  | turn j a =>
      rw [step, went]
      cases hj : b.subscriptions[j]? with
      | none =>
          have hji : j ≠ i := by
            rintro rfl
            cases hs.symm.trans hj
          have hnone : b.turn j a = none := by
            unfold turn
            rw [hj]
          rw [if_neg hji, hnone]
          exact hs
      | some y =>
          rw [(turn_eq hj a).2]
          by_cases hji : j = i
          · subst hji
            cases hs.symm.trans hj
            rw [if_pos rfl, if_pos rfl]
          · rw [if_neg hji, if_neg hji, hs]
  | finish j =>
      rw [step, finish, modify_get?, went, hs]
      split <;> rfl

/-- A subscription that was not there has just been made. -/
theorem joined (hs : b.subscriptions[i]? = none)
    (hs' : (b.step e).subscriptions[i]? = some s) :
    ∃ topic name options, e = .subscribe topic name options
      ∧ s = b.newcomer topic name options := by
  have hlen := List.getElem?_eq_none_iff.mp hs
  obtain ⟨hlt, -⟩ := List.getElem?_eq_some_iff.mp hs'
  have more : (b.step e).subscriptions.length = b.subscriptions.length →
      ∃ topic name options, e = .subscribe topic name options
        ∧ s = b.newcomer topic name options :=
    fun heq => absurd hlt (by omega)
  cases e with
  | publish topic payload a =>
      exact more (congrArg List.length (publish_subscriptions payload))
  | subscribe topic name options =>
      rcases b.subscribe_cases topic name options with
        ⟨err, hb⟩ | ⟨bus, hb, -, -, hsubs⟩
      · exact more (by rw [step, hb])
      · rw [step, hb, hsubs, List.getElem?_append_right hlen] at hs'
        have := List.mem_singleton.mp (List.mem_of_getElem? hs')
        exact ⟨topic, name, options, rfl, this⟩
  | drop j => exact more (modify_length _)
  | turn j a =>
      refine more ?_
      rw [step]
      cases ht : b.turn j a with
      | none => rfl
      | some r =>
          obtain ⟨m, bus, a'⟩ := r
          obtain ⟨y, y', -, -, -, -, -, hsubs, -⟩ := turn_cases ht
          exact (congrArg List.length hsubs).trans (List.length_set)
  | finish j => exact more (modify_length _)

/-- Nothing changes the room, and only publishing the messages. -/
theorem step_kept (b : MemoryBus) (e : Event) :
    (b.step e).capacity = b.capacity
      ∧ ((∀ topic payload a, e ≠ .publish topic payload a) →
        (b.step e).topics = b.topics) := by
  cases e with
  | publish topic payload a =>
      exact ⟨publish_capacity payload, fun h => absurd rfl (h _ _ _)⟩
  | subscribe topic name options =>
      rcases b.subscribe_cases topic name options with
        ⟨err, hb⟩ | ⟨bus, hb, htopics, hcap, -⟩
      · rw [step, hb]
        exact ⟨rfl, fun _ => rfl⟩
      · rw [step, hb]
        exact ⟨hcap, fun _ => htopics⟩
  | drop j => exact ⟨rfl, fun _ => rfl⟩
  | turn j a =>
      rw [step]
      cases ht : b.turn j a with
      | none => exact ⟨rfl, fun _ => rfl⟩
      | some r =>
          obtain ⟨m, bus, a'⟩ := r
          obtain ⟨y, y', -, -, -, htopics, hcap, -⟩ := turn_cases ht
          exact ⟨hcap, fun _ => htopics⟩
  | finish j => exact ⟨rfl, fun _ => rfl⟩

theorem capacity_after (n : UInt64) (h : History) :
    (after n h).capacity = room n := by
  induction h with
  | nil => rfl
  | cons e h ih => exact (step_kept _ e).1.trans ih

-- ============================== what a subscription is sent and takes

/-- The message that an event sends to a subscription: one that is
published on its topic. -/
def sends (b : MemoryBus) (i : Nat) : Event → Option Envelope
  | .publish topic payload a =>
    if b.subscriptions[i]?.map Subscription.topic = some topic then
      some (draft topic payload a)
    else none
  | _ => none

/-- What the loop of a subscription receives with an event. -/
def receives (b : MemoryBus) (i : Nat) : Event → Received
  | .turn j _ =>
    match b.subscriptions[i]? with
    | some s =>
      if j = i ∧ s.free then b.receive s.topic s.cursor else .nothing
    | none => .nothing
  | _ => .nothing

/-- The message of a subscription whose delivery an event starts. -/
def delivers (b : MemoryBus) (i : Nat) : Event → Option Envelope
  | .turn j a => if j = i then (b.turn i a).bind Prod.fst else none
  | _ => none

/-- All messages that were published on a subscription's topic since it
was made. -/
def sent (n : UInt64) (i : Nat) : History → List Envelope
  | [] => []
  | e :: h => sent n i h ++ ((after n h).sends i e).toList

/-- The messages that the loop of a subscription took. -/
def taken (n : UInt64) (i : Nat) : History → List Envelope
  | [] => []
  | e :: h => taken n i h ++ ((after n h).receives i e).message?.toList

/-- How many of the messages the loop has taken or passed by. -/
def passed (n : UInt64) (i : Nat) : History → Nat
  | [] => 0
  | e :: h => passed n i h + ((after n h).receives i e).width

/-- The places, among the messages that were sent, of those that the loop
took. -/
def places (n : UInt64) (i : Nat) : History → List Nat
  | [] => []
  | e :: h =>
    places n i h
      ++ (((after n h).receives i e).message?.map fun _ =>
        passed n i h).toList

/-- The messages whose delivery was started. -/
def delivered (n : UInt64) (i : Nat) : History → List Envelope
  | [] => []
  | e :: h => delivered n i h ++ ((after n h).delivers i e).toList

/-- A subscription that is not there is sent nothing, and takes
nothing. -/
theorem unknown (hs : (after n h).subscriptions[i]? = none) :
    sent n i h = [] ∧ taken n i h = [] ∧ passed n i h = 0
      ∧ places n i h = [] ∧ delivered n i h = [] := by
  induction h with
  | nil => exact ⟨rfl, rfl, rfl, rfl, rfl⟩
  | cons e h ih =>
      have hnone : (after n h).subscriptions[i]? = none := by
        cases hsome : (after n h).subscriptions[i]? with
        | none => rfl
        | some s => cases hs.symm.trans (step_get? hsome e)
      obtain ⟨hsent, htaken, hpassed, hplaces, hdelivered⟩ := ih hnone
      have hsends : (after n h).sends i e = none := by
        cases e with
        | publish topic payload a => simp [sends, hnone]
        | _ => rfl
      have hreceives : (after n h).receives i e = .nothing := by
        cases e with
        | turn j a => simp [receives, hnone]
        | _ => rfl
      have hdelivers : (after n h).delivers i e = none := by
        cases e with
        | turn j a =>
            have hturn : (after n h).turn i a = none := by
              unfold turn
              rw [hnone]
            simp [delivers, hturn]
        | _ => rfl
      simp [sent, taken, passed, places, delivered, hsent, htaken, hpassed,
        hplaces, hdelivered, hsends, hreceives, hdelivers, Received.message?,
        Received.width]

-- ========================================================== the cursor

/-- What a loop receives at a place among the messages that were sent to
it. -/
def heard (room : Nat) (sent : List Envelope) (passed : Nat) : Received :=
  if passed + room < sent.length then
    .lagged (sent.length - room - passed) (sent.length - room)
  else
    match sent[passed]? with
    | some m => .message m
    | none => .nothing

/-- A loop is behind by more than there is room for, or gets the message
at its place, or there is none. -/
theorem heard_cases (room : Nat) (sent : List Envelope) (passed : Nat) :
    (passed + room < sent.length ∧ heard room sent passed
        = .lagged (sent.length - room - passed) (sent.length - room))
      ∨ (∃ m, sent[passed]? = some m ∧ sent.length ≤ passed + room
        ∧ heard room sent passed = .message m)
      ∨ (sent[passed]? = none ∧ heard room sent passed = .nothing) := by
  unfold heard
  by_cases hlag : passed + room < sent.length
  · exact Or.inl ⟨hlag, if_pos hlag⟩
  · rw [if_neg hlag]
    cases hget : sent[passed]? with
    | none => exact Or.inr (Or.inr ⟨rfl, rfl⟩)
    | some m => exact Or.inr (Or.inl ⟨m, rfl, not_lt.mp hlag, rfl⟩)

/-- The topic of a running subscription holds what was sent to it, behind
what was published before; and its cursor stands at `passed`. -/
def Follows (b : MemoryBus) (s : Subscription) (sent : List Envelope)
    (passed : Nat) : Prop :=
  ∃ pre, (b.messages s.topic).toList = pre ++ sent
    ∧ s.cursor = pre.length + passed ∧ passed ≤ sent.length

theorem receive_heard {sent pre : List Envelope} {passed : Nat}
    (hm : (b.messages s.topic).toList = pre ++ sent)
    (hc : s.cursor = pre.length + passed) :
    b.receive s.topic s.cursor
      = (heard b.capacity sent passed).shift pre.length := by
  have hsize : (b.messages s.topic).size = pre.length + sent.length := by
    rw [← Array.length_toList, hm, List.length_append]
  have hget : (b.messages s.topic)[s.cursor]? = sent[passed]? := by
    rw [← Array.getElem?_toList, hm, hc,
      List.getElem?_append_right (Nat.le_add_right _ _),
      Nat.add_sub_cancel_left]
  have hlag : s.cursor + b.capacity < (b.messages s.topic).size
      ↔ passed + b.capacity < sent.length := by
    rw [hsize, hc]
    omega
  unfold receive heard
  simp only
  by_cases hlt : passed + b.capacity < sent.length
  · rw [if_pos (hlag.mpr hlt), if_pos hlt, hsize, hc]
    simp only [Received.shift, Received.lagged.injEq]
    omega
  · rw [if_neg (mt hlag.mp hlt), if_neg hlt, hget]
    cases sent[passed]? <;> rfl

theorem mem_receivers (hs : b.subscriptions[i]? = some s)
    (hrun : s.ended = false) : b.hasReceiver s.topic = true := by
  unfold hasReceiver
  rw [List.any_eq_true]
  exact ⟨s, List.mem_of_getElem? hs, by simp [hrun]⟩

/-- What is published while a loop runs is kept for it, and nothing
else. -/
theorem messages_step (hs : b.subscriptions[i]? = some s)
    (hrun : s.ended = false) (e : Event) :
    ((b.step e).messages s.topic).toList
      = (b.messages s.topic).toList ++ (b.sends i e).toList := by
  -- most events leave all messages where they are
  have same : (b.step e).topics = b.topics → b.sends i e = none →
      ((b.step e).messages s.topic).toList
        = (b.messages s.topic).toList ++ (b.sends i e).toList := by
    intro htopics hnone
    rw [messages, htopics, hnone, Option.toList_none, List.append_nil]
    rfl
  have kept := (step_kept b e).2
  cases e with
  | publish topic payload a =>
      rw [step, publish_messages]
      by_cases ht : topic = s.topic
      · subst ht
        rw [if_pos ⟨mem_receivers hs hrun, rfl⟩]
        simp [sends, hs]
      · rw [if_neg fun h => ht h.2]
        simp [sends, hs, Ne.symm ht]
  | subscribe topic name options => exact same (kept (by simp)) rfl
  | drop j => exact same (kept (by simp)) rfl
  | turn j a => exact same (kept (by simp)) rfl
  | finish j => exact same (kept (by simp)) rfl

/-- Only a turn that receives moves the cursor. -/
theorem cursor_went (b : MemoryBus) (i : Nat) (s : Subscription)
    (e : Event) :
    (b.went i s e).cursor = s.cursor
      ∨ ∃ a, e = .turn i a ∧ s.free = true := by
  cases e with
  | publish topic payload a => exact Or.inl rfl
  | subscribe topic name options => exact Or.inl rfl
  | drop j =>
      left
      simp only [went]
      split <;> rfl
  | turn j a =>
      simp only [went]
      split
      · rename_i hj
        cases hfree : s.free with
        | true => exact Or.inr ⟨a, by rw [hj], rfl⟩
        | false => exact Or.inl (Subscription.turned_busy hfree _ a)
      · exact Or.inl rfl
  | finish j =>
      left
      simp only [went]
      split <;> rfl

theorem receives_turn (hs : b.subscriptions[i]? = some s)
    (hfree : s.free = true) (a : Ambient) :
    b.receives i (.turn i a) = b.receive s.topic s.cursor := by
  simp [receives, hs, hfree]

/-- Where the cursor is not moved, nothing is received. -/
theorem receives_or (hs : b.subscriptions[i]? = some s) (e : Event) :
    b.receives i e = .nothing ∨ ∃ a, e = .turn i a ∧ s.free = true := by
  cases e with
  | turn j a =>
      by_cases hj : j = i ∧ s.free = true
      · exact Or.inr ⟨a, by rw [hj.1], hj.2⟩
      · exact Or.inl (by simp [receives, hs, hj])
  | _ => exact Or.inl rfl

/-- A turn takes the cursor of a running loop ahead by what it
receives. -/
theorem cursor_step (hs : b.subscriptions[i]? = some s)
    {sent pre : List Envelope} {passed : Nat}
    (hm : (b.messages s.topic).toList = pre ++ sent)
    (hc : s.cursor = pre.length + passed) (hle : passed ≤ sent.length)
    (e : Event) :
    (b.went i s e).cursor
        = pre.length + (passed + (b.receives i e).width)
      ∧ passed + (b.receives i e).width ≤ sent.length := by
  by_cases hturn : ∃ a, e = .turn i a ∧ s.free = true
  · obtain ⟨a, rfl, hfree⟩ := hturn
    rw [receives_turn hs hfree, went, if_pos rfl,
      Subscription.turned_free hfree, receive_heard hm hc,
      Received.width_shift]
    rcases heard_cases b.capacity sent passed with
      ⟨hlag, hh⟩ | ⟨m, hget, -, hh⟩ | ⟨-, hh⟩
    · rw [hh]
      simp only [Received.shift, Received.width]
      omega
    · have hlt := (List.getElem?_eq_some_iff.mp hget).1
      rw [hh]
      simp only [Received.shift, Received.width]
      omega
    · rw [hh]
      exact ⟨hc, hle⟩
  · have hcursor := (b.cursor_went i s e).resolve_right hturn
    have hnone := (receives_or hs e).resolve_right hturn
    rw [hcursor, hnone]
    exact ⟨hc, hle⟩

/-- A running loop follows what it is sent. -/
theorem Follows.step (hs : b.subscriptions[i]? = some s)
    {sent : List Envelope} {passed : Nat} (hf : Follows b s sent passed)
    (hrun : s.ended = false) (e : Event) :
    Follows (b.step e) (b.went i s e) (sent ++ (b.sends i e).toList)
      (passed + (b.receives i e).width) := by
  obtain ⟨pre, hm, hc, hle⟩ := hf
  obtain ⟨hcursor, hbound⟩ := cursor_step hs hm hc hle e
  refine ⟨pre, ?_, hcursor, ?_⟩
  · rw [went_topic, messages_step hs hrun, hm, List.append_assoc]
  · rw [List.length_append]
    omega

theorem follows_after (hs : (after n h).subscriptions[i]? = some s)
    (hrun : s.ended = false) :
    Follows (after n h) s (sent n i h) (passed n i h) := by
  induction h generalizing s with
  | nil => cases hs
  | cons e h ih =>
      cases hold : (after n h).subscriptions[i]? with
      | none =>
          obtain ⟨topic, name, options, rfl, rfl⟩ := joined hold hs
          have htopics := (step_kept (after n h)
            (.subscribe topic name options)).2 (by simp)
          obtain ⟨hsent, -, hpassed, -⟩ := unknown hold
          refine ⟨((after n h).messages topic).toList, ?_, ?_, ?_⟩
          · simp [sent, hsent, sends, after, messages, htopics, newcomer]
          · simp [passed, hpassed, receives, newcomer, Received.width]
          · simp [passed, hpassed, receives, Received.width]
      | some s₀ =>
          cases hs.symm.trans (step_get? hold e)
          have hrun₀ : s₀.ended = false := by
            by_contra hend
            rw [went_ended (by simpa using hend)] at hrun
            cases hrun
          exact (ih hold hrun₀).step hold hrun₀ e

/-- What a loop receives is told by what it was sent, and by its place
there. -/
theorem receives_heard (hs : (after n h).subscriptions[i]? = some s)
    (hfree : s.free = true) (a : Ambient) :
    ∃ k, (after n h).receives i (.turn i a)
      = (heard (room n) (sent n i h) (passed n i h)).shift k := by
  have hrun : s.ended = false := by
    simp only [Subscription.free, Bool.and_eq_true] at hfree
    simpa using hfree.1.1
  obtain ⟨pre, hm, hc, -⟩ := follows_after hs hrun
  rw [receives_turn hs hfree, receive_heard hm hc, capacity_after]
  exact ⟨_, rfl⟩

/-- A loop receives nothing, or what is told by its place. -/
theorem receives_cases (n : UInt64) (h : History) (i : Nat) (e : Event) :
    (after n h).receives i e = .nothing
      ∨ (after n h).sends i e = none ∧ ∃ k, (after n h).receives i e
        = (heard (room n) (sent n i h) (passed n i h)).shift k := by
  cases hs : (after n h).subscriptions[i]? with
  | none =>
      left
      cases e with
      | turn j a => simp [receives, hs]
      | _ => rfl
  | some s =>
      rcases receives_or hs e with hnone | ⟨a, rfl, hfree⟩
      · exact Or.inl hnone
      · exact Or.inr ⟨rfl, receives_heard hs hfree a⟩

/-- What an event can be for what a loop takes and passes by. -/
inductive Moved (n : UInt64) (i : Nat) (h : History) (e : Event) : Prop
  | idle (ht : taken n i (e :: h) = taken n i h)
      (hp : passed n i (e :: h) = passed n i h)
      (hl : places n i (e :: h) = places n i h)
  /-- Messages are passed by, up to the oldest that can be read. -/
  | lagged (hs : sent n i (e :: h) = sent n i h)
      (ht : taken n i (e :: h) = taken n i h)
      (hl : places n i (e :: h) = places n i h)
      (hlag : passed n i h + room n < (sent n i h).length)
      (hp : passed n i (e :: h) + room n = (sent n i h).length)
  /-- The message at the place is taken. -/
  | took {m : Envelope} (hs : sent n i (e :: h) = sent n i h)
      (hm : (sent n i h)[passed n i h]? = some m)
      (ht : taken n i (e :: h) = taken n i h ++ [m])
      (hl : places n i (e :: h) = places n i h ++ [passed n i h])
      (hp : passed n i (e :: h) = passed n i h + 1)

theorem moved (n : UInt64) (i : Nat) (h : History) (e : Event) :
    Moved n i h e := by
  have idle : ((after n h).receives i e).message? = none →
      ((after n h).receives i e).width = 0 → Moved n i h e := by
    intro hnone hzero
    exact .idle (by simp [taken, hnone]) (by simp [passed, hzero])
      (by simp [places, hnone])
  rcases receives_cases n h i e with hr | ⟨hsends, k, hr⟩
  · exact idle (by rw [hr]; rfl) (by rw [hr]; rfl)
  have hsent : sent n i (e :: h) = sent n i h := by simp [sent, hsends]
  have hmessage : ((after n h).receives i e).message?
      = (heard (room n) (sent n i h) (passed n i h)).message? := by
    rw [hr, Received.message?_shift]
  have hwidth : ((after n h).receives i e).width
      = (heard (room n) (sent n i h) (passed n i h)).width := by
    rw [hr, Received.width_shift]
  rcases heard_cases (room n) (sent n i h) (passed n i h) with
    ⟨hlag, hh⟩ | ⟨m, hm, -, hh⟩ | ⟨-, hh⟩
  · rw [hh] at hmessage hwidth
    have hnone : ((after n h).receives i e).message? = none := hmessage
    have hskipped : ((after n h).receives i e).width
        = (sent n i h).length - room n - passed n i h := hwidth
    refine .lagged hsent (by simp [taken, hnone])
      (by simp [places, hnone]) hlag ?_
    rw [passed, hskipped]
    omega
  · rw [hh] at hmessage hwidth
    have hsome : ((after n h).receives i e).message? = some m := hmessage
    have hone : ((after n h).receives i e).width = 1 := hwidth
    exact .took hsent hm (by simp [taken, hsome])
      (by simp [places, hsome]) (by rw [passed, hone])
  · rw [hh] at hmessage hwidth
    exact idle hmessage hwidth

/-- A loop takes messages in their order, each once, and only such as
were sent. -/
theorem tally (n : UInt64) (i : Nat) (h : History) :
    passed n i h ≤ (sent n i h).length
      ∧ (places n i h).Pairwise (· < ·)
      ∧ (∀ k ∈ places n i h, k < passed n i h)
      ∧ (taken n i h).map some
        = (places n i h).map fun k => (sent n i h)[k]? := by
  induction h with
  | nil => exact ⟨Nat.le_refl _, List.Pairwise.nil, nofun, rfl⟩
  | cons e h ih =>
      obtain ⟨hle, hrising, hbehind, htaken⟩ := ih
      cases moved n i h e with
      | idle ht hp hl =>
          rw [ht, hp, hl, htaken, sent, List.length_append]
          refine ⟨by omega, hrising, hbehind, ?_⟩
          -- what is sent comes behind all places
          refine List.map_congr_left fun k hk => ?_
          have := hbehind k hk
          rw [List.getElem?_append_left (by omega)]
      | lagged hs ht hl hlag hp =>
          rw [hs, ht, hl]
          refine ⟨by omega, hrising, fun k hk => ?_, htaken⟩
          have := hbehind k hk
          omega
      | took hs hm ht hl hp =>
          have hlt := (List.getElem?_eq_some_iff.mp hm).1
          rw [hs, ht, hl, hp]
          refine ⟨hlt, ?_, ?_, by simp [htaken, hm]⟩
          · rw [List.pairwise_append]
            refine ⟨hrising, List.pairwise_singleton _ _, ?_⟩
            intro k hk l hl
            rw [List.mem_singleton.mp hl]
            exact hbehind k hk
          · intro k hk
            rcases List.mem_append.mp hk with hk | hk
            · exact Nat.lt_succ_of_lt (hbehind k hk)
            · rw [List.mem_singleton.mp hk]
              exact Nat.lt_succ_self _

/-- A message that a loop passed by without taking it was passed when
more were sent behind it than there is room for, and the loop went on with
the oldest of those that could still be read. -/
theorem passed_by {k : Nat} (hk : k < passed n i h)
    (hnot : k ∉ places n i h) :
    ∃ e p, (e :: p) <:+ h ∧ passed n i p ≤ k
      ∧ k + room n < (sent n i p).length
      ∧ passed n i (e :: p) + room n = (sent n i p).length := by
  induction h with
  | nil => exact absurd hk (Nat.not_lt_zero k)
  | cons e h ih =>
      have earlier : k < passed n i h → k ∉ places n i h →
          ∃ e' p, (e' :: p) <:+ e :: h ∧ passed n i p ≤ k
            ∧ k + room n < (sent n i p).length
            ∧ passed n i (e' :: p) + room n = (sent n i p).length := by
        intro hk hnot
        obtain ⟨e', p, hp, hrest⟩ := ih hk hnot
        exact ⟨e', p, hp.trans (List.suffix_cons e h), hrest⟩
      cases moved n i h e with
      | idle ht hp hl => exact earlier (hp ▸ hk) (hl ▸ hnot)
      | lagged hs ht hl hlag hp =>
          by_cases hbefore : k < passed n i h
          · exact earlier hbefore (hl ▸ hnot)
          · exact ⟨e, h, List.suffix_rfl, by omega, by omega, hp⟩
      | took hs hm ht hl hp =>
          rw [hl, List.mem_append, List.mem_singleton, not_or] at hnot
          exact earlier (by omega) hnot.1

-- ========================================================== deliveries

/-- With every event, what is handed over was waiting, and what waits
behind it was waiting or is received. -/
theorem waiting_step (hs : b.subscriptions[i]? = some s) (e : Event) :
    ((b.delivers i e).toList
        ++ (b.went i s e).dispatcher.waiting.toList).Sublist
      (s.dispatcher.waiting.toList
        ++ (b.receives i e).message?.toList) := by
  have still : s.dispatcher.waiting.toList.Sublist
      (s.dispatcher.waiting.toList
        ++ (b.receives i e).message?.toList) :=
    List.sublist_append_left _ _
  cases e with
  | publish topic payload a => exact still
  | subscribe topic name options => exact still
  | drop j =>
      simp only [went]
      split <;> exact still
  | finish j =>
      simp only [went]
      split <;> exact still
  | turn j a =>
      by_cases hj : j = i
      · subst hj
        have hturned := s.turned_waiting (b.receive s.topic s.cursor) a
        simp only [delivers, went, receives, if_true, hs, (turn_eq hs a).1,
          true_and]
        cases hfree : s.free with
        | true => simpa [hfree] using hturned
        | false => simpa [hfree, Received.message?] using hturned
      · simp only [delivers, went, if_neg hj]
        exact still

theorem delivered_waiting_sublist
    (hs : (after n h).subscriptions[i]? = some s) :
    (delivered n i h ++ s.dispatcher.waiting.toList).Sublist
      (taken n i h) := by
  induction h generalizing s with
  | nil => cases hs
  | cons e h ih =>
      cases hold : (after n h).subscriptions[i]? with
      | none =>
          obtain ⟨topic, name, options, rfl, rfl⟩ := joined hold hs
          obtain ⟨-, htaken, -, -, hdelivered⟩ := unknown hold
          simp [delivered, taken, htaken, hdelivered, delivers, newcomer]
      | some s₀ =>
          cases hs.symm.trans (step_get? hold e)
          have hstep := waiting_step hold e
          rw [delivered, taken, List.append_assoc]
          refine ((List.Sublist.refl _).append hstep).trans ?_
          rw [← List.append_assoc]
          exact (ih hold).append (List.Sublist.refl _)

/-- The handler is called with messages that the loop took, in the same
order. -/
theorem delivered_sublist (n : UInt64) (i : Nat) (h : History) :
    (delivered n i h).Sublist (taken n i h) := by
  cases hs : (after n h).subscriptions[i]? with
  | none =>
      obtain ⟨-, -, -, -, hdelivered⟩ := unknown hs
      rw [hdelivered]
      exact List.nil_sublist _
  | some s =>
      exact (List.sublist_append_left _ _).trans
        (delivered_waiting_sublist hs)

-- ================================================ on a bus of its own

/-- What an event is for subscription `i` if there are no others: nothing
if it is about them, and the subscription's number is zero. -/
def own (b : MemoryBus) (i : Nat) (e : Event) : History :=
  match b.subscriptions[i]? with
  | none => if (b.step e).subscriptions[i]?.isSome then [e] else []
  | some s =>
    match e with
    | .publish topic _ _ => if topic = s.topic then [e] else []
    | .subscribe .. => []
    | .drop j => if j = i then [.drop 0] else []
    | .turn j a => if j = i then [.turn 0 a] else []
    | .finish j => if j = i then [.finish 0] else []

/-- What is left of a history if subscription `i` is the only one. -/
def solo (n : UInt64) (i : Nat) : History → History
  | [] => []
  | e :: h => own (after n h) i e ++ solo n i h

theorem unknown_before (hs : (after n (e :: h)).subscriptions[i]? = none) :
    (after n h).subscriptions[i]? = none := by
  cases hsome : (after n h).subscriptions[i]? with
  | none => rfl
  | some s => cases hs.symm.trans (step_get? hsome e)

theorem solo_unknown (hs : (after n h).subscriptions[i]? = none) :
    solo n i h = [] := by
  induction h with
  | nil => rfl
  | cons e h ih =>
      have hnone := unknown_before hs
      have hs : ((after n h).step e).subscriptions[i]? = none := hs
      rw [solo, ih hnone, own, hnone]
      simp [hs]

/-- On a bus of its own a subscription is as it is among the others, but
for where its messages are counted from. -/
structure Mirrored (n : UInt64) (i : Nat) (h : History)
    (s : Subscription) : Prop where
  there : ∃ c, (after n (solo n i h)).subscriptions[0]?
    = some (s.moved c)
  sent : sent n 0 (solo n i h) = sent n i h
  passed : passed n 0 (solo n i h) = passed n i h
  taken : taken n 0 (solo n i h) = taken n i h
  delivered : delivered n 0 (solo n i h) = delivered n i h

/-- On either bus a turn is the same. -/
theorem Mirrored.turned (hm : Mirrored n i h s)
    (hs : (after n h).subscriptions[i]? = some s) {c : Nat}
    (hs₀ : (after n (solo n i h)).subscriptions[0]? = some (s.moved c))
    (a : Ambient) :
    ∃ c', (s.moved c).turned
        ((after n (solo n i h)).receive s.topic c) a
      = ((s.turned ((after n h).receive s.topic s.cursor) a).1,
        (s.turned ((after n h).receive s.topic s.cursor) a).2.moved
          c') := by
  by_cases hend : s.ended = true
  · have hend₀ : (s.moved c).ended = true := hend
    rw [Subscription.turned_ended hend, Subscription.turned_ended hend₀]
    exact ⟨c, rfl⟩
  · have hrun : s.ended = false := by simpa using hend
    obtain ⟨pre, hm₁, hc, -⟩ := follows_after hs hrun
    obtain ⟨pre₀, hm₀, hc₀, -⟩ := follows_after hs₀ hrun
    have hr := receive_heard hm₁ hc
    have hr₀ : (after n (solo n i h)).receive s.topic c = _ :=
      receive_heard hm₀ hc₀
    rw [capacity_after] at hr hr₀
    rw [hm.sent, hm.passed] at hr₀
    rw [hr, hr₀]
    exact s.turned_shift c pre.length pre₀.length _ a

/-- On either bus a loop receives the same, but for the place. -/
theorem Mirrored.receives (hm : Mirrored n i h s)
    (hs : (after n h).subscriptions[i]? = some s) {c : Nat}
    (hs₀ : (after n (solo n i h)).subscriptions[0]? = some (s.moved c))
    (a : Ambient) :
    ((after n (solo n i h)).receives 0 (.turn 0 a)).message?
        = ((after n h).receives i (.turn i a)).message?
      ∧ ((after n (solo n i h)).receives 0 (.turn 0 a)).width
        = ((after n h).receives i (.turn i a)).width := by
  cases hfree : s.free with
  | true =>
      obtain ⟨k, hr⟩ := receives_heard hs hfree a
      obtain ⟨k₀, hr₀⟩ := receives_heard hs₀ hfree a
      rw [hm.sent, hm.passed] at hr₀
      rw [hr, hr₀]
      simp
  | false =>
      have hbusy : (s.moved c).free = false := hfree
      simp [MemoryBus.receives, hs, hs₀, hfree, hbusy]

/-- What is nothing to a subscription leaves both buses alike. -/
theorem Mirrored.aside (hm : Mirrored n i h s)
    (hown : own (after n h) i e = [])
    (hwent : (after n h).went i s e = s)
    (hsends : (after n h).sends i e = none)
    (hreceives : (after n h).receives i e = .nothing)
    (hdelivers : (after n h).delivers i e = none) :
    Mirrored n i (e :: h) ((after n h).went i s e) := by
  have hsolo : solo n i (e :: h) = solo n i h := by
    rw [solo, hown, List.nil_append]
  refine ⟨?_, ?_, ?_, ?_, ?_⟩
  · rw [hsolo, hwent]
    exact hm.there
  · rw [hsolo, hm.sent, MemoryBus.sent, hsends]
    simp
  · rw [hsolo, hm.passed, MemoryBus.passed, hreceives]
    rfl
  · rw [hsolo, hm.taken, MemoryBus.taken, hreceives]
    simp [Received.message?]
  · rw [hsolo, hm.delivered, MemoryBus.delivered, hdelivers]
    simp

/-- What is about a subscription is the same on both buses. -/
theorem Mirrored.both (hm : Mirrored n i h s) (e₀ : Event)
    (hown : own (after n h) i e = [e₀])
    (hthere : ∃ c, (after n (e₀ :: solo n i h)).subscriptions[0]?
      = some (((after n h).went i s e).moved c))
    (hsends : (after n (solo n i h)).sends 0 e₀ = (after n h).sends i e)
    (hmessage : ((after n (solo n i h)).receives 0 e₀).message?
      = ((after n h).receives i e).message?)
    (hwidth : ((after n (solo n i h)).receives 0 e₀).width
      = ((after n h).receives i e).width)
    (hdelivers : (after n (solo n i h)).delivers 0 e₀
      = (after n h).delivers i e) :
    Mirrored n i (e :: h) ((after n h).went i s e) := by
  have hsolo : solo n i (e :: h) = e₀ :: solo n i h := by
    rw [solo, hown, List.singleton_append]
  refine ⟨?_, ?_, ?_, ?_, ?_⟩
  · rw [hsolo]
    exact hthere
  · rw [hsolo, MemoryBus.sent, hsends, hm.sent, MemoryBus.sent]
  · rw [hsolo, MemoryBus.passed, hwidth, hm.passed, MemoryBus.passed]
  · rw [hsolo, MemoryBus.taken, hmessage, hm.taken, MemoryBus.taken]
  · rw [hsolo, MemoryBus.delivered, hdelivers, hm.delivered,
      MemoryBus.delivered]

theorem Mirrored.step (hm : Mirrored n i h s)
    (hs : (after n h).subscriptions[i]? = some s) (e : Event) :
    Mirrored n i (e :: h) ((after n h).went i s e) := by
  obtain ⟨c, hs₀⟩ := hm.there
  cases e with
  | publish topic payload a =>
      by_cases ht : topic = s.topic
      · have ht₀ : (s.moved c).topic = topic := ht.symm
        refine hm.both (.publish topic payload a)
          (by simp [own, hs, ht]) ⟨c, ?_⟩ ?_ rfl rfl rfl
        · exact step_get? hs₀ _
        · simp [sends, hs, hs₀, ht, ht₀]
      · refine hm.aside (by simp [own, hs, ht]) rfl ?_ rfl rfl
        simp [sends, hs, Ne.symm ht]
  | subscribe topic name options =>
      exact hm.aside (by simp [own, hs]) rfl rfl rfl rfl
  | drop j =>
      by_cases hj : j = i
      · refine hm.both (.drop 0) (by simp [own, hs, hj])
          ⟨c, ?_⟩ rfl rfl rfl rfl
        rw [after, step_get? hs₀]
        simp [went, hj, Subscription.moved]
      · exact hm.aside (by simp [own, hs, hj]) (by simp [went, hj]) rfl
          rfl rfl
  | turn j a =>
      by_cases hj : j = i
      · subst hj
        obtain ⟨c', hc'⟩ := hm.turned hs hs₀ a
        obtain ⟨hmessage, hwidth⟩ := hm.receives hs hs₀ a
        refine hm.both (.turn 0 a) (by simp [own, hs])
          ⟨c', ?_⟩ rfl hmessage hwidth ?_
        · have hafter := congrArg (fun r => some r.2) hc'
          rw [after, step_get? hs₀]
          simp only [went, if_true]
          exact hafter
        · have hstarted := congrArg Prod.fst hc'
          simp only [delivers, if_true, (turn_eq hs a).1,
            (turn_eq hs₀ a).1]
          exact hstarted
      · exact hm.aside (by simp [own, hs, hj]) (by simp [went, hj]) rfl
          (by simp [MemoryBus.receives, hs, hj]) (by simp [delivers, hj])
  | finish j =>
      by_cases hj : j = i
      · refine hm.both (.finish 0) (by simp [own, hs, hj])
          ⟨c, ?_⟩ rfl rfl rfl rfl
        rw [after, step_get? hs₀]
        simp [went, hj, Subscription.moved]
      · exact hm.aside (by simp [own, hs, hj]) (by simp [went, hj]) rfl
          rfl rfl

theorem mirrored (hs : (after n h).subscriptions[i]? = some s) :
    Mirrored n i h s := by
  induction h generalizing s with
  | nil => cases hs
  | cons e h ih =>
      cases hold : (after n h).subscriptions[i]? with
      | some s₀ =>
          cases hs.symm.trans (step_get? hold e)
          exact (ih hold).step hold e
      | none =>
          obtain ⟨topic, name, options, rfl, rfl⟩ := joined hold hs
          obtain ⟨hsent, htaken, hpassed, -, hdelivered⟩ := unknown hold
          have hthere : ((after n h).step
              (.subscribe topic name options)).subscriptions[i]?.isSome
              = true := by
            have hs : ((after n h).step (.subscribe topic name options)
              ).subscriptions[i]? = _ := hs
            rw [hs, Option.isSome_some]
          have hsolo : solo n i (.subscribe topic name options :: h)
              = [.subscribe topic name options] := by
            rw [solo, solo_unknown hold, own, hold]
            simp [hthere]
          have hfirst : (after n [.subscribe topic name options]
              ).subscriptions[0]?
              = some (((after n h).newcomer topic name options).moved
                0) := rfl
          refine ⟨⟨0, by rw [hsolo, hfirst]⟩, ?_, ?_, ?_, ?_⟩
          · rw [hsolo]
            exact (List.append_eq_nil_iff.mpr ⟨hsent, rfl⟩).symm
          · rw [hsolo]
            exact hpassed.symm
          · rw [hsolo]
            exact (List.append_eq_nil_iff.mpr ⟨htaken, rfl⟩).symm
          · rw [hsolo]
            exact (List.append_eq_nil_iff.mpr ⟨hdelivered, rfl⟩).symm

/-- On a bus whose topics keep `room` messages a subscription takes
messages that were sent to it, in their order and each once, and its
handler is called with messages that were taken. It passes a message by
only when more than `room` behind, and goes on with the oldest that can
still be read; where it is not behind by more, the next turn of its
waiting loop takes the next message. Alone on a bus it would take the
same messages, and have the same deliveries started. -/
theorem fan_out (n : UInt64) (h : History) (i : Nat) :
    ((∃ k, room n = 2 ^ k) ∧ max n.toNat 1 ≤ room n
        ∧ room n < 2 * max n.toNat 1)
      ∧ (places n i h).Pairwise (· < ·)
      ∧ (taken n i h).map some
        = (places n i h).map (fun k => (sent n i h)[k]?)
      ∧ (delivered n i h).Sublist (taken n i h)
      ∧ (∀ k < passed n i h, k ∉ places n i h →
        ∃ e p, (e :: p) <:+ h ∧ passed n i p ≤ k
          ∧ k + room n < (sent n i p).length
          ∧ passed n i (e :: p) + room n = (sent n i p).length)
      ∧ (∀ s a, (after n h).subscriptions[i]? = some s → s.free = true →
        (sent n i h).length ≤ passed n i h + room n →
          taken n i (.turn i a :: h)
            = taken n i h ++ ((sent n i h)[passed n i h]?).toList)
      ∧ taken n 0 (solo n i h) = taken n i h
      ∧ delivered n 0 (solo n i h) = delivered n i h := by
  obtain ⟨-, hrising, -, htaken⟩ := tally n i h
  refine ⟨room_bounds n, hrising, htaken, delivered_sublist n i h,
    fun k hk => passed_by hk, ?_, ?_⟩
  · intro s a hs hfree hnear
    obtain ⟨k, hr⟩ := receives_heard hs hfree a
    rw [taken, hr, Received.message?_shift]
    rcases heard_cases (room n) (sent n i h) (passed n i h) with
      ⟨hlag, -⟩ | ⟨m, hget, -, hh⟩ | ⟨hget, hh⟩
    · omega
    · rw [hh, hget]
      rfl
    · rw [hh, hget]
      rfl
  · cases hs : (after n h).subscriptions[i]? with
    | none =>
        obtain ⟨-, htaken, -, -, hdelivered⟩ := unknown hs
        rw [solo_unknown hs, htaken, hdelivered]
        exact ⟨rfl, rfl⟩
    | some s =>
        have hm := mirrored hs
        exact ⟨hm.taken, hm.delivered⟩

/-- Nothing special around an event. -/
def calm : Ambient := { clock := ⟨0, 0⟩ }

/-- Four messages are published where two can be read; another
subscription has taken none of them, and never will. -/
def overrun : History :=
  [.turn 1 calm, .turn 1 calm, .publish "t" .null calm,
    .publish "t" .null calm, .publish "other" .null calm,
    .publish "t" .null calm, .publish "t" .null calm,
    .subscribe "t" "x" (.ofSettings {}),
    .publish "t" .null calm, .subscribe "t" "y" (.ofSettings {})]

theorem fan_out_overrun :
    places 2 1 overrun = [2] ∧ passed 2 1 overrun = 3
      ∧ (∃ e p, (e :: p) <:+ overrun ∧ passed 2 1 p ≤ 0
        ∧ 0 + room 2 < (sent 2 1 p).length
        ∧ passed 2 1 (e :: p) + room 2 = (sent 2 1 p).length)
      ∧ taken 2 0 (solo 2 1 overrun) = taken 2 1 overrun := by
  have hplaces : places 2 1 overrun = [2] := rfl
  have hpassed : passed 2 1 overrun = 3 := rfl
  obtain ⟨-, -, -, -, hskipped, -, halone, -⟩ := fan_out 2 overrun 1
  refine ⟨hplaces, hpassed, hskipped 0 ?_ ?_, halone⟩
  · rw [hpassed]
    decide
  · rw [hplaces]
    decide

end MemoryBus

end ControlPlane
