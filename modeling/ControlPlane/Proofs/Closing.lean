/-
How a subscription whose handle was dropped comes to its end. To close a
subscription is to drop its handle and to wait until its receive loop has
ended, so this is about how long a close can take.

# The measure

`toGo` prices what a dropped loop has left to do, one for each turn:

- to end takes one;
- a message that waits for a slot takes one, and so does a watch that is
  about to be opened;
- a change of the response in hand takes two, one to look at it and one
  to start the delivery of the message that it may have put.

A dropped loop receives nothing, so nothing is added to its work: every
turn that it takes lowers the measure, and nothing else that happens
raises it (`Lawful`). So it takes no more turns than that (`closes`).

# What can hold it up

Only a message that waits while all slots are taken. Slots become free as
deliveries end, and none runs longer than its time.

Turns at which a select overlooks the handle are not counted here: with
them a loop may go on for as long as there are messages.

Chain: over DroppedHandles.lean; consumed by SubscriptionNames.lean.
-/
import ControlPlane.Proofs.DroppedHandles

namespace ControlPlane

-- ======================================================= a receive loop

namespace ReceiveLoop

variable {σ ε : Type} {L : ReceiveLoop σ ε} {s : σ}

/-- What is around after events, the latest first, that all see whether
the handle is there. -/
def along (L : ReceiveLoop σ ε) (s : σ) (l : List ε) : σ :=
  L.after s (l.map .event)

/-- How far a loop is from its end. -/
structure Measure (σ ε : Type) where
  /-- The turns that a dropped loop has left to take, at most. -/
  toGo : σ → Nat
  /-- Does the loop take a turn with an event, rather than wait? -/
  acts : σ → ε → Bool
  /-- A message waits, and all slots are taken. -/
  clogged : σ → Bool

/-- The turns that the loop takes along a sequence of events. -/
def turns (L : ReceiveLoop σ ε) (m : Measure σ ε) (s : σ) : List ε → Nat
  | [] => 0
  | e :: l => L.turns m s l + if m.acts (L.along s l) e then 1 else 0

/-- What a single event does about a dropped loop. -/
structure Measure.Lawful (m : Measure σ ε) (L : ReceiveLoop σ ε) :
    Prop where
  /-- A turn lowers the measure, and nothing raises it. -/
  falls : ∀ s e, L.isDropped s = true →
    m.toGo (L.step s e) + (if m.acts s e then 1 else 0) ≤ m.toGo s
  spent : ∀ s, L.isDropped s = true → m.toGo s = 0 →
    L.hasEnded s = true
  /-- A loop can take its turn unless it waits for a slot. -/
  able : ∀ s e, L.isDropped s = true → L.hasEnded s = false →
    m.clogged s = false → L.isTurn e = true → m.acts s e = true

/-- A loop whose handle was dropped when all around was `s`. -/
structure Closes (L : ReceiveLoop σ ε) (m : Measure σ ε) (s : σ) :
    Prop where
  /-- It has ended once it has taken so many turns, -/
  ends : ∀ l, m.toGo s ≤ L.turns m s l →
    L.hasEnded (L.along s l) = true
  /-- and until then it can take one whenever it does not wait for a
  slot. -/
  able : ∀ l e, L.hasEnded (L.along s l) = false →
    m.clogged (L.along s l) = false → L.isTurn e = true →
      m.acts (L.along s l) e = true

theorem Measure.Lawful.turns_le {m : Measure σ ε} (hm : m.Lawful L)
    (hL : L.Lawful) (hs : L.isDropped s = true) (l : List ε) :
    m.toGo (L.along s l) + L.turns m s l ≤ m.toGo s := by
  induction l with
  | nil => exact Nat.le_refl _
  | cons e l ih =>
      have hfall := hm.falls _ e (hL.dropped_after hs (l.map .event))
      have hstep : L.along s (e :: l) = L.step (L.along s l) e := rfl
      rw [hstep, turns]
      unfold along at *
      omega

theorem Measure.Lawful.closes {m : Measure σ ε} (hm : m.Lawful L)
    (hL : L.Lawful) (hs : L.isDropped s = true) : L.Closes m s where
  ends l hl := by
    have hle := hm.turns_le hL hs l
    exact hm.spent _ (hL.dropped_after hs _) (by omega)
  able l e hrun hfree hturn :=
    hm.able _ e (hL.dropped_after hs _) hrun hfree hturn

end ReceiveLoop

/-- A message waits, and all slots are taken. -/
def Dispatcher.clogged (d : Dispatcher) : Bool :=
  d.waiting.isSome && decide (d.slots ≤ d.running)

theorem Dispatcher.start_isSome {d : Dispatcher}
    (hw : d.waiting.isSome = true) (hc : d.clogged = false) :
    d.start.isSome = true := by
  obtain ⟨m, hm⟩ := Option.isSome_iff_exists.mp hw
  have hslot : d.running < d.slots := by
    simpa [clogged, hw] using hc
  simp only [start, hm, if_pos hslot, Option.isSome_some]

-- ===================================================== the bus in memory

/-- The turns that a dropped loop has left to take. -/
def Subscription.toGo (s : Subscription) : Nat :=
  if s.ended then 0 else s.dispatcher.waiting.isSome.toNat + 1

namespace MemoryBus

variable {b : MemoryBus} {s : Subscription} {i : Nat} {a : Ambient}

/-- How far the loop of a subscription is from its end. -/
def measure (i : Nat) : ReceiveLoop.Measure MemoryBus Event where
  toGo b := (b.subscriptions[i]?.map Subscription.toGo).getD 0
  acts b
    | .turn j a => j == i && (b.turn j a).isSome
    | _ => false
  clogged b := b.subscriptions[i]?.any (·.dispatcher.clogged)

theorem turn_falls (hs : b.subscriptions[i]? = some s)
    (hc : s.cancelled = true) :
    (s.turned (b.receive s.topic s.cursor) a).2.toGo
      + (if (b.turn i a).isSome then 1 else 0) ≤ s.toGo := by
  unfold turn Subscription.turned
  simp only [hs]
  split
  · exact Nat.le_refl _
  rename_i hrun
  split
  · rename_i hw
    cases hd : s.dispatcher.start with
    | none => exact Nat.le_refl _
    | some started =>
        have hnone := (start_cases hd).2
        simp [Subscription.toGo, hrun, hw, hnone]
  · rename_i hw
    simp [Subscription.toGo, hrun, hw]

/-- A dropped loop that does not wait for a slot takes its turn. -/
theorem turn_able (hs : b.subscriptions[i]? = some s)
    (hc : s.cancelled = true) (hrun : s.ended = false)
    (hfree : s.dispatcher.clogged = false) :
    (b.turn i a).isSome = true := by
  unfold turn
  rw [hs]
  simp only
  rw [if_neg (Bool.eq_false_iff.mp hrun)]
  split
  · rename_i hw
    obtain ⟨started, hd⟩ := Option.isSome_iff_exists.mp
      (Dispatcher.start_isSome hw hfree)
    rw [hd]
    rfl
  · rfl

theorem measure_lawful (i : Nat) : (measure i).Lawful (loop i) where
  falls b e hb := by
    obtain ⟨s, hs, hc⟩ := dropped_iff.mp hb
    have hstep := step_get? hs e
    show (((b.step e).subscriptions[i]?.map Subscription.toGo).getD 0)
        + _ ≤ (b.subscriptions[i]?.map Subscription.toGo).getD 0
    rw [hstep, hs]
    -- what is not the loop's own turn is nothing to the measure
    cases e with
    | publish topic payload a => exact Nat.le_refl _
    | subscribe topic name options => exact Nat.le_refl _
    | drop j =>
        simp only [went]
        split <;> exact Nat.le_refl _
    | turn j a =>
        by_cases hj : j = i
        · subst hj
          simpa [went, measure] using turn_falls hs hc
        · simp [went, measure, hj]
    | finish j =>
        simp only [went]
        split <;> exact Nat.le_refl _
  spent b hb hzero := by
    obtain ⟨s, hs, -⟩ := dropped_iff.mp hb
    refine ended_iff.mpr ⟨s, hs, ?_⟩
    have hzero : s.toGo = 0 := by simpa [measure, hs] using hzero
    unfold Subscription.toGo at hzero
    split at hzero
    · assumption
    · omega
  able b e hb hrun hfree hturn := by
    obtain ⟨s, hs, hc⟩ := dropped_iff.mp hb
    have hon : s.ended = false := by simpa [loop, hs] using hrun
    have hslot : s.dispatcher.clogged = false := by
      simpa [measure, hs] using hfree
    cases e with
    | turn j a =>
        have hj : j = i := by simpa [loop] using hturn
        subst hj
        show (j == j && _) = true
        rw [beq_self_eq_true, turn_able hs hc hon hslot]
        rfl
    | _ => cases hturn

end MemoryBus

-- ================================================== the bus on the server

namespace Etcd

variable {x x' : Subscriber} {i : Nat}

namespace Subscriber

/-- What is left to do if the loop has not ended. -/
def left (x : Subscriber) : Nat :=
  2 * x.batch.length + x.dispatcher.waiting.isSome.toNat
    + (decide (x.state = .opening)).toNat + 1

/-- The turns that a dropped loop has left to take, at most. -/
def toGo (x : Subscriber) : Nat := if x.hasEnded then 0 else x.left

theorem toGo_le (x : Subscriber) : x.toGo ≤ x.left := by
  unfold toGo
  split
  · exact Nat.zero_le _
  · exact Nat.le_refl _

/-- What is not a turn of the loop is nothing to the measure. -/
theorem Beside.toGo (hb : x.Beside x') : x'.toGo = x.toGo := by
  cases hb with
  | cut last withError =>
      unfold Subscriber.cut
      split
      · rename_i next hs
        simp [Subscriber.toGo, left, hasEnded, hs]
      · rfl
  | _ => rfl

/-- To look at a change takes it out of the response, and leaves one
message at most. -/
theorem look_left {c : Change} {cs : List Change} (a : Ambient)
    (hfree : x.dispatcher.waiting = none) (hb : x.batch = c :: cs) :
    (({ x with batch := cs } : Subscriber).look c a).1.left + 1
      ≤ x.left := by
  have hkept := ({ x with batch := cs } : Subscriber).look_kept c a
  have hone := (({ x with batch := cs } : Subscriber).look c
    a).1.dispatcher.waiting.isSome.toNat_le
  unfold left
  rw [hkept.1, hkept.2, hb, hfree, List.length_cons]
  simp only [Option.isSome_none, Bool.toNat_false]
  omega

end Subscriber

namespace Bus

variable {σ : Type} {c : Client σ} {server : σ → Server} {b b' : Bus}
  {now : Moment} {s t : σ} {a a' : Ambient} {r : Option Envelope}

/-- A turn of a dropped loop takes something off what it has left. -/
theorem turn_falls (hx : b.subscribers[i]? = some x)
    (hc : x.cancelled = true)
    (h : b.turn c server i now s a = some (r, b', t, a')) :
    ∃ x', b'.subscribers[i]? = some x' ∧ x'.toGo + 1 ≤ x.toGo := by
  obtain ⟨y, x', hy, hrun, hturn, hset, -⟩ := turn_some h
  cases hx.symm.trans hy
  have hleft : x.toGo = x.left := if_neg (Bool.eq_false_iff.mp hrun)
  refine ⟨x', ?_, hleft ▸ ?_⟩
  · rw [hset]
    exact List.getElem?_set_self (List.getElem?_eq_some_iff.mp hx).1
  have hle := x'.toGo_le
  cases hturn with
  | started hd =>
      obtain ⟨hwaits, hnone⟩ := MemoryBus.start_cases hd
      simp only [Subscriber.left, hwaits, hnone, Option.isSome_some,
        Option.isSome_none, Bool.toNat_false, Bool.toNat_true] at hle ⊢
      omega
  | looked hfree hb =>
      have hlook := Subscriber.look_left a hfree hb
      omega
  | closed hfree hb =>
      simp [Subscriber.toGo, Subscriber.hasEnded, Subscriber.left]
  | received hfree hb hon => cases hc.symm.trans hon
  | broken hfree hb hon => cases hc.symm.trans hon
  | woke hfree hb hon => cases hc.symm.trans hon
  -- whether or not the watch is opened, the loop does not stay there
  | opened hfree hb hw =>
      simp [Subscriber.left, hw] at hle ⊢
      omega
  | refused hfree hb hw =>
      simp [Subscriber.left, hw] at hle ⊢
      omega

/-- A dropped loop that does not wait for a slot takes its turn. -/
theorem turn_able (hx : b.subscribers[i]? = some x)
    (hc : x.cancelled = true) (hrun : x.hasEnded = false)
    (hfree : x.dispatcher.clogged = false) :
    (b.turn c server i now s a).isSome = true := by
  unfold turn
  rw [hx]
  simp only [hrun, hc, if_true, Bool.false_eq_true, if_false]
  split
  · rename_i hw
    obtain ⟨started, hd⟩ := Option.isSome_iff_exists.mp
      (Dispatcher.start_isSome hw hfree)
    rw [hd]
    rfl
  · split
    · rfl
    · split
      · rename_i hs
        simp [Subscriber.hasEnded, hs] at hrun
      · rfl
      · rfl
      · split <;> rfl

end Bus

namespace Site

variable {f : Site}

/-- How far the loop of a subscription is from its end. -/
def measure (i : Nat) : ReceiveLoop.Measure Site Event where
  toGo f := (f.bus.subscribers[i]?.map Subscriber.toGo).getD 0
  acts f
    | .turn j now fates => j == i
      && (f.bus.turn .foretold Prod.fst j now (f.server, fates)
        f.ambient).isSome
    | _ => false
  clogged f := f.bus.subscribers[i]?.any (·.dispatcher.clogged)

theorem measure_lawful (i : Nat) : (measure i).Lawful (loop i) where
  falls f e hf := by
    obtain ⟨x, hx, hc⟩ := dropped_iff.mp hf
    show (((f.step e).bus.subscribers[i]?.map Subscriber.toGo).getD 0)
      + _ ≤ (f.bus.subscribers[i]?.map Subscriber.toGo).getD 0
    by_cases he : ∃ now fates, e = .turn i now fates
    · obtain ⟨now, fates, rfl⟩ := he
      simp only [measure, beq_self_eq_true, Bool.true_and, step]
      cases ht : f.bus.turn .foretold Prod.fst i now (f.server, fates)
          f.ambient with
      | none => exact Nat.le_refl _
      | some res =>
          obtain ⟨r, b', t, a'⟩ := res
          obtain ⟨x', hx', hfall⟩ := Bus.turn_falls hx hc ht
          simpa [hx, hx'] using hfall
    · have he : ∀ now fates, e ≠ .turn i now fates :=
        fun now fates heq => he ⟨now, fates, heq⟩
      obtain ⟨x', hx', hb⟩ := beside hx he
      have hidle : (measure i).acts f e = false := by
        cases e with
        | turn j now fates =>
            have hj : j ≠ i := fun hj => he now fates (by rw [hj])
            simp [measure, hj]
        | _ => rfl
      rw [hx, hx', hidle]
      exact Nat.le_of_eq hb.toGo
  spent f hf hzero := by
    obtain ⟨x, hx, -⟩ := dropped_iff.mp hf
    refine ended_iff.mpr ⟨x, hx, ?_⟩
    have hzero : x.toGo = 0 := by simpa [measure, hx] using hzero
    unfold Subscriber.toGo Subscriber.left at hzero
    split at hzero
    · assumption
    · omega
  able f e hf hrun hfree hturn := by
    obtain ⟨x, hx, hc⟩ := dropped_iff.mp hf
    have hon : x.hasEnded = false := by simpa [loop, hx] using hrun
    have hslot : x.dispatcher.clogged = false := by
      simpa [measure, hx] using hfree
    cases e with
    | turn j now fates =>
        have hj : j = i := by simpa [loop] using hturn
        subst hj
        show (j == j && _) = true
        rw [beq_self_eq_true, Bus.turn_able hx hc hon hslot]
        rfl
    | _ => cases hturn

end Site

end Etcd

end ControlPlane
