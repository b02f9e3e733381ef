/-
The dispatchers of both buses. A bus does three things with the
dispatcher of a subscription: its receive loop hands over a message when
none waits, or starts the delivery of the one that does, and a delivery
ends. So wherever a history takes a bus, each dispatcher on it is one
that a history of its own leads to (`MemoryBus.reached`,
`Etcd.Site.reached`), and what holds of those holds of it: no
subscription ever has more deliveries under way than it has slots
(`deliveries_le`).

On the bus in memory dispatchers check ages; on the server, where old
messages are gone with their leases, they do not.

Chain: over Dispatching.lean, FanOut.lean and Etcd/Loops.lean.
-/
import Mathlib
import ControlPlane.Proofs.Dispatching
import ControlPlane.Proofs.Etcd.Loops
import ControlPlane.Proofs.FanOut

namespace ControlPlane

-- ========================================================= one dispatcher

/-- What can be done with a dispatcher. -/
inductive Dispatcher.Moved (d : Dispatcher) : Dispatcher → Prop
  | still : Moved d d
  | accepted (hw : d.waiting = none) (m : Envelope) (a : Ambient) :
      Moved d (d.accept m a).1
  | started {m : Envelope} {d' : Dispatcher}
      (hd : d.start = some (m, d')) : Moved d d'
  | finished : Moved d d.finish

/-- What a dispatcher makes of a message depends on the clock alone. -/
theorem Dispatcher.accept_clock (d : Dispatcher) (m : Envelope)
    (a b : Ambient) :
    (d.accept m { b with clock := a.clock }).1 = (d.accept m a).1 := by
  unfold accept
  cases d.checkAge with
  | false => rfl
  | true =>
      simp only [Bool.true_and, if_true, Ambient.now]
      split <;> rfl

namespace Dispatching

variable {checkAge : Bool} {d d' : Dispatcher}

/-- The dispatcher is one that some history leads to, and checks ages or
does not. -/
def Reached (checkAge : Bool) (d : Dispatcher) : Prop :=
  ∃ s h, s.checkAge = checkAge ∧ (after s h).dispatcher = d

/-- A new dispatcher is. -/
theorem reached_new (name : String) (options : SubscriptionOptions)
    (checkAge : Bool) :
    Reached checkAge { subscription := name, options, checkAge } :=
  ⟨⟨name, options, checkAge, { clock := ⟨0, 0⟩ }⟩, [], rfl, rfl⟩

/-- With no delivery under way there is none to end. -/
theorem Bounded.finish_idle {f : Dispatching} (hf : f.Bounded)
    (hlive : f.live = []) : f.dispatcher.finish = f.dispatcher := by
  have hnone : f.dispatcher.running - 1 = f.dispatcher.running := by
    rw [hf.running, hlive]
    rfl
  rw [Dispatcher.finish, hnone]

theorem Reached.moved (hd : Reached checkAge d) (hm : d.Moved d') :
    Reached checkAge d' := by
  obtain ⟨s, h, hage, rfl⟩ := hd
  have reach : ∀ e d', ((after s h).step e).dispatcher = d' →
      Reached checkAge d' := fun e d' heq => ⟨s, e :: h, hage, heq⟩
  cases hm with
  | still => exact ⟨s, h, hage, rfl⟩
  | accepted hw m a =>
      refine reach (.dispatch m a.clock) _ ?_
      simp only [step, hw, Option.isSome_none, Bool.false_eq_true,
        if_false]
      exact Dispatcher.accept_clock _ m a _
  | started hd =>
      refine reach .proceed _ ?_
      simp only [step, hd]
  | finished =>
      refine reach (.finish 0 .handled) _ ?_
      simp only [step]
      cases hlive : (after s h).live with
      | nil => exact ((bounded_after s h).finish_idle hlive).symm
      | cons m live => rfl

/-- Deliveries are bounded by the slots. -/
theorem Reached.running_le (hd : Reached checkAge d) :
    d.running ≤ max d.options.concurrency 1 := by
  obtain ⟨s, h, -, rfl⟩ := hd
  obtain ⟨hrunning, hfits⟩ := bounded_after s h
  rw [hrunning]
  exact hfits

end Dispatching

open Dispatching (Reached)

-- ====================================================== the bus in memory

namespace MemoryBus

variable {n : UInt64} {h : History} {s : Subscription} {i : Nat}

theorem turned_moved (s : Subscription) (r : Received) (a : Ambient) :
    s.dispatcher.Moved (s.turned r a).2.dispatcher := by
  unfold Subscription.turned
  split
  · exact .still
  split
  · cases hd : s.dispatcher.start with
    | none => exact .still
    | some started => exact .started hd
  rename_i hwait
  have hnone : s.dispatcher.waiting = none := by simpa using hwait
  split
  · exact .still
  cases r with
  | nothing => exact .still
  | lagged skipped next => exact .still
  | message m => exact .accepted hnone m a

theorem went_dispatcher (b : MemoryBus) (i : Nat) (s : Subscription)
    (e : Event) : s.dispatcher.Moved (b.went i s e).dispatcher := by
  unfold went
  split
  · split <;> exact .still
  · split
    · exact turned_moved s _ _
    · exact .still
  · split
    · exact .finished
    · exact .still
  · exact .still

theorem reached (hs : (after n h).subscriptions[i]? = some s) :
    Reached true s.dispatcher := by
  induction h generalizing s with
  | nil => cases hs
  | cons e h ih =>
      cases hb : (after n h).subscriptions[i]? with
      | none =>
          obtain ⟨topic, name, options, -, rfl⟩ := joined hb hs
          exact Dispatching.reached_new name options true
      | some y =>
          cases (step_get? hb e).symm.trans hs
          exact (ih hb).moved ((after n h).went_dispatcher i y e)

end MemoryBus

-- ================================================== the bus on the server

namespace Etcd

variable {s : Server} {x x' : Subscriber}

theorem Subscriber.Turned.moved (ht : x.Turned s x') :
    x.dispatcher.Moved x'.dispatcher := by
  cases ht with
  | started hd => exact .started hd
  | handed hfree => exact .accepted hfree _ _
  | _ => exact .still

theorem Subscriber.cut_dispatcher (x : Subscriber) (last : Nat)
    (withError : Bool) :
    (x.cut last withError).dispatcher = x.dispatcher := by
  unfold cut
  split <;> rfl

/-- A subscription that is made has a new dispatcher. -/
theorem Bus.subscribe_get? {b : Bus} {topic name : String}
    {options : SubscriptionOptions} {fates : List Passage} {a : Ambient}
    {i : Nat} (hx : (b.subscribe .foretold topic name options (s, fates) a
      ).2.1.subscribers[i]? = some x) :
    b.subscribers[i]? = some x
      ∨ x.dispatcher
        = { subscription := name, options, checkAge := false } := by
  unfold subscribe at hx
  split at hx
  · exact Or.inl hx
  rcases Client.foretold_cases
      (.watch (.under (topicRoot topic)) none) s fates with
    ⟨rest, hs⟩ | ⟨detail, s', rest, hs, -⟩
  · rw [hs] at hx
    by_cases hi : i < b.subscribers.length
    · exact Or.inl ((List.getElem?_append_left hi).symm.trans hx)
    · simp only at hx
      rw [List.getElem?_append_right (Nat.le_of_not_lt hi)] at hx
      rw [List.mem_singleton.mp (List.mem_of_getElem? hx)]
      exact Or.inr rfl
  · rw [hs] at hx
    exact Or.inl hx

namespace Site

variable {f : Site} {e : Event} {st : Setting} {h : History} {i : Nat}

theorem modified {b : Bus} {j : Nat} (g : Subscriber → Subscriber)
    (hg : ∀ y : Subscriber, y.dispatcher.Moved (g y).dispatcher)
    (hx' : (b.modify j g).subscribers[i]? = some x') :
    ∃ x, b.subscribers[i]? = some x
      ∧ x.dispatcher.Moved x'.dispatcher := by
  have hx' : (b.subscribers.modify j g)[i]? = some x' := hx'
  rw [List.getElem?_modify] at hx'
  obtain ⟨x, hx, heq⟩ := Option.map_eq_some_iff.mp hx'
  refine ⟨x, hx, ?_⟩
  by_cases hji : j = i
  · simp only [if_pos hji] at heq
    exact heq ▸ hg x
  · simp only [if_neg hji] at heq
    cases heq
    exact .still

/-- A subscription that is there after an event has a new dispatcher, or
was there. -/
theorem step_dispatcher
    (hx' : (f.step e).bus.subscribers[i]? = some x') :
    Reached false x'.dispatcher
      ∨ ∃ x, f.bus.subscribers[i]? = some x
        ∧ x.dispatcher.Moved x'.dispatcher := by
  cases e with
  | put key value lease => exact Or.inr ⟨x', hx', .still⟩
  | delete key => exact Or.inr ⟨x', hx', .still⟩
  | publish topic payload fates => exact Or.inr ⟨x', hx', .still⟩
  | subscribe topic name options fates =>
      rcases Bus.subscribe_get? hx' with hx | hnew
      · exact Or.inr ⟨x', hx, .still⟩
      · rw [hnew]
        exact Or.inl (Dispatching.reached_new name options false)
  | unsubscribe j =>
      exact Or.inr (modified (fun y => { y with cancelled := true })
        (fun _ => .still) hx')
  | cut j last withError =>
      refine Or.inr (modified _ (fun y => ?_) hx')
      rw [y.cut_dispatcher]
      exact .still
  | breakWatches withError =>
      have hx' : (f.bus.subscribers.map
        fun x => x.cut f.server.revision withError)[i]? = some x' := hx'
      rw [List.getElem?_map] at hx'
      obtain ⟨x, hx, rfl⟩ := Option.map_eq_some_iff.mp hx'
      refine Or.inr ⟨x, hx, ?_⟩
      rw [x.cut_dispatcher]
      exact .still
  | turn j now fates =>
      refine Or.inr ?_
      rcases f.turn_step j now fates with
        heq | ⟨-, y, y', hy, hturn, hget⟩
      · exact ⟨x', heq ▸ hx', .still⟩
      · rw [hget] at hx'
        split at hx'
        · rename_i hji
          cases hx'
          exact ⟨y, hji ▸ hy, hturn.moved⟩
        · exact ⟨x', hx', .still⟩
  | finish j => exact Or.inr (modified _ (fun _ => .finished) hx')

theorem reached (hx : (after st h).bus.subscribers[i]? = some x) :
    Reached false x.dispatcher := by
  induction h generalizing x with
  | nil => cases hx
  | cons e h ih =>
      rcases step_dispatcher hx with hnew | ⟨y, hy, hm⟩
      · exact hnew
      · exact (ih hy).moved hm

end Site

end Etcd

/-- On either bus, whatever happens, no subscription has more deliveries
under way than it has slots. -/
theorem deliveries_le :
    (∀ (n : UInt64) (h : MemoryBus.History),
        ∀ s ∈ (MemoryBus.after n h).subscriptions,
          s.dispatcher.running ≤ max s.dispatcher.options.concurrency 1)
      ∧ ∀ (st : Etcd.Site.Setting) (h : Etcd.Site.History),
        ∀ x ∈ (Etcd.Site.after st h).bus.subscribers,
          x.dispatcher.running
            ≤ max x.dispatcher.options.concurrency 1 := by
  constructor
  · intro n h s hs
    obtain ⟨i, hi⟩ := List.mem_iff_getElem?.mp hs
    exact (MemoryBus.reached hi).running_le
  · intro st h x hx
    obtain ⟨i, hi⟩ := List.mem_iff_getElem?.mp hx
    exact (Etcd.Site.reached hi).running_le

end ControlPlane
