/-
The names of subscriptions are exclusive and none leaks
(`exclusive_names`). On either bus and after any sequence of events, the
names in use are those of the receive loops that have not ended, and no
two of these have one name. A subscribe fails for its name just when that
is in use, and whatever it fails for it leaves all names as they were.
When a loop has ended its name can be subscribed again.

# Closing

To close a subscription is to drop its handle and to wait for the end of
its loop. The loop gives the name back with its last turn, so whoever has
waited finds the name free, unless it was asked for in between; and the
wait is bounded by what the loop had in hand (Closing.lean).

# What is left open

Handles are dropped at any time, more than once, and before or after
their loops have ended, and a select may overlook that for as long as it
likes. On the server, subscribes may take their time, and every request
for a first watch can fail (Etcd/Lobby.lean).

The channel of a topic in memory closes only with its bus. Then nobody
can subscribe on it any more, so there is no event for that.

Chain: over Closing.lean and Etcd/Lobby.lean.
-/
import ControlPlane.Proofs.Closing
import ControlPlane.Proofs.Etcd.Lobby

namespace ControlPlane

-- ===================================================== the bus in memory

/-- A subscription, by its name. -/
def Subscription.holder (s : Subscription) : Holder := ⟨s.name, s.ended⟩

namespace MemoryBus

variable {b bus : MemoryBus} {s : Subscription} {i : Nat} {a a' : Ambient}
  {g : Subscription → Subscription} {asked : Option String}

/-- The name that is asked for with an event. -/
def Event.asks : Event → Option String
  | .subscribe _ name _ => some name
  | _ => none

/-- Who holds the names. A subscribe is over before anything else
happens, so there are no claims. -/
def roster (b : MemoryBus) : Roster :=
  { names := b.names, loops := b.subscriptions.map Subscription.holder }

theorem modify_roster
    (h : ∀ s, b.subscriptions[i]? = some s → (g s).holder = s.holder) :
    (b.modify i g).roster = b.roster := by
  show Roster.mk b.names [] ((b.subscriptions.modify i g).map _) = _
  rw [Roster.map_modify_same h]
  rfl

/-- The handle of a subscription is nothing to its name. -/
theorem handle_roster (b : MemoryBus) (i : Nat) (c : Bool) :
    (b.modify i fun s => { s with cancelled := c }).roster = b.roster :=
  modify_roster fun _ _ => rfl

theorem holder_get? {ended : Bool} (hs : b.subscriptions[i]? = some s)
    (he : s.ended = ended) :
    b.roster.loops[i]? = some ⟨s.name, ended⟩ :=
  he ▸ Roster.map_get? Subscription.holder hs

theorem turn_moves {m : Option Envelope}
    (h : b.turn i a = some (m, bus, a')) :
    b.roster.Moves asked bus.roster := by
  unfold turn at h
  cases hs : b.subscriptions[i]? with
  | none =>
      rw [hs] at h
      cases h
  | some s =>
      rw [hs] at h
      simp only at h
      -- whatever else the loop does, it keeps its name
      have kept : ∀ g : Subscription → Subscription,
          (g s).holder = s.holder →
            b.roster.Moves asked (b.modify i g).roster := by
        intro g hg
        rw [modify_roster fun t ht => by cases hs.symm.trans ht; exact hg]
        exact .still
      split at h
      · cases h
      rename_i hrun
      have hrun : s.ended = false := by simpa using hrun
      split at h
      · split at h
        · rename_i m d hd
          cases h
          refine kept _ ?_
          show Holder.mk d.subscription s.ended = _
          rw [Dispatcher.start_subscription hd]
          rfl
        · cases h
      split at h
      · cases h
        have hi := holder_get? hs hrun
        have hended : (b.roster.finish i s.name).release s.name
            = roster { (b.modify i fun s => { s with ended := true }) with
              names := b.names.filter fun n => ! decide (n = s.name) } := by
          show Roster.mk _ [] ((b.subscriptions.map _).set i _)
            = Roster.mk _ [] ((b.subscriptions.modify i _).map _)
          rw [Roster.map_modify hs]
          rfl
        exact hended ▸ .ended hi
      · split at h
        · cases h
        · cases h
          exact kept _ rfl
        · rename_i m hm
          cases h
          refine kept _ ?_
          show Holder.mk (s.dispatcher.accept m a).1.subscription s.ended = _
          rw [Dispatcher.accept_subscription]
          rfl

theorem subscribe_moves (b : MemoryBus) (topic name : String)
    (options : SubscriptionOptions) :
    b.roster.Moves (some name) (b.subscribe topic name options).2.roster := by
  unfold subscribe
  split
  · exact .still
  · rename_i hfree
    have hjoined : b.roster.join name = roster { b with
        names := name :: b.names
        subscriptions :=
          b.subscriptions ++ [b.newcomer topic name options] } := by
      simp [roster, Roster.join, newcomer, Subscription.holder,
        Subscription.name]
    exact hjoined ▸ .joined rfl hfree

theorem step_moves (b : MemoryBus) (e : Event) :
    b.roster.Moves e.asks (b.step e).roster := by
  cases e with
  | publish topic payload a =>
      have hsame : (b.publish topic payload a).1.roster = b.roster := by
        unfold publish
        simp only
        split <;> rfl
      rw [step, hsame]
      exact .still
  | subscribe topic name options =>
      exact b.subscribe_moves topic name options
  | drop j =>
      rw [step, cancel, handle_roster]
      exact .still
  | turn j a =>
      rw [step]
      cases ht : b.turn j a with
      | none => exact .still
      | some res =>
          obtain ⟨m, bus, a'⟩ := res
          exact turn_moves ht
  | finish j =>
      have hsame : (b.finish j).roster = b.roster :=
        modify_roster fun _ _ => rfl
      rw [step, hsame]
      exact .still

theorem deed_moves (b : MemoryBus) (i : Nat) (x : Deed Event) :
    b.roster.Moves x.inner.asks ((loop i).deed b x).roster := by
  cases x with
  | event e => exact b.step_moves e
  | heedless e =>
      show b.roster.Moves e.asks (cancel (step (b.modify i _) e) i).roster
      rw [cancel, handle_roster, ← handle_roster b i false]
      exact step_moves _ e

/-- A deed on a bus in memory; the loop with the number may overlook its
handle. -/
def act (b : MemoryBus) (x : Nat × Deed Event) : MemoryBus :=
  (loop x.1).deed b x.2

/-- The names of a bus in memory, whatever is done. -/
def register : Register MemoryBus (Nat × Deed Event) where
  roster := roster
  act := act
  asks x := x.2.inner.asks
  moves b x := b.deed_moves x.1 x.2

/-- The names on a bus in memory, and what subscribing and closing make of
them. -/
structure Named (b : MemoryBus) : Prop where
  /-- In use are the names of the receive loops that have not ended, -/
  held : b.names.Perm
    ((b.subscriptions.filter fun s => ! s.ended).map Subscription.name)
  /-- each once: -/
  once : b.names.Nodup
  /-- no two of these loops have one name. -/
  alone : ∀ (i j : Nat) (s t : Subscription),
    b.subscriptions[i]? = some s → b.subscriptions[j]? = some t →
      s.ended = false → t.ended = false → s.name = t.name → i = j
  /-- A subscribe is refused just when its name is in use; -/
  refused : ∀ topic name options,
    (b.subscribe topic name options).1
      = .error (.duplicateSubscription name) ↔ name ∈ b.names
  /-- it fails for no other reason, and then all is as it was. -/
  kept : ∀ topic name options e,
    (b.subscribe topic name options).1 = .error e →
      e = .duplicateSubscription name
        ∧ (b.subscribe topic name options).2 = b
  /-- The name of a loop that has ended can be subscribed, or somebody
  who came later has it. -/
  reusable : ∀ (i : Nat) (s : Subscription),
    b.subscriptions[i]? = some s → s.ended = true →
      (∀ topic options, (b.subscribe topic s.name options).1
          = .ok b.subscriptions.length)
        ∨ ∃ (j : Nat) (t : Subscription), i < j
          ∧ b.subscriptions[j]? = some t ∧ t.ended = false
          ∧ t.name = s.name
  /-- When a close returns, because the loop has ended, the name can be
  subscribed again, if nobody else has asked for it meanwhile. -/
  again : ∀ (i : Nat) (s : Subscription) (l : List (Nat × Deed Event)),
    b.subscriptions[i]? = some s → s.ended = false →
      (∀ x ∈ l, x.2.inner.asks ≠ some s.name) →
        (loop i).hasEnded (register.acted b l) = true →
          ∀ topic options,
            ((register.acted b l).subscribe topic s.name options).1
              = .ok (register.acted b l).subscriptions.length
  /-- And a close does return. -/
  closes : ∀ i, (loop i).isDropped b = true →
    (loop i).Closes (measure i) b

theorem subscribe_granted {name : String} (hfree : name ∉ b.names)
    (topic : String) (options : SubscriptionOptions) :
    (b.subscribe topic name options).1 = .ok b.subscriptions.length := by
  unfold subscribe
  rw [if_neg hfree]

theorem subscribe_refused {name : String} (hname : name ∈ b.names)
    (topic : String) (options : SubscriptionOptions) :
    b.subscribe topic name options
      = (.error (.duplicateSubscription name), b) := by
  unfold subscribe
  rw [if_pos hname]

theorem named (hb : b.roster.Exclusive) : b.Named where
  held := by
    have hheld := hb.held
    rwa [roster, Roster.running_map, List.nil_append] at hheld
  once := hb.once
  alone i j s t hs ht hsrun htrun heq := by
    have hj := holder_get? ht htrun
    rw [← heq] at hj
    exact hb.alone (holder_get? hs hsrun) hj
  refused topic name options := by
    by_cases hname : name ∈ b.names
    · rw [subscribe_refused hname]
      exact ⟨fun _ => hname, fun _ => rfl⟩
    · rw [subscribe_granted hname]
      exact ⟨nofun, fun h => absurd h hname⟩
  kept topic name options e he := by
    by_cases hname : name ∈ b.names
    · rw [subscribe_refused hname] at he ⊢
      cases he
      exact ⟨rfl, rfl⟩
    · rw [subscribe_granted hname] at he
      cases he
  reusable i s hs hend := by
    by_cases hname : s.name ∈ b.names
    · rcases hb.taken_over (holder_get? hs hend) hname with
        hc | ⟨j, hij, hj⟩
      · cases hc
      · obtain ⟨t, ht, heq⟩ := Roster.of_map_get? hj
        exact Or.inr ⟨j, t, hij, ht, congrArg Holder.ended heq,
          congrArg Holder.name heq⟩
    · exact Or.inl fun topic options => subscribe_granted hname topic options
  again i s l hs hrun hl hend topic options := by
    obtain ⟨t, ht, htend⟩ := ended_iff.mp hend
    exact subscribe_granted (register.freed (holder_get? hs hrun) hl
      (holder_get? ht htend) rfl) topic options
  closes i hi := (measure_lawful i).closes (lawful i) hi

end MemoryBus

-- ================================================== the bus on the server

namespace Etcd.Lobby

variable {f : Lobby}

/-- What becomes of a subscribe that nothing comes between. -/
def attempt (f : Lobby) (topic name : String)
    (options : SubscriptionOptions) (fates : List Passage) :
    Except BusError Nat × Bus :=
  let (r, b, _, _) := f.site.bus.subscribe .foretold topic name options
    (f.site.server, fates) f.site.ambient
  (r, b)

/-- The answer to the request for a first watch. -/
def watched (f : Lobby) (topic : String) (fates : List Passage) :
    Except String Nat :=
  (Client.foretold.send (.watch (.under (Bus.topicRoot topic)) none)
    (f.site.server, fates)).1

/-- The names on a bus on the server, and what subscribing and closing
make of them. -/
structure Named (f : Lobby) : Prop where
  /-- In use are the names of the receive loops that have not ended, and
  of the subscribes under way, -/
  held : f.site.bus.names.Perm (f.waiting.map Applicant.name
    ++ (f.site.bus.subscribers.filter fun x => ! x.hasEnded).map
      Subscriber.name)
  /-- each once: -/
  once : f.site.bus.names.Nodup
  /-- no two of these loops have one name. -/
  alone : ∀ (i j : Nat) (x y : Subscriber),
    f.site.bus.subscribers[i]? = some x →
    f.site.bus.subscribers[j]? = some y → x.hasEnded = false →
      y.hasEnded = false → x.name = y.name → i = j
  /-- A subscribe is refused just when its name is in use; -/
  refused : ∀ topic name options fates,
    (f.attempt topic name options fates).1
      = .error (.duplicateSubscription name) ↔ name ∈ f.site.bus.names
  /-- else it fails only if its first watch does; -/
  granted : ∀ topic name options fates, name ∉ f.site.bus.names →
    (f.attempt topic name options fates).1
      = match f.watched topic fates with
        | .ok _ => .ok f.site.bus.subscribers.length
        | .error detail => .error (.etcd detail)
  /-- and whenever it fails, all is as it was, -/
  kept : ∀ topic name options fates e,
    (f.attempt topic name options fates).1 = .error e →
      (f.attempt topic name options fates).2 = f.site.bus
  /-- the name being free if it fails for another reason. -/
  frees : ∀ topic name options fates e,
    (f.attempt topic name options fates).1 = .error e →
      e ≠ .duplicateSubscription name →
        name ∉ (f.attempt topic name options fates).2.names
  /-- The same of a subscribe that takes its time: it comes to nothing at
  once just when its name is in use, -/
  contested : ∀ topic name options,
    f.act (.claim topic name options) = f ↔ name ∈ f.site.bus.names
  /-- and leaves its name free when it is given up or fails. -/
  leaves : ∀ (k : Nat) (p : Applicant), f.waiting[k]? = some p →
    p.name ∉ (f.act (.withdraw k)).site.bus.names
      ∧ ∀ fates detail, f.watched p.topic fates = .error detail →
        p.name ∉ (f.act (.answer k fates)).site.bus.names
  /-- The name of a loop that has ended can be subscribed, or somebody
  who came later has it. -/
  reusable : ∀ (i : Nat) (x : Subscriber),
    f.site.bus.subscribers[i]? = some x → x.hasEnded = true →
      (∀ topic options, (f.attempt topic x.name options []).1
          = .ok f.site.bus.subscribers.length)
        ∨ (∃ p ∈ f.waiting, p.name = x.name)
        ∨ ∃ (j : Nat) (y : Subscriber), i < j
          ∧ f.site.bus.subscribers[j]? = some y
          ∧ y.hasEnded = false ∧ y.name = x.name
  /-- When a close returns, because the loop has ended, the name can be
  subscribed again, if nobody else has asked for it meanwhile. -/
  again : ∀ (i : Nat) (x : Subscriber) (l : List Act),
    f.site.bus.subscribers[i]? = some x → x.hasEnded = false →
      (∀ y ∈ l, y.asks ≠ some x.name) →
        (Site.loop i).hasEnded (register.acted f l).site = true →
          ∀ topic options,
            ((register.acted f l).attempt topic x.name options []).1
              = .ok (register.acted f l).site.bus.subscribers.length
  /-- And a close does return. -/
  closes : ∀ i, (Site.loop i).isDropped f.site = true →
    (Site.loop i).Closes (Site.measure i) f.site

theorem attempt_refused {name : String}
    (hname : name ∈ f.site.bus.names) (topic : String)
    (options : SubscriptionOptions) (fates : List Passage) :
    f.attempt topic name options fates
      = (.error (.duplicateSubscription name), f.site.bus) := by
  unfold attempt Bus.subscribe
  rw [if_pos hname]

theorem attempt_free {name : String}
    (hfree : name ∉ f.site.bus.names) (topic : String)
    (options : SubscriptionOptions) (fates : List Passage) :
    f.attempt topic name options fates
      = match f.watched topic fates with
        | .ok next => (.ok f.site.bus.subscribers.length,
          (f.site.bus.claim name).begin topic name options next)
        | .error detail => (.error (.etcd detail), f.site.bus) := by
  unfold attempt watched
  rw [Bus.subscribe_eq hfree, Bus.release_claim hfree]
  rcases Client.foretold.send (.watch (.under (Bus.topicRoot topic)) none)
      (f.site.server, fates) with ⟨_ | _, s⟩
  · rfl
  · rfl

/-- With a server that answers, a name that is free is granted. -/
theorem attempt_granted {name : String}
    (hfree : name ∉ f.site.bus.names) (topic : String)
    (options : SubscriptionOptions) :
    (f.attempt topic name options []).1
      = .ok f.site.bus.subscribers.length := by
  rw [attempt_free hfree]
  rfl

theorem named (hf : f.roster.Exclusive) : f.Named where
  held := by
    have hheld := hf.held
    rwa [roster, Bus.roster, Roster.running_map] at hheld
  once := hf.once
  alone i j x y hx hy hxrun hyrun heq := by
    have hj := holder_get? hy hyrun
    rw [← heq] at hj
    exact hf.alone (holder_get? hx hxrun) hj
  refused topic name options fates := by
    by_cases hname : name ∈ f.site.bus.names
    · rw [attempt_refused hname]
      exact ⟨fun _ => hname, fun _ => rfl⟩
    · rw [attempt_free hname]
      cases f.watched topic fates <;> simp [hname]
  granted topic name options fates hfree := by
    rw [attempt_free hfree]
    cases f.watched topic fates <;> rfl
  kept topic name options fates e he := by
    by_cases hname : name ∈ f.site.bus.names
    · rw [attempt_refused hname]
    · rw [attempt_free hname] at he ⊢
      cases hw : f.watched topic fates with
      | ok next =>
          rw [hw] at he
          cases he
      | error detail => rfl
  frees topic name options fates e he hother := by
    by_cases hname : name ∈ f.site.bus.names
    · rw [attempt_refused hname] at he
      cases he
      exact absurd rfl hother
    · rw [attempt_free hname] at he ⊢
      cases hw : f.watched topic fates with
      | ok next =>
          rw [hw] at he
          cases he
      | error detail => exact hname
  contested topic name options := by
    constructor
    · intro hsame
      by_contra hfree
      simp only [act, if_neg hfree] at hsame
      -- one more would be waiting
      have hlen := congrArg (fun f => f.waiting.length) hsame
      simp at hlen
    · intro hname
      simp only [act, if_pos hname]
  leaves k p hp := by
    have gone : p.name ∉ (f.site.bus.release p.name).names :=
      Roster.not_mem_release (r := f.roster)
    constructor
    · simp only [act, hp]
      exact gone
    · intro fates detail hw
      unfold watched at hw
      simp only [act, hp]
      split
      · exact gone
      · rename_i next s hs
        rw [hs] at hw
        cases hw
  reusable i x hx hend := by
    by_cases hname : x.name ∈ f.site.bus.names
    · rcases hf.taken_over (holder_get? hx hend) hname with
        hc | ⟨j, hij, hj⟩
      · obtain ⟨p, hp, heq⟩ := List.mem_map.mp hc
        exact Or.inr (Or.inl ⟨p, hp, heq⟩)
      · obtain ⟨y, hy, heq⟩ := Roster.of_map_get? hj
        exact Or.inr (Or.inr ⟨j, y, hij, hy, congrArg Holder.ended heq,
          congrArg Holder.name heq⟩)
    · exact Or.inl fun topic options =>
        attempt_granted hname topic options
  again i x l hx hrun hl hend topic options := by
    obtain ⟨y, hy, hyend⟩ := Site.ended_iff.mp hend
    exact attempt_granted (register.freed (holder_get? hx hrun) hl
      (holder_get? hy hyend) rfl) topic options
  closes i hi := (Site.measure_lawful i).closes (Site.lawful i) hi

end Etcd.Lobby

-- ========================================================= all histories

/-- On either bus, whatever happens, no name is held twice and none is
held by nobody. -/
theorem exclusive_names :
    (∀ (n : UInt64) (l : List (Nat × Deed MemoryBus.Event)),
        (MemoryBus.register.acted (.withCapacity n.toNat) l).Named)
      ∧ ∀ (st : Etcd.Site.Setting) (l : List Etcd.Lobby.Act),
        (Etcd.Lobby.register.acted (.opened st) l).Named := by
  constructor
  · intro n l
    have hnew : (MemoryBus.withCapacity n.toNat).roster.Exclusive :=
      Roster.exclusive_empty
    exact MemoryBus.named (MemoryBus.register.exclusive hnew l)
  · intro st l
    have hnew : (Etcd.Lobby.opened st).roster.Exclusive :=
      Roster.exclusive_empty
    exact Etcd.Lobby.named (Etcd.Lobby.register.exclusive hnew l)

/-- One subscription on a bus in memory, -/
def lone : MemoryBus :=
  MemoryBus.register.acted (.withCapacity (16 : UInt64).toNat)
    [(0, .event (.subscribe "t" "x" oneSlot))]

/-- what a close of it does, -/
def closing : List (Nat × Deed MemoryBus.Event) :=
  [(0, .event (.turn 0 MemoryBus.calm)), (0, .event (.drop 0))]

/-- and a subscribe that waits for its first watch. -/
def boarding : Etcd.Lobby :=
  Etcd.Lobby.register.acted (.opened Etcd.Site.lab)
    [.claim "t" "x" oneSlot]

/-- The name that was closed is granted again, and the one whose watch is
refused is free. -/
theorem exclusive_names_closing :
    ((∃ s, lone.subscriptions[0]? = some s ∧ s.ended = false
          ∧ s.name = "x")
        ∧ (MemoryBus.loop 0).hasEnded
          (MemoryBus.register.acted lone closing) = true
        ∧ ((MemoryBus.register.acted lone closing).subscribe "t" "x"
          oneSlot).1 = .ok 1)
      ∧ boarding.waiting[0]? = some ⟨"t", "x", oneSlot⟩
      ∧ boarding.watched "t" [.refused "down"] = .error "down"
      ∧ "x" ∉ (boarding.act
        (.answer 0 [.refused "down"])).site.bus.names := by
  have hended : (MemoryBus.loop 0).hasEnded
      (MemoryBus.register.acted lone closing) = true := rfl
  have hasked : ∀ x ∈ closing, x.2.inner.asks ≠ some "x" := by decide
  have hagain := (exclusive_names.1 16 _).again 0 _ closing
    (show lone.subscriptions[0]? = some _ from rfl) rfl hasked hended
    "t" oneSlot
  have hleaves := (exclusive_names.2 Etcd.Site.lab
    [.claim "t" "x" oneSlot]).leaves 0 ⟨"t", "x", oneSlot⟩ rfl
  exact ⟨⟨⟨_, rfl, rfl, rfl⟩, hended, hagain⟩, rfl, rfl,
    hleaves.2 [.refused "down"] "down" rfl⟩

end ControlPlane
