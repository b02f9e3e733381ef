/-
One receive loop among all that happens to a site. A subscription joins
with a watch on all that is to come (`Subscriber.Joined`); from then on
an event either leaves alone what its loop goes by (`Subscriber.Alike`),
or is a turn of the loop (`Subscriber.Turned`).

# A turn

All that a turn can do is said once, with what the loop goes by in each
case and for any client (`Bus.Turn`, `Bus.turn_some`). What a turn means
for the changes in hand, for the messages that wait, for names or for the
way to the end is read off there. `Turned` forgets who was asked: with a
server that answers or fails as foretold, a watch is opened behind all
that the server has done, or none is.

# What counts as left alone

A broken watch tells less than it would have told, but from the same
revision on. So for where the loop stands a break is no change: what a
watch is about to tell is read off the server when it is told.

Chain: over Site.lean; WatchGaps.lean follows a message through the
turns of a loop, TopicIsolation.lean goes back from a message to where it
came from.
-/
import Mathlib.Data.List.Basic
import ControlPlane.Proofs.Etcd.Site

namespace ControlPlane.Etcd

variable {s : Server} {x x' : Subscriber} {b : Bus} {a : Ambient}
  {fates : List Passage} {i : Nat}

namespace Subscriber

-- ================================================================= a turn

/-- The keys that a subscription watches. -/
def range (x : Subscriber) : Range := .under (Bus.topicRoot x.topic)

/-- What a turn of its receive loop makes of a subscription. -/
inductive Turned (s : Server) (x : Subscriber) : Subscriber → Prop
  /-- The delivery of the message that waited is started. -/
  | started {m : Envelope} {d : Dispatcher}
      (hd : x.dispatcher.start = some (m, d)) :
      Turned s x { x with dispatcher := d }
  | skipped {key : String} {n : Nat} {cs : List Change}
      (hfree : x.dispatcher.waiting = none)
      (hb : x.batch = .delete key n :: cs) :
      Turned s x { x with batch := cs }
  | handed {e : Entry} {m : Envelope} {cs : List Change} {a : Ambient}
      (hfree : x.dispatcher.waiting = none) (hb : x.batch = .put e :: cs)
      (hm : Json.readAll Envelope.form.read e.value.toList = .ok m) :
      Turned s x { x with
        batch := cs, last := max x.last e.modified
        dispatcher := (x.dispatcher.accept m a).1 }
  /-- What was put is no message. -/
  | garbled {e : Entry} {err : Json.Fault} {cs : List Change}
      (hfree : x.dispatcher.waiting = none) (hb : x.batch = .put e :: cs)
      (hm : Json.readAll Envelope.form.read e.value.toList = .error err) :
      Turned s x { x with batch := cs, last := max x.last e.modified }
  | closed (hfree : x.dispatcher.waiting = none) (hb : x.batch = []) :
      Turned s x { x with state := .ended }
  | received {w w' : Watch} {cs : List Change}
      (hfree : x.dispatcher.waiting = none) (hb : x.batch = [])
      (hw : x.state = .watching w) (ht : w.Told x.range s cs w') :
      Turned s x { x with state := .watching w', batch := cs }
  /-- The watch is seen to be broken, or none is opened. -/
  | paused {till : Moment} (hfree : x.dispatcher.waiting = none)
      (hb : x.batch = []) : Turned s x { x with state := .paused till }
  | woke (hfree : x.dispatcher.waiting = none) (hb : x.batch = []) :
      Turned s x { x with state := .opening }
  | opened (hfree : x.dispatcher.waiting = none) (hb : x.batch = [])
      (hw : x.state = .opening) :
      Turned s x { x with
        state := .watching ⟨x.resumeFrom.getD (s.revision + 1), none⟩ }

/-- A turn that looks at the next change. -/
theorem look_turned {c : Change} {cs : List Change}
    (hfree : x.dispatcher.waiting = none) (hb : x.batch = c :: cs)
    (a : Ambient) :
    x.Turned s (({ x with batch := cs } : Subscriber).look c a).1 := by
  cases c with
  | delete key n => exact .skipped hfree hb
  | put e =>
      unfold look
      cases hm : Json.readAll Envelope.form.read e.value.toList with
      | ok m =>
          simp only [hm]
          exact .handed hfree hb hm
      | error err =>
          simp only [hm]
          exact .garbled hfree hb hm

/-- To look at a change takes nothing else out of the response. -/
theorem look_kept (x : Subscriber) (c : Change) (a : Ambient) :
    (x.look c a).1.batch = x.batch ∧ (x.look c a).1.state = x.state := by
  unfold look
  split
  · exact ⟨rfl, rfl⟩
  · simp only
    split <;> exact ⟨rfl, rfl⟩

theorem start_free {d d' : Dispatcher} {m : Envelope}
    (hd : d.start = some (m, d')) :
    d.waiting = some m ∧ d'.checkAge = d.checkAge := by
  unfold Dispatcher.start at hd
  split at hd
  · rename_i m' hw
    split at hd
    · cases hd
      exact ⟨hw, rfl⟩
    · cases hd
  · cases hd

theorem accept_unaged (d : Dispatcher) (m : Envelope) (a : Ambient) :
    (d.accept m a).1.checkAge = d.checkAge := by
  unfold Dispatcher.accept
  simp only
  generalize (if d.checkAge then a.now else (a.clock, a)) = na
  split <;> rfl

/-- What does not check ages takes every message. -/
theorem accept_waiting {d : Dispatcher} (hd : d.checkAge = false)
    (m : Envelope) (a : Ambient) :
    (d.accept m a).1.waiting = some m := by
  unfold Dispatcher.accept
  rw [hd]
  rfl

theorem Turned.unaged (ht : x.Turned s x') :
    x'.dispatcher.checkAge = x.dispatcher.checkAge := by
  cases ht with
  | started hd => exact (start_free hd).2
  | handed => exact accept_unaged _ _ _
  | skipped => rfl
  | garbled => rfl
  | closed => rfl
  | received => rfl
  | paused => rfl
  | woke => rfl
  | opened => rfl

theorem Turned.topic (ht : x.Turned s x') : x'.topic = x.topic := by
  cases ht <;> rfl

-- ========================================== joining, and the time between

/-- A subscription just made: it watches all that is to come. -/
structure Joined (s : Server) (topic : String) (x : Subscriber) :
    Prop where
  topic : x.topic = topic
  state : x.state = .watching ⟨s.revision + 1, none⟩
  batch : x.batch = []
  last : x.last = 0
  unaged : x.dispatcher.checkAge = false
  free : x.dispatcher.waiting = none

/-- A subscription as its receive loop left it. -/
structure Alike (x x' : Subscriber) : Prop where
  topic : x'.topic = x.topic
  batch : x'.batch = x.batch
  last : x'.last = x.last
  unaged : x'.dispatcher.checkAge = x.dispatcher.checkAge
  /-- Its watch goes on from where it was. -/
  next : ∀ w', x'.state = .watching w' →
    ∃ w, x.state = .watching w ∧ w.next = w'.next

theorem Alike.refl (x : Subscriber) : x.Alike x :=
  ⟨rfl, rfl, rfl, rfl, fun w hw => ⟨w, hw, rfl⟩⟩

theorem waiting_cut (x : Subscriber) (last : Nat) (withError : Bool) :
    (x.cut last withError).dispatcher.waiting = x.dispatcher.waiting := by
  unfold cut
  split <;> rfl

theorem alike_cut (x : Subscriber) (last : Nat) (withError : Bool) :
    x.Alike (x.cut last withError) := by
  unfold cut
  split
  · rename_i next hx
    refine ⟨rfl, rfl, rfl, rfl, ?_⟩
    rintro w' ⟨⟩
    exact ⟨_, hx, rfl⟩
  · exact .refl x

/-- What can become of a subscription but by a turn of its loop. -/
inductive Beside (x : Subscriber) : Subscriber → Prop
  | same : Beside x x
  | dropped : Beside x { x with cancelled := true }
  | cut (last : Nat) (withError : Bool) :
      Beside x (x.cut last withError)
  | finished : Beside x { x with dispatcher := x.dispatcher.finish }

theorem Beside.alike (hb : x.Beside x') : x.Alike x' := by
  cases hb with
  | cut last withError => exact x.alike_cut last withError
  | _ => exact ⟨rfl, rfl, rfl, rfl, fun w hw => ⟨w, hw, rfl⟩⟩

theorem Beside.waiting (hb : x.Beside x') :
    x'.dispatcher.waiting = x.dispatcher.waiting := by
  cases hb with
  | cut last withError => exact x.waiting_cut last withError
  | _ => rfl

end Subscriber

namespace Bus

/-- A turn of a receive loop: the message whose delivery it starts, the
subscription behind it, and where requests go then. -/
inductive Turn {σ : Type} (b : Bus) (c : Client σ) (server : σ → Server)
    (now : Moment) (s : σ) (a : Ambient) (x : Subscriber) :
    Option Envelope → Subscriber → σ → Prop
  | started {m : Envelope} {d : Dispatcher}
      (hd : x.dispatcher.start = some (m, d)) :
      Turn b c server now s a x (some m) { x with dispatcher := d } s
  /-- The next change of the response in hand is looked at. -/
  | looked {change : Change} {cs : List Change}
      (hfree : x.dispatcher.waiting = none) (hb : x.batch = change :: cs) :
      Turn b c server now s a x none
        (({ x with batch := cs } : Subscriber).look change a).1 s
  | closed (hfree : x.dispatcher.waiting = none) (hb : x.batch = [])
      (hc : x.cancelled = true) (hopen : x.state ≠ .opening) :
      Turn b c server now s a x none { x with state := .ended } s
  | received {w w' : Watch} {cs : List Change}
      (hfree : x.dispatcher.waiting = none) (hb : x.batch = [])
      (hc : x.cancelled = false) (hw : x.state = .watching w)
      (hr : w.receive x.range (server s) = some (.changes cs, w')) :
      Turn b c server now s a x none
        { x with state := .watching w', batch := cs } s
  /-- The watch is seen to be broken. -/
  | broken {w w' : Watch} {news : News}
      (hfree : x.dispatcher.waiting = none) (hb : x.batch = [])
      (hc : x.cancelled = false) (hw : x.state = .watching w)
      (hr : w.receive x.range (server s) = some (news, w'))
      (hn : ∀ cs, news ≠ .changes cs) :
      Turn b c server now s a x none
        { x with state := .paused (now + b.reconnectDelay.nanos) } s
  | woke {till : Moment} (hfree : x.dispatcher.waiting = none)
      (hb : x.batch = []) (hc : x.cancelled = false)
      (hw : x.state = .paused till) (hnow : till ≤ now) :
      Turn b c server now s a x none { x with state := .opening } s
  | opened {next : Nat} {t : σ} (hfree : x.dispatcher.waiting = none)
      (hb : x.batch = []) (hw : x.state = .opening)
      (hs : c.send (.watch x.range x.resumeFrom) s = (.ok next, t)) :
      Turn b c server now s a x none
        { x with state := .watching { next } } t
  /-- No watch is opened. -/
  | refused {detail : String} {t : σ}
      (hfree : x.dispatcher.waiting = none) (hb : x.batch = [])
      (hw : x.state = .opening)
      (hs : c.send (.watch x.range x.resumeFrom) s = (.error detail, t)) :
      Turn b c server now s a x none
        { x with state := .paused (now + b.reconnectDelay.nanos) } t

/-- A turn that is taken is the loop's own: it changes its subscription
only, and gives the name back if the loop ends with it. -/
theorem turn_some {σ : Type} {c : Client σ} {server : σ → Server}
    {now : Moment} {s t : σ} {r : Option Envelope} {b' : Bus}
    {a' : Ambient}
    (h : b.turn c server i now s a = some (r, b', t, a')) :
    ∃ x x', b.subscribers[i]? = some x ∧ x.hasEnded = false
      ∧ b.Turn c server now s a x r x' t
      ∧ b'.subscribers = b.subscribers.set i x'
      ∧ b'.names = if x'.hasEnded
          then b.names.filter fun n => ! decide (n = x.name)
          else b.names := by
  unfold turn at h
  cases hx : b.subscribers[i]? with
  | none =>
      rw [hx] at h
      cases h
  | some x =>
      rw [hx] at h
      simp only at h
      -- the loop modifies the subscription that it has just looked up
      have hset : ∀ g : Subscriber → Subscriber,
          (b.modify i g).subscribers = b.subscribers.set i (g x) := by
        intro g
        show b.subscribers.modify i g = _
        rw [List.modify_eq_set_getElem?, hx]
        rfl
      split at h
      · cases h
      rename_i hrun
      have hrun : x.hasEnded = false := by simpa using hrun
      -- the name is given back only by a loop that ends
      have held : ∀ {x' : Subscriber}, x'.hasEnded = false →
          b.names = if x'.hasEnded
            then b.names.filter fun n => ! decide (n = x.name)
            else b.names := by
        intro x' hon
        rw [hon]
        rfl
      split at h
      · split at h
        · rename_i m d hd
          cases h
          exact ⟨x, _, rfl, hrun, .started hd, hset _, held hrun⟩
        · cases h
      rename_i hfree
      have hfree : x.dispatcher.waiting = none := by simpa using hfree
      split at h
      · rename_i change cs hb
        cases h
        refine ⟨x, _, rfl, hrun, .looked hfree hb, hset _, held ?_⟩
        unfold Subscriber.hasEnded
        rw [(Subscriber.look_kept _ change a).2]
        exact hrun
      rename_i hb
      split at h
      · cases h
      · rename_i w hw
        split at h
        · rename_i hc
          cases h
          exact ⟨x, _, rfl, hrun, .closed hfree hb hc (by simp [hw]),
            hset _, rfl⟩
        · rename_i hc
          have hc : x.cancelled = false := by simpa using hc
          split at h
          · cases h
          · rename_i cs w' hr
            cases h
            exact ⟨x, _, rfl, hrun, .received hfree hb hc hw hr, hset _,
              held rfl⟩
          · rename_i w' hr
            cases h
            exact ⟨x, _, rfl, hrun, .broken hfree hb hc hw hr (by simp),
              hset _, held rfl⟩
          · rename_i w' hr
            cases h
            exact ⟨x, _, rfl, hrun, .broken hfree hb hc hw hr (by simp),
              hset _, held rfl⟩
      · rename_i till hw
        split at h
        · rename_i hc
          cases h
          exact ⟨x, _, rfl, hrun, .closed hfree hb hc (by simp [hw]),
            hset _, rfl⟩
        · rename_i hc
          have hc : x.cancelled = false := by simpa using hc
          split at h
          · rename_i hnow
            cases h
            exact ⟨x, _, rfl, hrun, .woke hfree hb hc hw hnow, hset _,
              held rfl⟩
          · cases h
      · rename_i hw
        split at h
        · rename_i next t hs
          cases h
          exact ⟨x, _, rfl, hrun, .opened hfree hb hw hs, hset _, held rfl⟩
        · rename_i detail t hs
          cases h
          exact ⟨x, _, rfl, hrun, .refused hfree hb hw hs, hset _,
            held rfl⟩

/-- A turn is one of the things that a loop does, and changes neither the
server nor the other subscriptions. -/
theorem turn_cases {now : Moment} {r : Option Envelope} {b' : Bus}
    {t : Server × List Passage} {a' : Ambient}
    (h : b.turn .foretold Prod.fst i now (s, fates) a
      = some (r, b', t, a')) :
    t.1 = s ∧ ∃ x x', b.subscribers[i]? = some x ∧ x.Turned s x'
      ∧ ∀ j, b'.subscribers[j]?
        = if i = j then some x' else b.subscribers[j]? := by
  obtain ⟨x, x', hx, -, hturn, hset, -⟩ := turn_some h
  have hget : ∀ j, b'.subscribers[j]?
      = if i = j then some x' else b.subscribers[j]? := by
    intro j
    rw [hset, List.getElem?_set,
      if_pos (List.getElem?_eq_some_iff.mp hx).1]
  have asked := Client.foretold_cases
    (.watch x.range x.resumeFrom) s fates
  -- what is left is whether the server is the same, and what the loop did
  suffices hdid : t.1 = s ∧ x.Turned s x' from
    ⟨hdid.1, x, x', hx, hdid.2, hget⟩
  cases hturn with
  | started hd => exact ⟨rfl, .started hd⟩
  | looked hfree hb => exact ⟨rfl, Subscriber.look_turned hfree hb a⟩
  | closed hfree hb => exact ⟨rfl, .closed hfree hb⟩
  | @received w w' cs hfree hb hc hw hr =>
      rcases Watch.receive_cases w x.range s with
        ⟨hr', -⟩ | ⟨cs', w₁, hr', ht⟩ | ⟨news, hr', hn⟩
      · cases hr.symm.trans hr'
      · cases hr.symm.trans hr'
        exact ⟨rfl, .received hfree hb hw ht⟩
      · cases hr.symm.trans hr'
        exact absurd rfl (hn cs)
  | broken hfree hb => exact ⟨rfl, .paused hfree hb⟩
  | woke hfree hb => exact ⟨rfl, .woke hfree hb⟩
  | opened hfree hb hw hs =>
      rcases asked with ⟨rest, hs'⟩ | ⟨detail, s', rest, hs', -⟩
      · cases hs.symm.trans hs'
        exact ⟨rfl, .opened hfree hb hw⟩
      · cases hs.symm.trans hs'
  | refused hfree hb hw hs =>
      refine ⟨?_, .paused hfree hb⟩
      rcases asked with ⟨rest, hs'⟩ | ⟨detail, s', rest, hs', hkept⟩
      · cases hs.symm.trans hs'
      · cases hs.symm.trans hs'
        rcases hkept with rfl | rfl <;> rfl

/-- A subscription that is made joins behind the others; the server has
nothing of it. -/
theorem subscribe_cases (b : Bus) (topic name : String)
    (options : SubscriptionOptions) (s : Server) (fates : List Passage)
    (a : Ambient) :
    (b.subscribe .foretold topic name options (s, fates) a).2.2.1.1 = s
      ∧ ((b.subscribe .foretold topic name options (s, fates) a).2.1 = b
        ∨ ∃ x : Subscriber, x.Joined s topic
          ∧ (b.subscribe .foretold topic name options (s, fates)
              a).2.1.subscribers = b.subscribers ++ [x]) := by
  unfold subscribe
  split
  · exact ⟨rfl, Or.inl rfl⟩
  · rcases Client.foretold_cases
        (.watch (.under (topicRoot topic)) none) s fates with
      ⟨rest, hs⟩ | ⟨detail, s', rest, hs, hs'⟩
    · rw [hs]
      exact ⟨rfl, Or.inr ⟨_, ⟨rfl, rfl, rfl, rfl, rfl, rfl⟩, rfl⟩⟩
    · rw [hs]
      refine ⟨?_, Or.inl rfl⟩
      rcases hs' with rfl | rfl <;> rfl

end Bus

namespace Site

variable {f : Site} {e : Event} {st : Setting} {h p : History}

-- =============================================================== an event

/-- What an event is for a subscription that is there. -/
inductive Went (f : Site) (i : Nat) (x : Subscriber) :
    Event → Subscriber → Prop
  | aside {e : Event} {x' : Subscriber} (ha : x.Alike x')
      (hw : x'.dispatcher.waiting = x.dispatcher.waiting) :
      Went f i x e x'
  | turned {now : Moment} {fates : List Passage} {x' : Subscriber}
      (ht : x.Turned f.server x') : Went f i x (.turn i now fates) x'

theorem turn_step (f : Site) (j : Nat) (now : Moment)
    (fates : List Passage) :
    f.step (.turn j now fates) = f
      ∨ (f.step (.turn j now fates)).server = f.server
        ∧ ∃ y y', f.bus.subscribers[j]? = some y ∧ y.Turned f.server y'
          ∧ ∀ k, (f.step (.turn j now fates)).bus.subscribers[k]?
            = if j = k then some y' else f.bus.subscribers[k]? := by
  simp only [step]
  cases ht : f.bus.turn .foretold Prod.fst j now (f.server, fates)
      f.ambient with
  | none => exact Or.inl rfl
  | some res =>
      obtain ⟨r, b', t, a'⟩ := res
      exact Or.inr (Bus.turn_cases ht)

/-- A turn asks the server only for watches. -/
theorem turn_server (f : Site) (j : Nat) (now : Moment)
    (fates : List Passage) :
    (f.step (.turn j now fates)).server = f.server := by
  rcases f.turn_step j now fates with heq | ⟨hs, -⟩
  · rw [heq]
  · exact hs

theorem Went.range (hw : f.Went i x e x') : x'.range = x.range := by
  unfold Subscriber.range
  cases hw with
  | aside ha => rw [ha.topic]
  | turned ht => rw [ht.topic]

/-- What is not a turn of its loop leaves a subscription as it is, or does
one of few things to it. -/
theorem beside (hx : f.bus.subscribers[i]? = some x)
    (he : ∀ now fates, e ≠ .turn i now fates) :
    ∃ x', (f.step e).bus.subscribers[i]? = some x' ∧ x.Beside x' := by
  have modified : ∀ (j : Nat) (g : Subscriber → Subscriber),
      (∀ y : Subscriber, y.Beside (g y)) →
        ∃ x', (f.bus.modify j g).subscribers[i]? = some x'
          ∧ x.Beside x' := by
    intro j g hg
    show ∃ x', (f.bus.subscribers.modify j g)[i]? = some x' ∧ _
    by_cases hij : j = i
    · subst hij
      rw [List.getElem?_modify_eq, hx]
      exact ⟨_, rfl, hg x⟩
    · rw [List.getElem?_modify_ne g _ hij, hx]
      exact ⟨_, rfl, .same⟩
  cases e with
  | put key value lease => exact ⟨x, hx, .same⟩
  | delete key => exact ⟨x, hx, .same⟩
  | publish topic payload fates => exact ⟨x, hx, .same⟩
  | subscribe topic name options fates =>
      refine ⟨x, ?_, .same⟩
      show (f.bus.subscribe .foretold topic name options
        (f.server, fates) f.ambient).2.1.subscribers[i]? = _
      rcases (f.bus.subscribe_cases topic name options f.server fates
        f.ambient).2 with hb | ⟨y, -, hb⟩
      · rw [hb, hx]
      · rw [hb, List.getElem?_append_left
          (List.getElem?_eq_some_iff.mp hx).1, hx]
  | unsubscribe j => exact modified j _ fun _ => .dropped
  | cut j last withError => exact modified j _ fun _ => .cut last withError
  | breakWatches withError =>
      refine ⟨x.cut f.server.revision withError, ?_, .cut _ _⟩
      show (f.bus.subscribers.map _)[i]? = _
      rw [List.getElem?_map, hx]
      rfl
  | turn j now fates =>
      have hij : j ≠ i := fun hij => he now fates (by rw [hij])
      refine ⟨x, ?_, .same⟩
      rcases f.turn_step j now fates with heq | ⟨-, y, y', -, -, hget⟩
      · rw [heq, hx]
      · rw [hget, if_neg hij, hx]
  | finish j => exact modified j _ fun _ => .finished

/-- A subscription that is there is there after the event. -/
theorem went (e : Event) (hx : f.bus.subscribers[i]? = some x) :
    ∃ x', (f.step e).bus.subscribers[i]? = some x' ∧ f.Went i x e x' := by
  by_cases he : ∃ now fates, e = .turn i now fates
  · obtain ⟨now, fates, rfl⟩ := he
    rcases f.turn_step i now fates with heq | ⟨-, y, y', hy, hturn, hget⟩
    · rw [heq]
      exact ⟨x, hx, .aside (.refl x) rfl⟩
    · cases hx.symm.trans hy
      exact ⟨y', (hget i).trans (if_pos rfl), .turned hturn⟩
  · obtain ⟨x', hx', hb⟩ := beside hx fun now fates heq =>
      he ⟨now, fates, heq⟩
    exact ⟨x', hx', .aside hb.alike hb.waiting⟩

/-- A subscription that was not there has just been made. -/
theorem joined (e : Event) (hx : f.bus.subscribers[i]? = none)
    (hx' : (f.step e).bus.subscribers[i]? = some x) :
    x.Joined f.server x.topic := by
  have hlen := List.getElem?_eq_none_iff.mp hx
  obtain ⟨hlt, -⟩ := List.getElem?_eq_some_iff.mp hx'
  -- there are more subscriptions only where one is made
  have more : (f.step e).bus.subscribers.length
      = f.bus.subscribers.length → x.Joined f.server x.topic :=
    fun heq => absurd hlt (by omega)
  cases e with
  | put key value lease => exact more rfl
  | delete key => exact more rfl
  | publish topic payload fates => exact more rfl
  | subscribe topic name options fates =>
      rcases (f.bus.subscribe_cases topic name options f.server fates
        f.ambient).2 with hb | ⟨y, hy, hb⟩
      · exact more (congrArg (fun b => b.subscribers.length) hb)
      · have hx' : (f.bus.subscribe .foretold topic name options
          (f.server, fates) f.ambient).2.1.subscribers[i]? = some x := hx'
        rw [hb, List.getElem?_append_right hlen] at hx'
        cases List.mem_singleton.mp (List.mem_of_getElem? hx')
        exact hy.topic ▸ hy
  | unsubscribe j => exact more (List.length_modify _ _ _)
  | cut j last withError => exact more (List.length_modify _ _ _)
  | breakWatches withError => exact more (List.length_map _)
  | turn j now fates =>
      rcases f.turn_step j now fates with
        heq | ⟨-, y, y', hy, hturn, hget⟩
      · exact more (by rw [heq])
      · rw [hget] at hx'
        split at hx'
        · rename_i hij
          subst hij
          cases hx.symm.trans hy
        · cases hx.symm.trans hx'
  | finish j => exact more (List.length_modify _ _ _)

/-- Whatever happens changes the history once at most. -/
theorem step_grown (f : Site) (e : Event) :
    f.server.Grown (f.step e).server := by
  cases e with
  | put key value lease => exact f.server.put_grown key value lease
  | delete key => exact f.server.delete_grown key
  | publish topic payload fates =>
      exact publish_grown f.bus topic payload f.server fates f.ambient
  | subscribe topic name options fates =>
      refine .still ?_ ?_
      · exact congrArg Server.history (f.bus.subscribe_cases topic name
          options f.server fates f.ambient).1
      · exact congrArg Server.revision (f.bus.subscribe_cases topic name
          options f.server fates f.ambient).1
  | turn j now fates =>
      rw [f.turn_server j now fates]
      exact .still rfl rfl
  | unsubscribe j => exact .still rfl rfl
  | cut j last withError => exact .still rfl rfl
  | breakWatches withError => exact .still rfl rfl
  | finish j => exact .still rfl rfl

-- ============================================================== histories

theorem ordered_after (st : Setting) (h : History) :
    (after st h).server.Ordered := by
  induction h with
  | nil => exact Server.ordered_empty
  | cons e h ih => exact ih.grown (step_grown _ e)

theorem revision_le (hp : p <:+ h) :
    (after st p).server.revision ≤ (after st h).server.revision := by
  induction h with
  | nil =>
      obtain rfl := List.suffix_nil.mp hp
      exact Nat.le_refl _
  | cons e h ih =>
      rcases List.suffix_cons_iff.mp hp with rfl | hp
      · exact Nat.le_refl _
      · exact Nat.le_trans (ih hp) (step_grown _ e).revision_le

/-- What the server had come to before is in its history then. -/
theorem known_before {c : Change} (hp : p <:+ h)
    (hc : c ∈ (after st h).server.history)
    (hle : c.revision ≤ (after st p).server.revision) :
    c ∈ (after st p).server.history := by
  induction h with
  | nil =>
      rw [List.suffix_nil.mp hp]
      exact hc
  | cons e h ih =>
      rcases List.suffix_cons_iff.mp hp with rfl | hp
      · exact hc
      · exact ih hp ((step_grown _ e).known hc
          (Nat.le_trans hle (revision_le hp)))

/-- A subscription that is there was made just now, or was there. -/
theorem came (e : Event)
    (hx' : (f.step e).bus.subscribers[i]? = some x') :
    x'.Joined f.server x'.topic
      ∨ ∃ x, f.bus.subscribers[i]? = some x ∧ f.Went i x e x' := by
  cases hx : f.bus.subscribers[i]? with
  | none => exact Or.inl (joined e hx hx')
  | some x =>
      obtain ⟨y, hy, hw⟩ := went e hx
      cases hx'.symm.trans hy
      exact Or.inr ⟨x, rfl, hw⟩

/-- No message is too old for a subscription: the leases see to that. -/
theorem unaged (hx : (after st h).bus.subscribers[i]? = some x) :
    x.dispatcher.checkAge = false := by
  induction h generalizing x with
  | nil => cases hx
  | cons e h ih =>
      rcases came e hx with hj | ⟨y, hy, hw⟩
      · exact hj.unaged
      · cases hw with
        | aside ha => exact ha.unaged.trans (ih hy)
        | turned ht => exact ht.unaged.trans (ih hy)

end Site

end ControlPlane.Etcd
