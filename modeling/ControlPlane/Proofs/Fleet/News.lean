/-
What travels on the allocation topic. A message is published, kept,
waits in front of a handler, is under way to one, and may be handled
again on any replica at any later time; wherever it is, it tells of a
machine that is allocated (`Tidings`).

An allocation is never taken back, so news does not grow old: the lemmas
below ask only for what is new, a publication or a subscription.

Chain: over Events.lean and Bus.lean; consumed by WakeSoundness.lean.
-/
import ControlPlane.Proofs.Fleet.Events

namespace ControlPlane.Fleet

variable {f g : Fleet} {payload : Json}

-- ================================================================= news

/-- A payload that tells of a machine that is allocated. -/
def News (f : Fleet) (payload : Json) : Prop :=
  ∃ m, payload = Notifier.payload m ∧ f.Allocated m

theorem News.mono (hall : ∀ m, f.Allocated m → g.Allocated m)
    (hn : News f payload) : News g payload := by
  obtain ⟨m, rfl, ha⟩ := hn
  exact ⟨m, rfl, hall m ha⟩

/-- All that travels on the allocation topic is news, and a replica's
handler is on that topic. -/
structure Tidings (f : Fleet) : Prop where
  posted : ∀ p : Json, (f.topic, p) ∈ f.posted → News f p
  kept : ∀ (k : Nat) (e : Envelope),
    (f.bus.messages f.topic)[k]? = some e → News f e.payload
  waiting : ∀ (k : Nat) (sub : Subscription) (e : Envelope),
    f.bus.subscriptions[k]? = some sub → sub.topic = f.topic →
      sub.dispatcher.waiting = some e → News f e.payload
  underway : ∀ (k : Nat) (sub : Subscription) (e : Envelope),
    (k, e) ∈ f.deliveries → f.bus.subscriptions[k]? = some sub →
      sub.topic = f.topic → News f e.payload
  ranged : ∀ (k : Nat) (e : Envelope),
    (k, e) ∈ f.deliveries → k < f.bus.subscriptions.length
  handled : ∀ (k i : Nat), f.handlers[k]? = some (some i) →
    ∃ sub : Subscription, f.bus.subscriptions[k]? = some sub
      ∧ sub.topic = f.topic
  aligned : f.handlers.length = f.bus.subscriptions.length

/-- The news stays news while the bus is left alone. -/
theorem Tidings.same (ht : Tidings f) (htopic : g.topic = f.topic)
    (hbus : g.bus = f.bus) (hposted : g.posted = f.posted)
    (hdel : g.deliveries = f.deliveries)
    (hhand : g.handlers = f.handlers)
    (hall : ∀ m, f.Allocated m → g.Allocated m) : Tidings g where
  posted p hp := by
    rw [htopic, hposted] at hp
    exact (ht.posted p hp).mono hall
  kept k e he := by
    rw [htopic, hbus] at he
    exact (ht.kept k e he).mono hall
  waiting k sub e hs hst hw := by
    rw [hbus] at hs
    rw [htopic] at hst
    exact (ht.waiting k sub e hs hst hw).mono hall
  underway k sub e he hs hst := by
    rw [hdel] at he
    rw [hbus] at hs
    rw [htopic] at hst
    exact (ht.underway k sub e he hs hst).mono hall
  ranged k e he := by
    rw [hdel] at he
    rw [hbus]
    exact ht.ranged k e he
  handled k i hk := by
    rw [hhand] at hk
    rw [hbus, htopic]
    exact ht.handled k i hk
  aligned := by rw [hhand, hbus, ht.aligned]

/-- What is published on the allocation topic must be news. -/
theorem Tidings.post (ht : Tidings f) (topic : String)
    (hn : topic = f.topic → News f payload) :
    Tidings (f.post topic payload) where
  posted p hp := by
    change (f.topic, p) ∈ (topic, payload) :: f.posted at hp
    rcases List.mem_cons.mp hp with heq | hp
    · cases heq
      exact hn rfl
    · exact ht.posted p hp
  kept k e he := by
    change ((f.bus.publish topic payload f.ambient).1.messages f.topic)[k]?
      = some e at he
    rw [MemoryBus.publish_messages] at he
    split at he
    · rename_i hto
      rw [hto.2, Array.getElem?_push] at he
      split at he
      · cases he
        exact hn hto.2
      · exact ht.kept k e he
    · exact ht.kept k e he
  waiting k sub e hs := by
    rw [show (f.post topic payload).bus.subscriptions = f.bus.subscriptions
      from MemoryBus.publish_subscriptions _] at hs
    exact ht.waiting k sub e hs
  underway k sub e he hs := by
    rw [show (f.post topic payload).bus.subscriptions = f.bus.subscriptions
      from MemoryBus.publish_subscriptions _] at hs
    exact ht.underway k sub e he hs
  ranged k e he := by
    rw [show (f.post topic payload).bus.subscriptions = f.bus.subscriptions
      from MemoryBus.publish_subscriptions _]
    exact ht.ranged k e he
  handled k i hk := by
    rw [show (f.post topic payload).bus.subscriptions = f.bus.subscriptions
      from MemoryBus.publish_subscriptions _]
    exact ht.handled k i hk
  aligned := by
    rw [show (f.post topic payload).bus.subscriptions = f.bus.subscriptions
      from MemoryBus.publish_subscriptions _]
    exact ht.aligned

/-- The news stays news while subscriptions change, each staying on its
topic and taking nothing in but news. -/
theorem Tidings.modify (ht : Tidings f) {bus : MemoryBus}
    (htopics : bus.topics = f.bus.topics)
    (hlen : bus.subscriptions.length = f.bus.subscriptions.length)
    (hget : ∀ (j : Nat) (y : Subscription),
      bus.subscriptions[j]? = some y →
        ∃ x, f.bus.subscriptions[j]? = some x ∧ y.topic = x.topic
          ∧ ∀ e, y.dispatcher.waiting = some e →
            x.dispatcher.waiting = some e
              ∨ (x.topic = f.topic → News f e.payload)) :
    Tidings { f with bus } := by
  refine ⟨ht.posted, ?_, ?_, ?_, ?_, ?_, ?_⟩
  · intro j e he
    refine ht.kept j e ?_
    rw [← he]
    simp only [MemoryBus.messages, htopics]
  · intro j y e hj hy hw
    obtain ⟨x, hx, hxt, hor⟩ := hget j y hj
    rcases hor e hw with hw | hn
    · exact ht.waiting j x e hx (hxt.symm.trans hy) hw
    · exact hn (hxt.symm.trans hy)
  · intro j y e he hj hy
    obtain ⟨x, hx, hxt, -⟩ := hget j y hj
    exact ht.underway j x e he hx (hxt.symm.trans hy)
  · intro j e he
    show j < bus.subscriptions.length
    rw [hlen]
    exact ht.ranged j e he
  · intro j i hj
    obtain ⟨x, hx, hxt⟩ := ht.handled j i hj
    obtain ⟨hlt, -⟩ := List.getElem?_eq_some_iff.mp hx
    rw [← hlen] at hlt
    have hy := List.getElem?_eq_getElem hlt
    obtain ⟨x', hx', hyt, -⟩ := hget j _ hy
    cases hx.symm.trans hx'
    exact ⟨_, hy, hyt.trans hxt⟩
  · show f.handlers.length = bus.subscriptions.length
    rw [hlen]
    exact ht.aligned

/-- One subscription replaced. -/
theorem Tidings.set (ht : Tidings f) {bus : MemoryBus} {k : Nat}
    {sub sub' : Subscription} (hsub : f.bus.subscriptions[k]? = some sub)
    (htopics : bus.topics = f.bus.topics)
    (hsubs : bus.subscriptions = f.bus.subscriptions.set k sub')
    (htopic : sub'.topic = sub.topic)
    (hwait : ∀ e, sub'.dispatcher.waiting = some e →
      sub.topic = f.topic → News f e.payload) :
    Tidings { f with bus } := by
  obtain ⟨hlt, -⟩ := List.getElem?_eq_some_iff.mp hsub
  refine ht.modify htopics (by rw [hsubs, List.length_set]) ?_
  intro j y hj
  rw [hsubs, List.getElem?_set, if_pos hlt] at hj
  split at hj
  · rename_i hkj
    subst hkj
    cases hj
    exact ⟨sub, hsub, htopic, fun e he => Or.inr (hwait e he)⟩
  · exact ⟨y, hj, rfl, fun e he => Or.inl he⟩

/-- A subscription that keeps its topic and the message that waits. -/
theorem Tidings.update (ht : Tidings f) (k : Nat)
    {u : Subscription → Subscription}
    (hu : ∀ x, (u x).topic = x.topic
      ∧ (u x).dispatcher.waiting = x.dispatcher.waiting) :
    Tidings { f with bus := f.bus.modify k u } := by
  refine ht.modify rfl (MemoryBus.modify_length u) ?_
  intro j y hj
  rw [MemoryBus.modify_get?] at hj
  split at hj
  · obtain ⟨x, hx, rfl⟩ := Option.map_eq_some_iff.mp hj
    refine ⟨x, hx, (hu x).1, fun e he => Or.inl ?_⟩
    rw [← he, (hu x).2]
  · exact ⟨y, hj, rfl, fun e he => Or.inl he⟩

/-- A new subscription, a replica's only on the allocation topic. -/
theorem Tidings.enroll (ht : Tidings f) {bus : MemoryBus}
    {topic name : String} {options : SubscriptionOptions}
    {handler : Option Nat} (ha : ∀ i, handler = some i → topic = f.topic)
    (htopics : bus.topics = f.bus.topics)
    (hsubs : bus.subscriptions = f.bus.subscriptions
      ++ [f.bus.newcomer topic name options]) :
    Tidings { f with bus, handlers := f.handlers ++ [handler] } := by
  have hlen : bus.subscriptions.length
      = f.bus.subscriptions.length + 1 := by
    rw [hsubs, List.length_append]
    rfl
  have hold : ∀ j, j < f.bus.subscriptions.length →
      bus.subscriptions[j]? = f.bus.subscriptions[j]? := by
    intro j hj
    rw [hsubs, List.getElem?_append_left hj]
  have hnew : bus.subscriptions[f.bus.subscriptions.length]?
      = some (f.bus.newcomer topic name options) := by
    rw [hsubs, List.getElem?_append_right (Nat.le_refl _), Nat.sub_self]
    rfl
  -- the new one has no message waiting and no delivery under way
  have hcases : ∀ (j : Nat) (y : Subscription),
      bus.subscriptions[j]? = some y →
        f.bus.subscriptions[j]? = some y
          ∨ (j = f.bus.subscriptions.length
            ∧ y = f.bus.newcomer topic name options) := by
    intro j y hj
    have hlt := (List.getElem?_eq_some_iff.mp hj).1
    by_cases hjl : j < f.bus.subscriptions.length
    · rw [hold j hjl] at hj
      exact Or.inl hj
    · have heq : j = f.bus.subscriptions.length := by omega
      subst heq
      cases hj.symm.trans hnew
      exact Or.inr ⟨rfl, rfl⟩
  refine ⟨ht.posted, ?_, ?_, ?_, ?_, ?_, ?_⟩
  · intro j e he
    refine ht.kept j e ?_
    rw [← he]
    simp only [MemoryBus.messages, htopics]
  · intro j y e hj hy hw
    rcases hcases j y hj with hj | ⟨-, rfl⟩
    · exact ht.waiting j y e hj hy hw
    · cases hw
  · intro j y e he hj hy
    rcases hcases j y hj with hj | ⟨rfl, -⟩
    · exact ht.underway j y e he hj hy
    · exact absurd (ht.ranged _ e he) (Nat.lt_irrefl _)
  · intro j e he
    show j < bus.subscriptions.length
    rw [hlen]
    exact Nat.lt_succ_of_lt (ht.ranged j e he)
  · intro j i hj
    change (f.handlers ++ [handler])[j]? = some (some i) at hj
    by_cases hjl : j < f.handlers.length
    · rw [List.getElem?_append_left hjl] at hj
      obtain ⟨x, hx, hxt⟩ := ht.handled j i hj
      refine ⟨x, ?_, hxt⟩
      show bus.subscriptions[j]? = _
      rw [hold j (by rw [← ht.aligned]; exact hjl), hx]
    · have hlt := (List.getElem?_eq_some_iff.mp hj).1
      rw [List.length_append] at hlt
      have heq : j = f.handlers.length := by
        simp only [List.length_singleton] at hlt
        omega
      subst heq
      rw [List.getElem?_append_right (Nat.le_refl _), Nat.sub_self] at hj
      cases hj
      refine ⟨f.bus.newcomer topic name options, ?_, ha i rfl⟩
      show bus.subscriptions[f.handlers.length]? = _
      rw [ht.aligned, hnew]
  · show (f.handlers ++ [handler]).length = bus.subscriptions.length
    rw [hlen, List.length_append, ht.aligned]
    rfl

/-- Another delivery under way, or one less. -/
theorem Tidings.deliveries (ht : Tidings f) (ds : List (Nat × Envelope))
    (hds : ∀ k e, (k, e) ∈ ds → (k, e) ∈ f.deliveries
      ∨ ∃ sub, f.bus.subscriptions[k]? = some sub
        ∧ (sub.topic = f.topic → News f e.payload)) :
    Tidings { f with deliveries := ds } where
  posted := ht.posted
  kept := ht.kept
  waiting := ht.waiting
  underway k sub e he hs hst := by
    rcases hds k e he with he | ⟨x, hx, hn⟩
    · exact ht.underway k sub e he hs hst
    · cases hx.symm.trans hs
      exact hn hst
  ranged k e he := by
    rcases hds k e he with he | ⟨x, hx, -⟩
    · exact ht.ranged k e he
    · exact (List.getElem?_eq_some_iff.mp hx).1
  handled := ht.handled
  aligned := ht.aligned

/-- All that travels stays news, whatever happens beside the calls. -/
theorem Tidings.aside (ht : Tidings f) {a : Aside}
    (h : AsideStep f a g) : Tidings g := by
  cases h with
  | idle => exact ht
  | outage => exact ht.same rfl rfl rfl rfl rfl (fun _ ha => ha)
  | clock hg =>
      obtain ⟨b, -, rfl⟩ := hg
      exact ht.same rfl rfl rfl rfl rfl (fun _ ha => ha)
  | enrolled ha htop hc hs => exact ht.enroll ha htop hs
  | unsubscribed => exact ht.update _ (fun _ => ⟨rfl, rfl⟩)
  | posted hne => exact ht.post _ (fun heq => absurd heq hne)
  | @turned m sub sub' bus ambient k hsub hend hturn htop hc hs ha =>
      have hset : Tidings { f with bus } := by
        refine ht.set hsub htop hs ?_ ?_
        · cases hturn <;> rfl
        · intro e hw hst
          cases hturn with
          | started hw' hd => rw [hd] at hw; cases hw
          | closed hw' hc => rw [hw'] at hw; cases hw
          | lagged hw' hn hc => rw [hw'] at hw; cases hw
          | expired hw' hm ttl => rw [hw'] at hw; cases hw
          | @taken e' d hw' hm hd =>
              -- what comes to wait was among the messages
              cases hd.symm.trans hw
              rw [hst] at hm
              exact ht.kept _ e hm
      have hdel : Tidings { f with
          bus, deliveries
            := f.deliveries ++ (m.map fun m => (k, m)).toList } := by
        refine hset.deliveries _ ?_
        intro j e he
        rcases List.mem_append.mp he with he | he
        · exact Or.inl he
        · cases m with
          | none => cases he
          | some m' =>
              cases List.mem_singleton.mp he
              obtain ⟨hlt, -⟩ := List.getElem?_eq_some_iff.mp hsub
              refine Or.inr ⟨sub', ?_, ?_⟩
              · show bus.subscriptions[k]? = _
                rw [hs, List.getElem?_set_self hlt]
              · -- what is begun was waiting
                intro hst
                cases hturn with
                | started hw hd => exact ht.waiting k sub e hsub hst hw
      exact hdel.same rfl rfl rfl rfl rfl (fun _ ha => ha)
  | @delivered k other m n g hk hg =>
      have hless := ht.deliveries (f.deliveries.eraseIdx k)
        (fun j e he => Or.inl (List.mem_of_mem_eraseIdx he))
      have hdone := hless.update n
        (u := fun x => { x with dispatcher := x.dispatcher.finish })
        (fun _ => ⟨rfl, rfl⟩)
      obtain ⟨i, reg, hr⟩ := f.received_eq n m.payload
      rw [hr] at hg
      obtain ⟨b, -, rfl⟩ := hg
      exact hdone.same rfl rfl rfl rfl rfl (fun _ ha => ha)
  | @redelivered name k payload i g hk hg =>
      obtain ⟨reg, hr⟩ := f.heard_eq i payload
      rw [hr] at hg
      obtain ⟨b, -, rfl⟩ := hg
      exact ht.same rfl rfl rfl rfl rfl (fun _ ha => ha)
  | removed => exact ht.same rfl rfl rfl rfl rfl (fun _ ha => ha)
  | closed => exact ht.same rfl rfl rfl rfl rfl (fun _ ha => ha)

end ControlPlane.Fleet
