/-
Where the messages of a subscription come from. On the key-value server
every message is a key below one for its topic, and a subscription
watches all that is below the key of its own. So what it is handed was
published on its topic, or on a topic that goes on behind it and a
slash: as long as nobody else writes the keys of messages, nothing
else ever reaches it, and what reaches it is the message as it was
published (`delivered_beneath`). Where no topic holds a slash, topics are
as separate as they are in memory. Where one goes on behind another they
are not: the one's subscriptions are handed the other's messages too
(`handed_from_beneath`).

# The way back

A delivery is started of the message that waited; it was read from an
entry of the response that the loop looked at, and the response told
what the server had in its history (`Subscriber.Sourced`). The entry was
written by a publish (`source`), and its key says on which topic.

# What publishing writes
# What is published and what is delivered
# Where a subscription's messages come from
# The whole way

Chain: Etcd/Loops.lean, Etcd/Ranges.lean, Messages.lean → TopicIsolation
(this file).
-/
import Mathlib
import ControlPlane.Proofs.Etcd.Loops
import ControlPlane.Proofs.Etcd.Ranges
import ControlPlane.Proofs.Messages

namespace ControlPlane.Etcd

open Subscriber (Turned Alike)

-- ================================================ what publishing writes

namespace Server

variable {s t : Server}

/-- A write adds its key and its value to the history. -/
theorem put_history (hk : s.Keyed) (key value : String) (lease : Nat) :
    ∃ e, (s.put key value lease).history = s.history ++ [.put e]
      ∧ e.key = key ∧ e.value = value := by
  unfold put
  cases h : s.entries.get? key with
  | none => exact ⟨_, rfl, rfl, rfl⟩
  | some e => exact ⟨_, rfl, hk.own (key, e) (Table.mem_of_find h), rfl⟩

theorem delete_history (s : Server) (key : String) :
    (s.delete key).history = s.history
      ∨ ∃ n, (s.delete key).history = s.history ++ [.delete key n] := by
  unfold delete
  split
  · exact Or.inr ⟨_, rfl⟩
  · exact Or.inl rfl

/-- The same entries and the same history, whatever else differs. -/
structure Same (s t : Server) : Prop where
  entries : t.entries = s.entries
  history : t.history = s.history

theorem Same.refl (s : Server) : s.Same s := ⟨rfl, rfl⟩

theorem Keyed.same (hk : s.Keyed) (hs : s.Same t) : t.Keyed :=
  ⟨hs.entries ▸ hk.own, hs.entries ▸ hk.nodup⟩

end Server

/-- The message that a publish sends. -/
def Bus.drafted (topic : String) (payload : Json) (a : Ambient) :
    Envelope :=
  ⟨a.uuid.1, topic, a.uuid.2.now.1, payload⟩

/-- Publishing writes the message under its key, or nothing. -/
theorem Bus.publish_server (b : Bus) (topic : String) (payload : Json)
    (s : Server) (fates : List Passage) (a : Ambient) :
    s.Same (b.publish .foretold topic payload (s, fates) a).2.1.1
      ∨ ∃ t lease, s.Same t
        ∧ (b.publish .foretold topic payload (s, fates) a).2.1.1
          = t.put (key (drafted topic payload a))
              (drafted topic payload a).toJson.text lease := by
  have hgrant : s.Same (s.serve (.grant b.leaseSecs)).2 := ⟨rfl, rfl⟩
  unfold publish
  simp only
  rcases Client.foretold_cases (.grant b.leaseSecs) s fates with
    ⟨rest, h⟩ | ⟨detail, s', rest, h, hs⟩
  · rw [h]
    simp only
    rcases Client.foretold_cases
        (.put (key (drafted topic payload a))
          (drafted topic payload a).toJson.text
          (s.serve (.grant b.leaseSecs)).1)
        (s.serve (.grant b.leaseSecs)).2 rest with
      ⟨rest', h'⟩ | ⟨detail, t, rest', h', ht⟩
    · rw [drafted] at h'
      rw [h']
      exact Or.inr ⟨_, _, hgrant, rfl⟩
    · rw [drafted] at h'
      rw [h']
      rcases ht with rfl | rfl
      · exact Or.inl hgrant
      · exact Or.inr ⟨_, _, hgrant, rfl⟩
  · rw [h]
    rcases hs with rfl | rfl
    · exact Or.inl (.refl _)
    · exact Or.inl hgrant

namespace Site

variable {f : Site} {e : Event} {st : Setting} {h p : History} {i : Nat}
  {x x' : Subscriber} {m : Envelope} {en : Entry}

-- =============================== what is published, what is delivered

/-- The message that an event publishes. -/
def publishes (f : Site) : Event → Option Envelope
  | .publish topic payload _ => some (Bus.drafted topic payload f.ambient)
  | _ => none

/-- The message of a subscription whose delivery an event starts. -/
def delivers (f : Site) (i : Nat) : Event → Option Envelope
  | .turn j now fates =>
    if j = i then
      (f.bus.turn .foretold Prod.fst j now (f.server, fates)
        f.ambient).bind Prod.fst
    else none
  | _ => none

/-- All messages that were published, also those whose publishers were
told of a failure. -/
def published (st : Setting) : History → List Envelope
  | [] => []
  | e :: h => published st h ++ ((after st h).publishes e).toList

/-- All messages that a subscription's handler was called with. -/
def delivered (st : Setting) (i : Nat) : History → List Envelope
  | [] => []
  | e :: h => delivered st i h ++ ((after st h).delivers i e).toList

/-- Nobody but publishers writes the keys of messages. -/
def Quiet (h : History) : Prop :=
  ∀ key value lease, .put key value lease ∈ h →
    (Range.under Bus.root).covers key = false

theorem Quiet.tail (hq : Quiet (e :: h)) : Quiet h :=
  fun key value lease hin =>
    hq key value lease (List.mem_cons_of_mem _ hin)

/-- An event keeps the entries keyed, and what it adds to the history is
somebody's write or a published message. -/
theorem step_server (hk : f.server.Keyed) (e : Event) :
    (f.step e).server.Keyed
      ∧ ∀ en, .put en ∈ (f.step e).server.history →
        .put en ∈ f.server.history
          ∨ (∃ lease, e = .put en.key en.value lease)
          ∨ ∃ m, f.publishes e = some m ∧ en.key = Bus.key m
            ∧ en.value = m.toJson.text := by
  -- most events leave the server as it is
  have same : f.server.Same (f.step e).server →
      (f.step e).server.Keyed
        ∧ ∀ en, .put en ∈ (f.step e).server.history →
          .put en ∈ f.server.history
            ∨ (∃ lease, e = .put en.key en.value lease)
            ∨ ∃ m, f.publishes e = some m ∧ en.key = Bus.key m
              ∧ en.value = m.toJson.text :=
    fun hs => ⟨hk.same hs, fun en hen => Or.inl (hs.history ▸ hen)⟩
  cases e with
  | put key value lease =>
      refine ⟨hk.put key value lease, fun en hen => ?_⟩
      obtain ⟨e, he, hkey, hvalue⟩ := Server.put_history hk key value lease
      have hen : .put en ∈ (f.server.put key value lease).history := hen
      rw [he, List.mem_append, List.mem_singleton] at hen
      rcases hen with hen | hen
      · exact Or.inl hen
      · cases hen
        exact Or.inr (Or.inl ⟨lease, by rw [hkey, hvalue]⟩)
  | delete key =>
      refine ⟨hk.delete key, fun en hen => Or.inl ?_⟩
      have hen : .put en ∈ (f.server.delete key).history := hen
      rcases f.server.delete_history key with hd | ⟨n, hd⟩
      · exact hd ▸ hen
      · rw [hd, List.mem_append, List.mem_singleton] at hen
        rcases hen with hen | hen
        · exact hen
        · cases hen
  | publish topic payload fates =>
      rcases f.bus.publish_server topic payload f.server fates f.ambient
        with hs | ⟨t, lease, hs, hput⟩
      · exact same hs
      · have hkt := hk.same hs
        have hput : (f.step (.publish topic payload fates)).server = _ :=
          hput
        rw [hput]
        refine ⟨hkt.put _ _ lease, fun en hen => ?_⟩
        obtain ⟨e, he, hkey, hvalue⟩ := Server.put_history hkt
          (Bus.key (Bus.drafted topic payload f.ambient))
          (Bus.drafted topic payload f.ambient).toJson.text lease
        rw [he, hs.history, List.mem_append, List.mem_singleton] at hen
        rcases hen with hen | hen
        · exact Or.inl hen
        · cases hen
          exact Or.inr (Or.inr ⟨_, rfl, hkey, hvalue⟩)
  | subscribe topic name options fates =>
      have hs := (f.bus.subscribe_cases topic name options f.server fates
        f.ambient).1
      have hs : (f.step (.subscribe topic name options fates)).server
        = f.server := hs
      exact same (hs ▸ .refl _)
  | turn j now fates =>
      exact same (f.turn_server j now fates ▸ .refl _)
  | unsubscribe j => exact same (.refl _)
  | cut j last withError => exact same (.refl _)
  | breakWatches withError => exact same (.refl _)
  | finish j => exact same (.refl _)

theorem keyed_after (st : Setting) (h : History) :
    (after st h).server.Keyed := by
  induction h with
  | nil => exact ⟨nofun, List.nodup_nil⟩
  | cons e h ih => exact (step_server ih e).1

/-- What is put under the keys of messages was published. -/
theorem source (hq : Quiet h)
    (hen : .put en ∈ (after st h).server.history)
    (hroot : (Range.under Bus.root).covers en.key = true) :
    ∃ m ∈ published st h, en.key = Bus.key m
      ∧ en.value = m.toJson.text := by
  induction h with
  | nil => cases hen
  | cons e h ih =>
      rcases (step_server (keyed_after st h) e).2 en hen with
        hen | ⟨lease, rfl⟩ | ⟨m, hm, hkey, hvalue⟩
      · obtain ⟨m, hm, hkey⟩ := ih hq.tail hen
        exact ⟨m, List.mem_append_left _ hm, hkey⟩
      · have := hq _ _ _ List.mem_cons_self
        rw [hroot] at this
        cases this
      · refine ⟨m, List.mem_append_right _ ?_, hkey, hvalue⟩
        rw [hm]
        exact List.mem_singleton_self m

end Site

-- ======================== where a subscription's messages come from

namespace Subscriber

variable {s t : Server} {x x' : Subscriber} {m : Envelope}

/-- The message was read from an entry that the server knows of, in the
range of the subscription. -/
def Origin (s : Server) (x : Subscriber) (m : Envelope) : Prop :=
  ∃ en, .put en ∈ s.history ∧ x.range.covers en.key = true
    ∧ Json.readAll Envelope.form.read en.value.toList = .ok m

/-- What a subscription has before it comes from the server, and from its
range. -/
structure Sourced (s : Server) (x : Subscriber) : Prop where
  batch : ∀ c ∈ x.batch, c ∈ s.history ∧ x.range.covers c.key = true
  waiting : ∀ m, x.dispatcher.waiting = some m → x.Origin s m

theorem Joined.sourced {topic : String} (hj : x.Joined s topic) :
    x.Sourced t := by
  refine ⟨?_, ?_⟩
  · rw [hj.batch]
    exact nofun
  · rw [hj.free]
    exact nofun

theorem Sourced.mono (hx : x.Sourced s)
    (hst : ∀ c ∈ s.history, c ∈ t.history) : x.Sourced t := by
  refine ⟨fun c hc => (hx.batch c hc).imp_left (hst c), fun m hm => ?_⟩
  obtain ⟨en, hen, hrest⟩ := hx.waiting m hm
  exact ⟨en, hst _ hen, hrest⟩

theorem Sourced.alike (hx : x.Sourced s) (ha : x.Alike x')
    (hw : x'.dispatcher.waiting = x.dispatcher.waiting) :
    x'.Sourced s := by
  have hrange : x'.range = x.range := by
    rw [range, range, ha.topic]
  refine ⟨?_, ?_⟩
  · rw [ha.batch, hrange]
    exact hx.batch
  · rw [hw]
    unfold Origin
    rw [hrange]
    exact hx.waiting

/-- Of the changes at hand, those behind the first come from where all of
them come from. -/
theorem Sourced.rest (hx : x.Sourced s) {c : Change} {cs : List Change}
    (hb : x.batch = c :: cs) :
    ∀ d ∈ cs, d ∈ s.history ∧ x.range.covers d.key = true :=
  fun d hd => hx.batch d (hb ▸ List.mem_cons_of_mem c hd)

theorem accept_message {d : Dispatcher} {a : Ambient} {n : Envelope}
    (hfree : d.waiting = none) (h : (d.accept m a).1.waiting = some n) :
    n = m := by
  unfold Dispatcher.accept at h
  simp only at h
  generalize (if d.checkAge then a.now else (a.clock, a)) = na at h
  split at h
  · cases hfree.symm.trans h
  · exact (Option.some.inj h).symm

theorem start_waiting {d d' : Dispatcher}
    (h : d.start = some (m, d')) : d'.waiting = none := by
  unfold Dispatcher.start at h
  split at h
  · split at h
    · cases h
      rfl
    · cases h
  · cases h

theorem Sourced.turned (hx : x.Sourced s) (ht : x.Turned s x') :
    x'.Sourced s := by
  have hnone : ∀ {d : Dispatcher}, d.waiting = none →
      ∀ m, d.waiting = some m → x.Origin s m := by
    intro d hd m hm
    cases hd.symm.trans hm
  cases ht with
  | started hd => exact ⟨hx.batch, hnone (start_waiting hd)⟩
  | skipped hfree hb => exact ⟨hx.rest hb, hx.waiting⟩
  | @handed e m cs a hfree hb hm =>
      refine ⟨hx.rest hb, fun n hn => ?_⟩
      rw [accept_message hfree hn]
      have he := hx.batch (.put e) (hb ▸ List.mem_cons_self)
      exact ⟨e, he.1, he.2, hm⟩
  | garbled hfree hb hm => exact ⟨hx.rest hb, hx.waiting⟩
  | closed => exact ⟨hx.batch, hx.waiting⟩
  | received hfree hb hw htold =>
      refine ⟨fun c hc => ?_, hx.waiting⟩
      obtain ⟨hknown, hcovers, -⟩ := (htold.mem c).mp hc
      exact ⟨hknown, hcovers⟩
  | paused => exact ⟨hx.batch, hx.waiting⟩
  | woke => exact ⟨hx.batch, hx.waiting⟩
  | opened => exact ⟨hx.batch, hx.waiting⟩

end Subscriber

/-- A turn starts the delivery of the message that waited. -/
theorem Bus.turn_delivers {b b' : Bus} {s : Server}
    {fates : List Passage} {i : Nat} {now : Moment} {a a' : Ambient}
    {m : Envelope} {t : Server × List Passage}
    (h : b.turn .foretold Prod.fst i now (s, fates) a
      = some (some m, b', t, a')) :
    ∃ x, b.subscribers[i]? = some x ∧ x.dispatcher.waiting = some m := by
  obtain ⟨x, x', hx, -, hturn, -⟩ := turn_some h
  cases hturn with
  | started hd => exact ⟨x, hx, (Subscriber.start_free hd).1⟩

namespace Site

variable {f : Site} {e : Event} {st : Setting} {h p : History} {i : Nat}
  {x x' : Subscriber} {m : Envelope} {en : Entry}

theorem history_grows (f : Site) (e : Event) :
    ∀ c ∈ f.server.history, c ∈ (f.step e).server.history := by
  intro c hc
  cases f.step_grown e with
  | still hh hr => exact hh ▸ hc
  | wrote hh hn hr =>
      rw [hh]
      exact List.mem_append_left _ hc

theorem sourced_after (hx : (after st h).bus.subscribers[i]? = some x) :
    x.Sourced (after st h).server := by
  induction h generalizing x with
  | nil => cases hx
  | cons e h ih =>
      rcases came e hx with hj | ⟨y, hy, hw⟩
      · exact hj.sourced
      · have hy := ih hy
        refine Subscriber.Sourced.mono ?_ (history_grows _ e)
        cases hw with
        | aside ha hw => exact hy.alike ha hw
        | turned ht => exact hy.turned ht

-- ======================================================== the whole way

/-- A message whose delivery is started comes from an entry in the range
of its subscription. -/
theorem origin_of_delivers (hm : (after st h).delivers i e = some m) :
    ∃ x, (after st h).bus.subscribers[i]? = some x
      ∧ x.Origin (after st h).server m := by
  unfold delivers at hm
  split at hm
  · split at hm
    · rename_i j now fates hji
      subst hji
      obtain ⟨⟨_, b', t, a'⟩, hturn, rfl⟩ := Option.bind_eq_some_iff.mp hm
      obtain ⟨x, hx, hwaiting⟩ := Bus.turn_delivers hturn
      exact ⟨x, hx, (sourced_after hx).waiting m hwaiting⟩
    · cases hm
  · cases hm

theorem origin_of_delivered (hm : m ∈ delivered st i h) :
    ∃ x, (after st h).bus.subscribers[i]? = some x
      ∧ x.Origin (after st h).server m := by
  induction h with
  | nil => cases hm
  | cons e h ih =>
      have hbefore : ∃ x, (after st h).bus.subscribers[i]? = some x
          ∧ x.Origin (after st h).server m := by
        rcases List.mem_append.mp hm with hm | hm
        · exact ih hm
        · exact origin_of_delivers (Option.mem_toList.mp hm)
      obtain ⟨x, hx, en, hen, hcovers, hread⟩ := hbefore
      obtain ⟨x', hx', hw⟩ := went e hx
      exact ⟨x', hx', en, history_grows _ e _ hen, hw.range ▸ hcovers,
        hread⟩

/-- As long as only publishers write the keys of messages, what a
subscription's handler is called with was published on its topic or on
one beneath it, and is what was published. A topic without a slash is
beneath no other. -/
theorem delivered_beneath (hq : Quiet h) (hm : m ∈ delivered st i h) :
    ∃ x m₀, (after st h).bus.subscribers[i]? = some x
      ∧ m₀ ∈ published st h
      ∧ Beneath x.topic m₀.topic
      ∧ ('/' ∉ m₀.topic.toList → m₀.topic = x.topic)
      ∧ Json.readAll Envelope.form.read m₀.toJson.text.toList = .ok m
      ∧ (m₀.Valid → m = m₀) := by
  obtain ⟨x, hx, en, hen, hcovers, hread⟩ := origin_of_delivered hm
  have hroot : (Range.under Bus.root).covers en.key = true := by
    rw [Subscriber.range, covers_under] at hcovers
    rw [covers_under]
    refine List.IsPrefix.trans ?_ hcovers
    rw [Bus.topicRoot, String.toList_append, String.toList_append,
      List.append_assoc]
    exact List.prefix_append _ _
  obtain ⟨m₀, hm₀, hkey, hvalue⟩ := source hq hen hroot
  rw [hkey, Subscriber.range, covers_message] at hcovers
  rw [hvalue] at hread
  refine ⟨x, m₀, hx, hm₀, hcovers, ?_, hread, ?_⟩
  · intro hslash
    rcases hcovers with heq | hbehind
    · exact heq
    · refine absurd (hbehind.subset ?_) hslash
      simp [String.toList_append]
  · intro hvalid
    have hback := Envelope.readAll_text hvalid
    exact Except.ok.inj (hread.symm.trans hback)

/-- A message is published on a topic that goes on behind the one of a
subscription. -/
def nested : History :=
  [.turn 0 0 [], .turn 0 0 [], .turn 0 0 [],
    .publish "a/b" .null [], .subscribe "a" "x" (.ofSettings {}) []]

theorem nested_quiet : Quiet nested := by
  intro key value lease hin
  simp [nested] at hin

/-- The subscription is there, and its handler was called. -/
theorem nested_delivered :
    ∃ x m, (after lab nested).bus.subscribers[0]? = some x
      ∧ x.topic = "a" ∧ m ∈ delivered lab 0 nested := by
  have htopic : (after lab nested).bus.subscribers[0]?.any
      (fun x => x.topic = "a") = true := by decide +kernel
  have hsome : (delivered lab 0 nested).isEmpty = false := by
    decide +kernel
  obtain ⟨x, hx, ha⟩ := (Option.any_eq_true _ _).mp htopic
  obtain ⟨m, hm⟩ := List.isEmpty_eq_false_iff_exists_mem.mp hsome
  exact ⟨x, m, hx, by simpa using ha, hm⟩

theorem delivered_beneath_nested :
    Quiet nested ∧ ∃ m ∈ delivered lab 0 nested, ∃ x m₀,
      (after lab nested).bus.subscribers[0]? = some x
        ∧ m₀ ∈ published lab nested ∧ Beneath x.topic m₀.topic
        ∧ Json.readAll Envelope.form.read m₀.toJson.text.toList
          = .ok m := by
  obtain ⟨-, m, -, -, hm⟩ := nested_delivered
  obtain ⟨x, m₀, hx, hm₀, hbeneath, -, hread, -⟩ :=
    delivered_beneath nested_quiet hm
  exact ⟨nested_quiet, m, hm, x, m₀, hx, hm₀, hbeneath, hread⟩

/-- The subscription's handler is called with the message although
nothing was published on its topic. -/
theorem handed_from_beneath :
    ¬ ∀ (st : Setting) (h : History) (i : Nat) (x : Subscriber),
      Quiet h → (after st h).bus.subscribers[i]? = some x →
        ∀ m ∈ delivered st i h,
          ∃ m₀ ∈ published st h, m₀.topic = x.topic := by
  intro hall
  have hnone : (published lab nested).any (fun m => m.topic = "a")
      = false := by decide +kernel
  obtain ⟨x, m, hx, htopic, hm⟩ := nested_delivered
  obtain ⟨m₀, hm₀, heq⟩ := hall lab nested 0 x nested_quiet hx m hm
  have := List.any_eq_false.mp hnone m₀ hm₀
  simp [heq, htopic] at this

end Site

end ControlPlane.Etcd
