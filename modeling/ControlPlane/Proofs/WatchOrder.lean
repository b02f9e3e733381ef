/-
In what order a subscription on the key-value server gets its messages.
Its watches break and are opened again, and a watch that is opened tells
once more whatever is behind the place that it resumes from. What was put
is told once all the same, and in the order of the revisions; so the
revisions of the messages that the dispatcher is handed only go up
(`never_repeats`).

# What is told, and what is handed over

The responses that come in, one behind the other, are what the loop is
told (`told`); deletions may be told again. Of these changes it hands
over those that put a message (`handed`). Between the two nothing is lost
and nothing is swapped: what was handed over, and the messages among the
changes that are still at hand, are the messages among the changes that
were told. What puts no message is passed by, and leaves nothing behind
but the place to resume from.

# Why nothing is told twice

Everything that was told to be put is at hand, or not behind the last put
that the loop has seen; and an open watch starts behind all of it
(`Subscriber.Heard`). A loop that opens a watch has nothing at hand.

# Changes that put messages
# One turn
# What the loop has heard
# Histories
# In order

Chain: over WatchGaps.lean and DroppedHandles.lean.
-/
import Mathlib
import ControlPlane.Proofs.DroppedHandles
import ControlPlane.Proofs.WatchGaps

namespace ControlPlane.Etcd

open Subscriber (Turned Alike)

-- ============================================== changes that put messages

namespace Change

/-- The message that a change puts, with the revision of the put. -/
def parcel? (c : Change) : Option (Nat × Envelope) :=
  c.message?.map fun m => (c.revision, m)

/-- The revision at which something is put, message or not. -/
def putAt? : Change → Option Nat
  | .put e => some e.modified
  | .delete _ _ => none

end Change

/-- The messages that changes put, with the revisions of the puts. -/
def parcels (cs : List Change) : List (Nat × Envelope) :=
  cs.filterMap Change.parcel?

/-- The revisions of the puts among changes. -/
def puts (cs : List Change) : List Nat := cs.filterMap Change.putAt?

theorem parcels_cons (c : Change) (cs : List Change) :
    parcels (c :: cs) = c.parcel?.toList ++ parcels cs := by
  unfold parcels
  rw [List.filterMap_cons]
  cases c.parcel? <;> rfl

theorem parcels_append (cs ds : List Change) :
    parcels (cs ++ ds) = parcels cs ++ parcels ds :=
  List.filterMap_append

theorem mem_puts {cs : List Change} {n : Nat} :
    n ∈ puts cs ↔ ∃ e, .put e ∈ cs ∧ e.modified = n := by
  unfold puts
  rw [List.mem_filterMap]
  constructor
  · rintro ⟨c, hc, hn⟩
    cases c with
    | put e => exact ⟨e, hc, Option.some.inj hn⟩
    | delete key k => cases hn
  · rintro ⟨e, he, rfl⟩
    exact ⟨.put e, he, rfl⟩

/-- What puts a message puts something. -/
theorem parcels_puts (cs : List Change) :
    ((parcels cs).map Prod.fst).Sublist (puts cs) := by
  unfold parcels puts
  rw [List.map_filterMap]
  induction cs with
  | nil => exact List.Sublist.refl _
  | cons c cs ih =>
      cases c with
      | delete key n => exact ih
      | put e =>
          rw [List.filterMap_cons, List.filterMap_cons]
          simp only [Change.putAt?, Change.parcel?]
          cases (Change.put e).message? with
          | none => exact ih.cons _
          | some m => exact ih.cons_cons _

/-- A message among changes was put by one of them. -/
theorem mem_parcels {cs : List Change} {p : Nat × Envelope}
    (hp : p ∈ parcels cs) :
    ∃ e, .put e ∈ cs ∧ e.modified = p.1
      ∧ Json.readAll Envelope.form.read e.value.toList = .ok p.2 := by
  obtain ⟨c, hc, hp⟩ := List.mem_filterMap.mp hp
  obtain ⟨m, hm, rfl⟩ := Option.map_eq_some_iff.mp hp
  cases c with
  | delete key n => cases hm
  | put e =>
      refine ⟨e, hc, rfl, ?_⟩
      rw [Change.message?] at hm
      cases hr : Json.readAll Envelope.form.read e.value.toList with
      | ok m' =>
          rw [hr] at hm
          cases hm
          rfl
      | error err =>
          rw [hr] at hm
          cases hm

namespace Subscriber

variable {s t : Server} {x x' : Subscriber} {cs : List Change}
  {c : Change} {en : Entry} {m : Envelope}

-- =============================================================== one turn

/-- The message that a loop hands to its dispatcher, with the revision of
its put, by how the subscription was before and is after. -/
def passes (x x' : Subscriber) : Option (Nat × Envelope) :=
  match x.dispatcher.waiting, x.batch, x'.dispatcher.waiting with
  | none, c :: _, some m => some (c.revision, m)
  | _, _, _ => none

/-- The response that came in, likewise. -/
def comesIn (x x' : Subscriber) : List Change :=
  if x.batch = [] then x'.batch else []

theorem passes_waiting
    (hw : x'.dispatcher.waiting = x.dispatcher.waiting) :
    x.passes x' = none := by
  unfold passes
  rw [hw]
  cases x.dispatcher.waiting <;> cases x.batch <;> rfl

theorem passes_idle (hb : x.batch = []) : x.passes x' = none := by
  unfold passes
  rw [hb]
  cases x.dispatcher.waiting <;> rfl

theorem passes_busy (hw : x.dispatcher.waiting = some m) :
    x.passes x' = none := by
  unfold passes
  rw [hw]

theorem passes_head (hfree : x.dispatcher.waiting = none)
    (hb : x.batch = c :: cs) (hw : x'.dispatcher.waiting = some m) :
    x.passes x' = some (c.revision, m) := by
  unfold passes
  rw [hfree, hb, hw]

theorem comesIn_held (hb : x'.batch = x.batch) : x.comesIn x' = [] := by
  unfold comesIn
  split
  · rename_i hx
    rw [hb, hx]
  · rfl

theorem comesIn_busy (hb : x.batch = c :: cs) : x.comesIn x' = [] := by
  unfold comesIn
  rw [hb]
  rfl

theorem comesIn_idle (hb : x.batch = []) : x.comesIn x' = x'.batch :=
  if_pos hb

/-- What a turn hands over and what is at hand after it was at hand
before it or came in with it, and in this order. -/
theorem Turned.parcels (ht : x.Turned s x')
    (hage : x.dispatcher.checkAge = false) :
    (x.passes x').toList ++ parcels x'.batch
      = parcels x.batch ++ parcels (x.comesIn x') := by
  -- nothing at hand, and nothing comes in
  have idle : ∀ y : Subscriber, x.batch = [] → y.batch = x.batch →
      (x.passes y).toList ++ Etcd.parcels y.batch
        = Etcd.parcels x.batch ++ Etcd.parcels (x.comesIn y) := by
    intro y hb hy
    rw [passes_idle hb, comesIn_held hy, hy, hb]
    rfl
  -- a change that puts no message
  have passed : ∀ (y : Subscriber) (c : Change), c.parcel? = none →
      x.batch = c :: y.batch → y.dispatcher = x.dispatcher →
      (x.passes y).toList ++ Etcd.parcels y.batch
        = Etcd.parcels x.batch ++ Etcd.parcels (x.comesIn y) := by
    intro y c hc hb hy
    rw [passes_waiting (congrArg Dispatcher.waiting hy), comesIn_busy hb,
      hb, parcels_cons, hc]
    exact (List.append_nil _).symm
  cases ht with
  | @started m d hd =>
      have hnone : x.passes { x with dispatcher := d } = none :=
        passes_busy (MemoryBus.start_cases hd).1
      have hin : x.comesIn { x with dispatcher := d } = [] :=
        comesIn_held rfl
      rw [hnone, hin]
      exact (List.append_nil _).symm
  | @skipped key n cs hfree hb => exact passed _ (.delete key n) rfl hb rfl
  | @handed e m cs a hfree hb hm =>
      have hparcel : (Change.put e).parcel? = some (e.modified, m) := by
        rw [Change.parcel?, Change.message?, hm]
        rfl
      have hpasses : x.passes { x with
          batch := cs, last := max x.last e.modified
          dispatcher := (x.dispatcher.accept m a).1 }
          = some (e.modified, m) :=
        passes_head hfree hb (accept_waiting hage m a)
      rw [hpasses, comesIn_busy hb, hb, parcels_cons, hparcel]
      exact (List.append_nil _).symm
  | @garbled e err cs hfree hb hm =>
      refine passed _ (.put e) ?_ hb rfl
      rw [Change.parcel?, Change.message?, hm]
      rfl
  | closed hfree hb => exact idle _ hb rfl
  | received hfree hb hw htold =>
      rw [passes_idle hb, comesIn_idle hb, hb]
      rfl
  | paused hfree hb => exact idle _ hb rfl
  | woke hfree hb => exact idle _ hb rfl
  | opened hfree hb hw => exact idle _ hb rfl

/-- What waits after a turn that delivers nothing is what it handed
over. -/
theorem Turned.passed (ht : x.Turned s x')
    (hage : x.dispatcher.checkAge = false)
    (hfree : x.dispatcher.waiting = none) :
    x'.dispatcher.waiting.toList
      = ((x.passes x').toList).map Prod.snd := by
  -- a turn that has nothing to do with the dispatcher
  have kept : ∀ y : Subscriber, y.dispatcher = x.dispatcher →
      y.dispatcher.waiting.toList
        = ((x.passes y).toList).map Prod.snd := by
    intro y hy
    rw [passes_waiting (congrArg Dispatcher.waiting hy), hy, hfree]
    rfl
  cases ht with
  | started hd => cases hfree.symm.trans (MemoryBus.start_cases hd).1
  | @handed e m cs a _ hb hm =>
      have hwaits := accept_waiting hage m a
      rw [passes_head hfree hb hwaits, hwaits]
      rfl
  | _ => exact kept _ rfl

/-- A message that waits does so until its delivery is started. -/
theorem Turned.freed (ht : x.Turned s x')
    (hw : x.dispatcher.waiting = some m) :
    x'.dispatcher.waiting = none := by
  cases ht with
  | started hd => exact (MemoryBus.start_cases hd).2
  | _ hfree => cases hw.symm.trans hfree

/-- Looking at what puts no message changes only where the loop would
resume. -/
theorem look_idle (hc : c.message? = none) (x : Subscriber)
    (a : Ambient) : ∃ n, (x.look c a).1 = { x with last := n } := by
  unfold look
  cases c with
  | delete key n => exact ⟨x.last, rfl⟩
  | put e =>
      rw [Change.message?] at hc
      cases hr : Json.readAll Envelope.form.read e.value.toList with
      | error err =>
          simp only [hr]
          exact ⟨_, rfl⟩
      | ok m =>
          rw [hr] at hc
          cases hc

-- ================================================ what the loop has heard

/-- What a loop goes by agrees with the changes `t` that it was told, on
a server that has come to all of them. -/
structure Heard (s : Server) (t : List Change) (x : Subscriber) :
    Prop where
  known : ∀ c ∈ t, c ∈ s.history ∧ x.range.covers c.key = true
  positive : ∀ e, .put e ∈ t → 0 < e.modified
  held : ∀ c ∈ x.batch, c ∈ t
  /-- What was put is seen, or at hand. -/
  seen : ∀ e, .put e ∈ t → e.modified ≤ x.last ∨ .put e ∈ x.batch
  last : x.last ≤ s.revision
  /-- An open watch starts behind all that was put, and not behind what
  is to come. -/
  next : ∀ w, x.state = .watching w →
    x.last < w.next ∧ w.next ≤ s.revision + 1
      ∧ ∀ e, .put e ∈ t → e.modified < w.next

variable {told : List Change}

theorem Joined.heard {topic : String} (hj : x.Joined s topic) :
    x.Heard s [] where
  known _ hc := absurd hc List.not_mem_nil
  positive _ he := absurd he List.not_mem_nil
  held := by
    rw [hj.batch]
    exact fun _ hc => hc
  seen _ he := absurd he List.not_mem_nil
  last := by
    rw [hj.last]
    exact Nat.zero_le _
  next := by
    intro w hw
    cases hj.state.symm.trans hw
    rw [hj.last]
    exact ⟨Nat.succ_pos _, Nat.le_refl _,
      fun _ he => absurd he List.not_mem_nil⟩

theorem Heard.mono (hx : x.Heard s told)
    (hst : ∀ c ∈ s.history, c ∈ t.history)
    (hle : s.revision ≤ t.revision) : x.Heard t told where
  known c hc := (hx.known c hc).imp_left (hst c)
  positive := hx.positive
  held := hx.held
  seen := hx.seen
  last := Nat.le_trans hx.last hle
  next w hw := by
    obtain ⟨hlast, hnext, hall⟩ := hx.next w hw
    exact ⟨hlast, by omega, hall⟩

theorem Heard.alike (hx : x.Heard s told) (ha : x.Alike x') :
    x'.Heard s told where
  known := by
    rw [range, ha.topic]
    exact hx.known
  positive := hx.positive
  held := ha.batch ▸ hx.held
  seen := by
    rw [ha.batch, ha.last]
    exact hx.seen
  last := ha.last ▸ hx.last
  next w' hw' := by
    obtain ⟨w, hw, heq⟩ := ha.next w' hw'
    rw [← heq, ha.last]
    exact hx.next w hw

/-- A loop that has looked at all it was told goes on to another
state. -/
theorem Heard.goto (hx : x.Heard s told) {l : LoopState}
    (hn : ∀ w, l = .watching w → x.last < w.next
      ∧ w.next ≤ s.revision + 1
      ∧ ∀ e, .put e ∈ told → e.modified < w.next) :
    Heard s told { x with state := l } :=
  ⟨hx.known, hx.positive, hx.held, hx.seen, hx.last, hn⟩

/-- A loop looks at the first change at hand. -/
theorem Heard.look (hx : x.Heard s told) (ho : s.Ordered)
    (hb : x.batch = c :: cs) {n : Nat} (hn : x.last ≤ n)
    (hput : ∀ e, c = .put e → e.modified ≤ n)
    (hmax : n = x.last ∨ ∃ e, c = .put e ∧ n = e.modified)
    (d : Dispatcher) :
    Heard s told { x with batch := cs, last := n, dispatcher := d } := by
  have hc : c ∈ told := hx.held c (hb ▸ List.mem_cons_self)
  refine ⟨hx.known, hx.positive, ?_, ?_, ?_, ?_⟩
  · exact fun d hd => hx.held d (hb ▸ List.mem_cons_of_mem c hd)
  · intro e he
    rcases hx.seen e he with hle | hin
    · exact Or.inl (Nat.le_trans hle hn)
    · rw [hb] at hin
      rcases List.mem_cons.mp hin with heq | hin
      · exact Or.inl (hput e heq.symm)
      · exact Or.inr hin
  · rcases hmax with rfl | ⟨e, rfl, rfl⟩
    · exact hx.last
    · exact ho.bounded _ (hx.known _ hc).1
  · intro w hw
    obtain ⟨hlast, hnext, hall⟩ := hx.next w hw
    refine ⟨?_, hnext, hall⟩
    rcases hmax with rfl | ⟨e, rfl, rfl⟩
    · exact hlast
    · exact hall e hc

/-- A watch that is opened starts behind all that was put. -/
theorem Heard.resume (hx : x.Heard s told) (ho : s.Ordered)
    (hb : x.batch = []) : x.last < x.resumeFrom.getD (s.revision + 1)
      ∧ x.resumeFrom.getD (s.revision + 1) ≤ s.revision + 1
      ∧ ∀ e, .put e ∈ told →
        e.modified < x.resumeFrom.getD (s.revision + 1) := by
  have hlast := hx.last
  unfold resumeFrom
  split
  · refine ⟨Nat.lt_succ_self _, Nat.succ_le_succ hlast, fun e he => ?_⟩
    rcases hx.seen e he with hle | hin
    · exact Nat.lt_succ_of_le hle
    · rw [hb] at hin
      cases hin
  · refine ⟨Nat.lt_succ_of_le hlast, Nat.le_refl _, fun e he => ?_⟩
    exact Nat.lt_succ_of_le (ho.bounded _ (hx.known _ he).1)

/-- A response comes in: all of it is behind what was told before. -/
theorem Heard.receive (hx : x.Heard s told) (ho : s.Ordered)
    {w w' : Watch} (hb : x.batch = []) (hw : x.state = .watching w)
    (htold : w.Told x.range s cs w') :
    Heard s (told ++ cs)
      { x with state := .watching w', batch := cs } := by
  obtain ⟨hlast, hnext, hall⟩ := hx.next w hw
  have hbehind : ∀ c ∈ cs, w.next ≤ c.revision :=
    fun c hc => ((htold.mem c).mp hc).2.2.1
  have hfurther : w.next < w'.next := by
    obtain ⟨l, hl, heq⟩ := htold.next
    have := hbehind l (List.mem_of_getLast? hl)
    omega
  refine ⟨?_, ?_, ?_, ?_, hx.last, ?_⟩
  · intro c hc
    rcases List.mem_append.mp hc with hc | hc
    · exact hx.known c hc
    · obtain ⟨hin, hcov, -⟩ := (htold.mem c).mp hc
      exact ⟨hin, hcov⟩
  · intro e he
    rcases List.mem_append.mp he with he | he
    · exact hx.positive e he
    · exact Nat.zero_lt_of_lt (Nat.lt_of_lt_of_le hlast (hbehind _ he))
  · exact fun c hc => List.mem_append_right _ hc
  · intro e he
    rcases List.mem_append.mp he with he | he
    · rcases hx.seen e he with hle | hin
      · exact Or.inl hle
      · rw [hb] at hin
        cases hin
    · exact Or.inr he
  · rintro _ ⟨⟩
    refine ⟨Nat.lt_trans hlast hfurther, ?_, ?_⟩
    · exact htold.next_le fun c hc =>
        Nat.lt_succ_of_le (ho.bounded c ((htold.mem c).mp hc).1)
    · intro e he
      rcases List.mem_append.mp he with he | he
      · exact Nat.lt_trans (hall e he) hfurther
      · exact htold.behind ho he

theorem Turned.heard (ht : x.Turned s x') (hx : x.Heard s told)
    (ho : s.Ordered) : x'.Heard s (told ++ x.comesIn x') := by
  -- nothing comes in
  have still : ∀ y : Subscriber, x.comesIn y = [] → y.Heard s told →
      y.Heard s (told ++ x.comesIn y) := by
    intro y hnone hy
    rw [hnone, List.append_nil]
    exact hy
  cases ht with
  | started hd =>
      refine still _ (comesIn_held rfl) ?_
      exact ⟨hx.known, hx.positive, hx.held, hx.seen, hx.last, hx.next⟩
  | skipped hfree hb =>
      refine still _ (comesIn_busy hb) ?_
      exact hx.look ho hb (Nat.le_refl _) nofun (Or.inl rfl) x.dispatcher
  | @handed e m cs a hfree hb hm =>
      refine still _ (comesIn_busy hb) ?_
      refine hx.look ho hb (Nat.le_max_left _ _) ?_ ?_ _
      · rintro _ ⟨⟩
        exact Nat.le_max_right _ _
      · exact (max_choice x.last e.modified).imp id fun h => ⟨e, rfl, h⟩
  | @garbled e err cs hfree hb hm =>
      refine still _ (comesIn_busy hb) ?_
      refine hx.look ho hb (Nat.le_max_left _ _) ?_ ?_ x.dispatcher
      · rintro _ ⟨⟩
        exact Nat.le_max_right _ _
      · exact (max_choice x.last e.modified).imp id fun h => ⟨e, rfl, h⟩
  | closed hfree hb =>
      exact still _ (comesIn_held rfl) (hx.goto nofun)
  | received hfree hb hw htold =>
      rw [comesIn_idle hb]
      exact hx.receive ho hb hw htold
  | paused hfree hb =>
      exact still _ (comesIn_held rfl) (hx.goto nofun)
  | woke hfree hb =>
      exact still _ (comesIn_held rfl) (hx.goto nofun)
  | opened hfree hb hw =>
      refine still _ (comesIn_held rfl) (hx.goto ?_)
      rintro _ ⟨⟩
      exact hx.resume ho hb

/-- What comes in with a turn is a response of the open watch. -/
theorem Turned.comesIn_cases (ht : x.Turned s x') :
    x.comesIn x' = [] ∨ ∃ w w', x.state = .watching w ∧ x.batch = []
      ∧ w.Told x.range s (x.comesIn x') w' := by
  cases ht with
  | skipped _ hb => exact Or.inl (comesIn_busy hb)
  | handed _ hb => exact Or.inl (comesIn_busy hb)
  | garbled _ hb => exact Or.inl (comesIn_busy hb)
  | received _ hb hw htold =>
      rw [comesIn_idle hb]
      exact Or.inr ⟨_, _, hw, hb, htold⟩
  | _ => exact Or.inl (comesIn_held rfl)

/-- A response puts things behind all that was put before, and in
order. -/
theorem Heard.ascends (hx : x.Heard s told) (ho : s.Ordered)
    (hsorted : (puts told).Pairwise (· < ·)) {w w' : Watch}
    (hw : x.state = .watching w) (htold : w.Told x.range s cs w') :
    (puts (told ++ cs)).Pairwise (· < ·) := by
  rw [puts, List.filterMap_append, List.pairwise_append]
  refine ⟨hsorted, (htold.sorted ho).filterMap _ ?_, ?_⟩
  · intro c d hlt n hn k hk
    cases c <;> cases d <;> cases hn <;> cases hk
    exact hlt
  · intro n hn k hk
    obtain ⟨e, he, rfl⟩ := mem_puts.mp hn
    obtain ⟨e', he', rfl⟩ := mem_puts.mp hk
    have hlt := (hx.next w hw).2.2 e he
    exact Nat.lt_of_lt_of_le hlt ((htold.mem _).mp he').2.2.1

/-- A loop with nothing at hand that was told of a put has seen it. -/
theorem Heard.saw (hx : x.Heard s told) (hen : .put en ∈ told)
    (hb : x.batch = []) : x.last ≠ 0 := by
  have hpos := hx.positive en hen
  rcases hx.seen en hen with hle | hin
  · omega
  · rw [hb] at hin
    cases hin

/-- What the server has not come to yet is ahead of every loop. -/
theorem Heard.due (hx : x.Heard s told) (ho : s.Ordered)
    (hlt : s.revision < en.modified) : x.Due en := by
  refine .ahead (Nat.lt_of_le_of_lt hx.last hlt) ?_ ?_
  · intro c hc
    have := ho.bounded c (hx.known c (hx.held c hc)).1
    omega
  · intro w hw
    have := (hx.next w hw).2.1
    omega

theorem Heard.due_behind (hx : x.Heard s told) {w : Watch}
    (hw : x.state = .watching w) (hb : x.batch = [])
    (hle : w.next ≤ en.modified) : x.Due en := by
  refine .ahead (Nat.lt_of_lt_of_le (hx.next w hw).1 hle) ?_ ?_
  · rw [hb]
    exact fun c hc => absurd hc List.not_mem_nil
  · intro w' hw'
    cases hw.symm.trans hw'
    exact hle

end Subscriber

/-- A turn that delivers nothing had no message waiting. -/
theorem Bus.turn_starts {b b' : Bus} {s : Server} {fates : List Passage}
    {i : Nat} {now : Moment} {a a' : Ambient} {r : Option Envelope}
    {t : Server × List Passage} {x : Subscriber}
    (h : b.turn .foretold Prod.fst i now (s, fates) a
      = some (r, b', t, a'))
    (hx : b.subscribers[i]? = some x) {m : Envelope}
    (hw : x.dispatcher.waiting = some m) : r = some m := by
  obtain ⟨y, y', hy, -, hturn, -⟩ := turn_some h
  cases hx.symm.trans hy
  cases hturn with
  | started hd => exact (Subscriber.start_free hd).1.symm.trans hw
  | _ hfree => cases hfree.symm.trans hw

namespace Site

variable {f : Site} {e : Event} {st : Setting} {h : History} {i : Nat}
  {x x' : Subscriber} {en en' : Entry} {m : Envelope}

-- ============================================================== histories

/-- Something of subscription `i` before and after an event. -/
def across {α : Type} (f : Site) (i : Nat) (e : Event)
    (g : Subscriber → Subscriber → List α) : List α :=
  match f.bus.subscribers[i]?, (f.step e).bus.subscribers[i]? with
  | some x, some x' => g x x'
  | _, _ => []

/-- The messages that a subscription's dispatcher was handed, with the
revisions of their puts, in order. -/
def handed (st : Setting) (i : Nat) : History → List (Nat × Envelope)
  | [] => []
  | e :: h =>
    handed st i h
      ++ (after st h).across i e fun x x' => (x.passes x').toList

/-- The responses that a subscription's watches told, one behind the
other. -/
def told (st : Setting) (i : Nat) : History → List Change
  | [] => []
  | e :: h => told st i h ++ (after st h).across i e Subscriber.comesIn

theorem across_some {α : Type} {g : Subscriber → Subscriber → List α}
    (hx : f.bus.subscribers[i]? = some x)
    (hx' : (f.step e).bus.subscribers[i]? = some x') :
    f.across i e g = g x x' := by
  unfold across
  rw [hx, hx']

theorem across_none {α : Type} {g : Subscriber → Subscriber → List α}
    (hx : f.bus.subscribers[i]? = none) : f.across i e g = [] := by
  unfold across
  rw [hx]

theorem delivers_none (hx : (after st h).bus.subscribers[i]? = none)
    (e : Event) : (after st h).delivers i e = none := by
  cases hd : (after st h).delivers i e with
  | none => rfl
  | some m =>
      obtain ⟨y, hy, -⟩ := origin_of_delivers hd
      cases hx.symm.trans hy

/-- As long as a subscription is not there, it is told nothing and hands
over and delivers nothing. -/
theorem silent (hx : (after st h).bus.subscribers[i]? = none) :
    handed st i h = [] ∧ told st i h = [] ∧ delivered st i h = [] := by
  induction h with
  | nil => exact ⟨rfl, rfl, rfl⟩
  | cons e h ih =>
      have hbefore : (after st h).bus.subscribers[i]? = none := by
        cases hy : (after st h).bus.subscribers[i]? with
        | none => rfl
        | some y =>
            obtain ⟨y', hy', -⟩ := went e hy
            cases hx.symm.trans hy'
      obtain ⟨hhanded, htold, hdelivered⟩ := ih hbefore
      refine ⟨?_, ?_, ?_⟩
      · rw [handed, hhanded, across_none hbefore, List.append_nil]
      · rw [told, htold, across_none hbefore, List.append_nil]
      · rw [delivered, hdelivered, delivers_none hbefore]
        rfl

-- ============================================================== one event

theorem Went.parcels (hw : f.Went i x e x')
    (hage : x.dispatcher.checkAge = false) :
    (x.passes x').toList ++ parcels x'.batch
      = parcels x.batch ++ parcels (x.comesIn x') := by
  cases hw with
  | aside ha hw =>
      rw [Subscriber.passes_waiting hw, Subscriber.comesIn_held ha.batch,
        ha.batch]
      exact (List.append_nil _).symm
  | turned ht => exact ht.parcels hage

theorem Went.heard (hw : f.Went i x e x') {t : List Change}
    (hx : x.Heard f.server t) (ho : f.server.Ordered) :
    x'.Heard (f.step e).server (t ++ x.comesIn x') := by
  refine Subscriber.Heard.mono ?_ (history_grows f e)
    (f.step_grown e).revision_le
  cases hw with
  | aside ha hw =>
      rw [Subscriber.comesIn_held ha.batch, List.append_nil]
      exact hx.alike ha
  | turned ht => exact ht.heard hx ho

theorem Went.comesIn_cases (hw : f.Went i x e x') :
    x.comesIn x' = [] ∨ ∃ w w', x.state = .watching w ∧ x.batch = []
      ∧ w.Told x.range f.server (x.comesIn x') w' := by
  cases hw with
  | aside ha _ => exact Or.inl (Subscriber.comesIn_held ha.batch)
  | turned ht => exact ht.comesIn_cases

/-- What a turn delivers and what waits after it waited before it, or is
handed over. -/
theorem turn_handed {now : Moment} {fates : List Passage}
    (hx : f.bus.subscribers[i]? = some x)
    (hx' : (f.step (.turn i now fates)).bus.subscribers[i]? = some x')
    (hage : x.dispatcher.checkAge = false) :
    (f.delivers i (.turn i now fates)).toList
        ++ x'.dispatcher.waiting.toList
      = x.dispatcher.waiting.toList
        ++ ((x.passes x').toList).map Prod.snd := by
  simp only [step] at hx'
  simp only [delivers, if_true]
  cases ht : f.bus.turn .foretold Prod.fst i now (f.server, fates)
      f.ambient with
  | none =>
      rw [ht] at hx'
      cases hx.symm.trans hx'
      rw [Subscriber.passes_waiting rfl]
      exact (List.append_nil _).symm
  | some res =>
      obtain ⟨r, b', t, a'⟩ := res
      rw [ht] at hx'
      obtain ⟨-, y, y', hy, hturn, hget⟩ := Bus.turn_cases ht
      cases hx.symm.trans hy
      cases hx'.symm.trans ((hget i).trans (if_pos rfl))
      rw [Option.bind_some]
      cases hw : x.dispatcher.waiting with
      | none =>
          -- nothing waited that could be delivered
          have hnone : r = none := by
            cases r with
            | none => rfl
            | some m =>
                obtain ⟨z, hz, hwaits⟩ := Bus.turn_delivers ht
                cases hx.symm.trans hz
                cases hw.symm.trans hwaits
          rw [hnone, hturn.passed hage hw]
      | some m =>
          obtain rfl := Bus.turn_starts ht hx hw
          rw [Subscriber.passes_busy hw, hturn.freed hw]
          rfl

/-- What an event delivers and what waits after it waited before it, or
is handed over. -/
theorem delivers_handed (hx : f.bus.subscribers[i]? = some x)
    (hx' : (f.step e).bus.subscribers[i]? = some x')
    (hage : x.dispatcher.checkAge = false) :
    (f.delivers i e).toList ++ x'.dispatcher.waiting.toList
      = x.dispatcher.waiting.toList
        ++ ((x.passes x').toList).map Prod.snd := by
  by_cases he : ∃ now fates, e = .turn i now fates
  · obtain ⟨now, fates, rfl⟩ := he
    exact turn_handed hx hx' hage
  · have he : ∀ now fates, e ≠ .turn i now fates :=
      fun now fates heq => he ⟨now, fates, heq⟩
    cases went_of hx hx' with
    | aside ha hw =>
        rw [(passed_aside hx he).1, Subscriber.passes_waiting hw, hw]
        exact (List.append_nil _).symm
    | turned => exact absurd rfl (he _ _)

-- ============================================================ a whole run

/-- What a loop goes by agrees with what it was told, whatever
happened. -/
theorem heard_after (hx : (after st h).bus.subscribers[i]? = some x) :
    x.Heard (after st h).server (told st i h)
      ∧ (puts (told st i h)).Pairwise (· < ·) := by
  induction h generalizing x with
  | nil => cases hx
  | cons e h ih =>
      have ho := ordered_after st h
      cases hy : (after st h).bus.subscribers[i]? with
      | none =>
          have hj := joined e hy hx
          rw [told, (silent hy).2.1, across_none hy]
          exact ⟨hj.heard.mono (history_grows _ e)
            ((after st h).step_grown e).revision_le, List.Pairwise.nil⟩
      | some y =>
          obtain ⟨hheard, hsorted⟩ := ih hy
          have hw := went_of hy hx
          rw [told, across_some hy hx]
          refine ⟨hw.heard hheard ho, ?_⟩
          rcases hw.comesIn_cases with hnone | ⟨w, w', hwatch, -, htold⟩
          · rw [hnone, List.append_nil]
            exact hsorted
          · exact hheard.ascends ho hsorted hwatch htold

/-- What was handed over, and the messages at hand, are the messages that
were told. -/
theorem handed_told (hx : (after st h).bus.subscribers[i]? = some x) :
    handed st i h ++ parcels x.batch = parcels (told st i h) := by
  induction h generalizing x with
  | nil => cases hx
  | cons e h ih =>
      rw [handed, told]
      cases hy : (after st h).bus.subscribers[i]? with
      | none =>
          rw [(silent hy).1, (silent hy).2.1, across_none hy,
            across_none hy, (joined e hy hx).batch]
          rfl
      | some y =>
          rw [across_some hy hx, across_some hy hx, List.append_assoc,
            (went_of hy hx).parcels (unaged hy), ← List.append_assoc,
            ih hy, parcels_append]

/-- The handler is called with what was handed over, but for the message
that waits for a slot. -/
theorem delivered_handed
    (hx : (after st h).bus.subscribers[i]? = some x) :
    delivered st i h ++ x.dispatcher.waiting.toList
      = (handed st i h).map Prod.snd := by
  induction h generalizing x with
  | nil => cases hx
  | cons e h ih =>
      cases hy : (after st h).bus.subscribers[i]? with
      | none =>
          rw [delivered, handed, (silent hy).1, (silent hy).2.2,
            delivers_none hy, across_none hy, (joined e hy hx).free]
          rfl
      | some y =>
          rw [delivered, handed, across_some hy hx, List.append_assoc,
            delivers_handed hy hx (unaged hy), ← List.append_assoc, ih hy,
            List.map_append]

/-- A message put behind something that the loop was told of is told, or
is yet to come. -/
theorem told_or_due (hx : (after st h).bus.subscribers[i]? = some x)
    (hen : .put en ∈ told st i h)
    (hknown : .put en' ∈ (after st h).server.history)
    (hcov : x.range.covers en'.key = true)
    (hm : Json.readAll Envelope.form.read en'.value.toList = .ok m)
    (hle : en.modified ≤ en'.modified) :
    .put en' ∈ told st i h ∨ x.Due en' := by
  induction h generalizing x with
  | nil => cases hen
  | cons e h ih =>
      have ho := ordered_after st h
      cases hy : (after st h).bus.subscribers[i]? with
      | none =>
          rw [told, (silent hy).2.1, across_none hy] at hen
          cases hen
      | some y =>
          have hheard := (heard_after hy).1
          have hw := went_of hy hx
          have hcov : y.range.covers en'.key = true := hw.range ▸ hcov
          have hbefore : en'.modified ≤ (after st h).server.revision →
              .put en' ∈ (after st h).server.history :=
            fun hle => (step_grown _ e).known hknown hle
          rw [told, across_some hy hx] at hen ⊢
          -- it was so before the event, and a watch that is opened now
          -- has something to resume behind
          have hbefore : (.put en' ∈ told st i h ∨ y.Due en')
              ∧ (y.state = .opening → y.batch = [] → y.last ≠ 0) := by
            rcases List.mem_append.mp hen with hen | hen
            · refine ⟨?_, fun _ hb => hheard.saw hen hb⟩
              by_cases hnew : en'.modified ≤ (after st h).server.revision
              · exact ih hy hen (hbefore hnew) hcov
              · exact Or.inr (hheard.due ho (Nat.lt_of_not_le hnew))
            · rcases hw.comesIn_cases with hnone | ⟨w, w', hwatch, hb, ht⟩
              · rw [hnone] at hen
                cases hen
              have hnext := ((ht.mem _).mp hen).2.2.1
              refine ⟨Or.inr (hheard.due_behind hwatch hb ?_), ?_⟩
              · exact Nat.le_trans hnext hle
              · intro hopen
                cases hopen.symm.trans hwatch
          obtain ⟨htold | hdue, hsaw⟩ := hbefore
          · exact Or.inl (List.mem_append_left _ htold)
          cases hw with
          | aside ha => exact Or.inr (hdue.alike ha)
          | turned ht =>
              rcases hdue.turned ht ho hcov hbefore hm (unaged hy) with
                hdue | ⟨-, -, hb⟩ | ⟨hopen, hlast, hle', hst⟩
              · exact Or.inr hdue
              · refine Or.inl (List.mem_append_left _ (hheard.held _ ?_))
                rw [hb]
                exact List.mem_cons_self
              · obtain ⟨hb, -⟩ := ht.reopened hopen hst
                exact absurd hlast (hsaw hopen hb)

/-- The turn of a loop that looks at a change which puts no message
changes nothing but what is at hand and where the loop would resume. -/
theorem passed_by {c : Change} {cs : List Change}
    (hx : f.bus.subscribers[i]? = some x) (hrun : x.hasEnded = false)
    (hfree : x.dispatcher.waiting = none) (hb : x.batch = c :: cs)
    (hc : c.message? = none) (now : Moment) (fates : List Passage) :
    ∃ n, (f.step (.turn i now fates)).bus
        = (f.bus.modify i fun _ => { x with batch := cs, last := n })
      ∧ (f.step (.turn i now fates)).server = f.server := by
  obtain ⟨n, hn⟩ :=
    Subscriber.look_idle hc { x with batch := cs } f.ambient
  refine ⟨n, ?_, f.turn_server i now fates⟩
  rw [← hn]
  simp only [step, Bus.turn, hx, hrun, hfree, hb, Option.isSome_none,
    Bool.false_eq_true, if_false]

-- =============================================================== in order

/-- What holds of a subscription after a history. -/
structure InOrder (st : Setting) (h : History) (i : Nat) : Prop where
  /-- What it hands over was put later and later. -/
  ascending : ((handed st i h).map Prod.fst).Pairwise (· < ·)
  /-- It is what was put at its revision, in the range of the
  subscription. -/
  genuine : ∀ x p, (after st h).bus.subscribers[i]? = some x →
    p ∈ handed st i h →
      ∃ e, .put e ∈ (after st h).server.history
        ∧ x.range.covers e.key = true ∧ e.modified = p.1
        ∧ Json.readAll Envelope.form.read e.value.toList = .ok p.2
  /-- The handler is called with what is handed over, in this order. -/
  delivered : ∀ x, (after st h).bus.subscribers[i]? = some x →
    delivered st i h ++ x.dispatcher.waiting.toList
      = (handed st i h).map Prod.snd
  /-- Every message that is told is handed over or still at hand, and
  nothing else is, whatever is told beside it. -/
  complete : ∀ x, (after st h).bus.subscribers[i]? = some x →
    handed st i h ++ parcels x.batch = parcels (told st i h)
  /-- A message that was put behind something that was told to be put,
  message or not, is told, or the loop has yet to come to it. -/
  gapless : ∀ x e e' m, (after st h).bus.subscribers[i]? = some x →
    .put e ∈ told st i h → .put e' ∈ (after st h).server.history →
      x.range.covers e'.key = true →
        Json.readAll Envelope.form.read e'.value.toList = .ok m →
          e.modified ≤ e'.modified →
            .put e' ∈ told st i h ∨ x.Due e'
  /-- A deletion, or a value that is no message, is passed by. -/
  harmless : ∀ x c cs now fates,
    (after st h).bus.subscribers[i]? = some x → x.hasEnded = false →
      x.dispatcher.waiting = none → x.batch = c :: cs →
        c.message? = none →
          ∃ n, (after st (.turn i now fates :: h)).bus
              = ((after st h).bus.modify i fun _ =>
                { x with batch := cs, last := n })
            ∧ (after st (.turn i now fates :: h)).server
              = (after st h).server

/-- Whatever is written, deleted and broken, and however often watches
are opened in vain: a subscription hands the messages of its topic over
in the order in which they were put, each once; and what is no message
keeps none of the others from it. -/
theorem never_repeats (st : Setting) (h : History) (i : Nat) :
    InOrder st h i where
  ascending := by
    cases hx : (after st h).bus.subscribers[i]? with
    | none =>
        rw [(silent hx).1]
        exact List.Pairwise.nil
    | some x =>
        have hfirst : ((handed st i h).map Prod.fst).Sublist
            (puts (told st i h)) := by
          refine List.Sublist.trans ?_ (parcels_puts (told st i h))
          rw [← handed_told hx]
          exact (List.sublist_append_left _ _).map _
        exact (heard_after hx).2.sublist hfirst
  genuine x p hx hp := by
    have hin : p ∈ parcels (told st i h) := by
      rw [← handed_told hx]
      exact List.mem_append_left _ hp
    obtain ⟨e, he, hrev, hm⟩ := mem_parcels hin
    obtain ⟨hknown, hcov⟩ := (heard_after hx).1.known _ he
    exact ⟨e, hknown, hcov, hrev, hm⟩
  delivered _ hx := delivered_handed hx
  complete _ hx := handed_told hx
  gapless _ _ _ _ hx he he' hcov hm hle :=
    told_or_due hx he he' hcov hm hle
  harmless _ _ _ now fates hx hrun hfree hb hc :=
    passed_by hx hrun hfree hb hc now fates

/-- A value that is no message and a letter are put, and the letter is
deleted; the watch breaks, another letter is put, and the next watch can
be opened only the second time. -/
def bumpy : History :=
  [.turn 0 3000000000 [], .turn 0 3000000000 [],
    .turn 0 3000000000 [], .turn 0 3000000000 [],
    .turn 0 3000000000 [], .turn 0 3000000000 [],
    .turn 0 1000000000 [.refused "down"], .turn 0 1000000000 [],
    .put "/metal/bus/t/3" letter 0, .turn 0 0 [], .breakWatches true,
    .turn 0 0 [], .turn 0 0 [], .turn 0 0 [], .turn 0 0 [], .turn 0 0 [],
    .delete "/metal/bus/t/2", .put "/metal/bus/t/2" letter 0,
    .put "/metal/bus/t/1" "" 0, .subscribe "t" "x" labOptions []]

/-- The deletion is told twice, and each letter is handed over once. -/
theorem never_repeats_bumpy :
    (told lab 0 bumpy).map Change.revision = [1, 2, 3, 3, 4]
      ∧ (handed lab 0 bumpy).map Prod.fst = [2, 4]
      ∧ InOrder lab bumpy 0 :=
  ⟨by decide +kernel, by decide +kernel, never_repeats lab bumpy 0⟩

end Site

end ControlPlane.Etcd
