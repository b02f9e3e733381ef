/-
No wake-up is lost. When a machine is allocated a message about it goes
out, and every call that waits for the machine on a replica that listens
has its signal fired, or the message is still on its way to that
replica, or the replica missed it in one of the two ways in which the
bus drops messages (`no_lost_wakeup`). Nobody begins to wait after the
allocation.

# Why nobody sleeps through it

- A call registers right behind its marking write, and that write is
  taken only while the machine is not allocated
  (`entering_unallocated`); so whoever waits when the message goes out
  has waited before, and nobody joins later (`enters_before`).
- The publication comes right behind the allocating write (`announced`),
  and it puts the message ahead of every live subscription's cursor.
- From there the message moves to the handler, or is missed (`Fate`);
  and the handler finds all calls that wait, since a signal that is held
  stands under its machine and is open (`kept`).

# What is assumed

Both backends are in memory and nobody takes signals away
(`Undisturbed`). A task gives way to others only where it awaits
something, and between a write in memory and what follows it there is
nothing to await; histories in which another event comes between are
left out (`prompt`).

Chain: over Arrivals.lean, Holds.lean and Queues.lean, and
SingleAllocation.lean for who allocates and announces.
-/
import ControlPlane.Proofs.Fleet.Arrivals
import ControlPlane.Proofs.Fleet.Holds
import ControlPlane.Proofs.Fleet.Queues
import ControlPlane.Proofs.SingleAllocation

namespace ControlPlane.Fleet

variable {s : Setting} {f g : Fleet} {e : Event} {h p q : History}
  {i k n r pos : Nat} {ch : Choice} {t t' : Task} {m : String}
  {x x' : Slot} {a : Registration} {copy : Envelope}

-- ======================================================== what is assumed

/-- Does the bus fail in an event? -/
def Event.garbles : Event → Bool
  | step _ (.garble _ _) => true
  | _ => false

/-- A history over backends in memory, with nobody interfering. -/
structure Undisturbed (s : Setting) (h : History) : Prop where
  /-- The store does what it answers, -/
  faithful : Faithful h
  /-- and the bus takes every message. -/
  sends : ∀ e ∈ h, e.garbles = false
  /-- Nobody takes signals away. -/
  tame : ∀ e ∈ h, e.meddles = false
  /-- Nothing comes between a write and what belongs to it. -/
  prompt : ∀ e p i, (e :: p) <:+ h → (after s p).Urgent i →
    ∃ ch, e = .step i ch

theorem Undisturbed.cooperative (hu : Undisturbed s h) :
    Cooperative s h :=
  fun e p i hp hi => hu.prompt e p i hp hi.urgent

theorem Undisturbed.before (hu : Undisturbed s h) (hp : p <:+ h) :
    Undisturbed s p where
  faithful e he := hu.faithful e (hp.subset he)
  sends e he := hu.sends e (hp.subset he)
  tame e he := hu.tame e (hp.subset he)
  prompt e p' i hp' hi := hu.prompt e p' i (hp'.trans hp) hi

-- =========================================================== publications

/-- The event after `q` publishes the allocation of `m`. -/
def Announces (s : Setting) (q : History) (e : Event) (m : String) :
    Prop :=
  (after s (e :: q)).posted
    = (s.topic, Notifier.payload m) :: (after s q).posted

/-- The step that publishes, on a bus that takes every message. -/
theorem LifecycleStep.publishes {c c' : Lifecycle.Call}
    {y : MachineRecord} (h : LifecycleStep f c ch c' g)
    (hs : c.stage = .publishing y)
    (hch : ∀ sent x, ch ≠ .garble sent x) :
    g.posted = (c.topic, Notifier.payload c.machine) :: f.posted := by
  have hwrite : ∀ w, lifecycleWrite? c ≠ some w := by
    intro w hw
    rw [lifecycleWrite?, hs] at hw
    cases hw
  cases h with
  | published hs' how hc hg =>
      rcases how with ⟨tm, rfl, rfl⟩ | ⟨x, rfl⟩
      · obtain ⟨a, -, rfl⟩ := hg
        rfl
      · exact absurd rfl (hch _ x)
  | wrote hw => exact absurd hw (hwrite _)
  | unwritten hw => exact absurd hw (hwrite _)
  | lost hw => exact absurd hw (hwrite _)
  | prepared hs' => cases hs.symm.trans hs'
  | kept hs' => cases hs.symm.trans hs'
  | rejected hs' => cases hs.symm.trans hs'
  | unknown hs' => cases hs.symm.trans hs'
  | unread hs' => cases hs.symm.trans hs'
  | resumed hs' => cases hs.symm.trans hs'
  | recorded added hs' => cases hs.symm.trans hs'

/-- A winner has announced the allocation, or is just about to. -/
theorem announced (hu : Undisturbed s h) {c : Lifecycle.Call}
    {req : AllocateRequest} (hwon : (after s h).Won i m c req) :
    (after s h).Urgent i
      ∨ ∃ e q, (e :: q) <:+ h ∧ Announces s q e m := by
  induction h generalizing c with
  | nil =>
      obtain ⟨r, d, hi⟩ := hwon.slot
      cases hi
  | cons e h ih =>
      have hub := hu.before (List.suffix_cons e h)
      rcases hwon.before with ⟨c₀, h₀⟩ | ⟨ch, v, rfl, hfol⟩
      · rcases ih hub h₀ with hurgent | ⟨e', q, hq, hann⟩
        · -- it was about to: this is its own step
          obtain ⟨ch, rfl⟩ := hu.prompt e h i (List.suffix_refl _) hurgent
          obtain ⟨x, hx, hurg⟩ := hurgent
          obtain ⟨r, d, hi⟩ := h₀.slot
          cases hx.symm.trans hi
          have hh := happened (after s h) (.step i ch)
          generalize hg : (after s h).step (.step i ch) = g at hh
          cases hh with
          | idle he =>
              rw [after_cons, hg]
              exact Or.inl ⟨_, hx, hurg⟩
          | @advanced _ _ _ _ _ g hi' ht =>
              cases hx.symm.trans hi'
              cases ht with
              | lifecycle hstep =>
                  cases hs : c₀.stage with
                  | publishing y =>
                      refine Or.inr ⟨_, h, List.suffix_refl _, ?_⟩
                      have hp := hstep.publishes hs (fun sent x hch => by
                        have hsent := hu.sends _ List.mem_cons_self
                        rw [hch] at hsent
                        cases hsent)
                      rw [(proper hi).topic, h₀.machine] at hp
                      rw [Announces, after_cons, hg]
                      exact hp
                  | _ =>
                      simp only [Slot.urgent, Task.urgent, hs] at hurg
                      cases hurg
        · exact Or.inr ⟨e', q, hq.trans (List.suffix_cons _ _), hann⟩
      · -- it has just won, and is to announce it
        obtain ⟨c₁, -, ⟨r, hr⟩, y, hy⟩ :=
          hfol.won (hu.faithful _ List.mem_cons_self)
        refine Or.inl ⟨_, hr, ?_⟩
        simp only [Slot.urgent, Task.urgent, hy]
        rfl

/-- A publication leaves all but the bus and the log alone. -/
theorem Announces.bus (hann : Announces s q e m) :
    (after s (e :: q)).bus
      = ((after s q).post s.topic (Notifier.payload m)).bus := by
  have hnot : (after s (e :: q)).posted ≠ (after s q).posted := by
    rw [hann]
    exact List.cons_ne_self _ _
  unfold Announces at hann
  have hh := happened (after s q) e
  rw [after_cons] at hann hnot ⊢
  generalize (after s q).step e = g at hh hann hnot ⊢
  cases hh with
  | submitted => exact absurd rfl hnot
  | awaited => exact absurd rfl hnot
  | idle he => exact absurd rfl hnot
  | expired hi hunder hg =>
      obtain ⟨a, -, rfl⟩ := hg
      exact absurd rfl hnot
  | dropped hi hg =>
      obtain ⟨a, -, rfl⟩ := hg
      exact absurd rfl hnot
  | aside ha =>
      rcases ha.posts with hp | ⟨topic, payload, hne, hp⟩
      · exact absurd hp hnot
      · rw [hp] at hann
        cases hann
        exact absurd (after_topic s q).symm hne
  | @advanced i r ch t t' g hi ht =>
      rcases ht.posts with ⟨-, hp⟩ | ⟨c, x, -, -, hb, hp⟩
      · exact absurd hp hnot
      · change g.posted = _ at hann
        rw [hp] at hann
        injection hann with hann
        injection hann with htopic hpay
        rw [show (g.setSlot i ⟨r, t', false⟩).bus = g.bus from rfl, hb,
          htopic, hpay]

-- ================================================= the way of a message

/-- A replica's subscription whose handle is not dropped. -/
def Listens (f : Fleet) (k r : Nat) : Prop :=
  f.handlers[k]? = some (some r)
    ∧ ∃ q, f.bus.subscriptions[k]? = some q ∧ q.cancelled = false

/-- A subscription's copy of a message, the one at place `pos` of its
topic, is ahead of its handler. -/
inductive Ahead (f : Fleet) (k pos : Nat) (copy : Envelope) : Prop
  /-- The receiver is still to read it, -/
  | queued {q : Subscription} (hq : f.bus.subscriptions[k]? = some q)
      (hend : q.ended = false) (hcur : q.cursor ≤ pos)
      (hroom : (f.bus.messages q.topic).size ≤ pos + f.bus.capacity)
      (hm : (f.bus.messages q.topic)[pos]? = some copy)
  /-- or it waits for a slot of the dispatcher, -/
  | waiting {q : Subscription} (hq : f.bus.subscriptions[k]? = some q)
      (hend : q.ended = false) (hw : q.dispatcher.waiting = some copy)
  /-- or for its delivery to run. -/
  | spawned (hd : (k, copy) ∈ f.deliveries)

/-- A subscription has missed its copy of a message. -/
inductive Missed (s : Setting) (h : History) (k pos : Nat)
    (copy : Envelope) : Prop
  /-- So many messages came behind it that it was gone before the
  receiver read it. -/
  | lagged {p : History} {q : Subscription} (hp : p <:+ h)
      (hq : (after s p).bus.subscriptions[k]? = some q)
      (hcur : q.cursor ≤ pos)
      (hover : pos + (after s p).bus.capacity
        < ((after s p).bus.messages q.topic).size)
  /-- It was too old when the receiver read it. -/
  | expired {p : History} {q : Subscription}
      (hp : (.aside (.turn k) :: p) <:+ h)
      (hq : (after s p).bus.subscriptions[k]? = some q)
      (hcur : q.cursor = pos)
      (hm : ((after s p).bus.messages q.topic)[pos]? = some copy)
      (ttl : copy.isExpiredAt q.dispatcher.options.messageTtl
        (after s p).ambient.now.1 = true)

theorem Missed.later (hm : Missed s h k pos copy) (e : Event) :
    Missed s (e :: h) k pos copy := by
  cases hm with
  | lagged hp hq hcur hover =>
      exact .lagged (hp.trans (List.suffix_cons e h)) hq hcur hover
  | expired hp hq hcur hm ttl =>
      exact .expired (hp.trans (List.suffix_cons e h)) hq hcur hm ttl

/-- A replica that hears of a machine fires all signals that are held
for it. -/
theorem heard_fires (hk : Kept f r) (hw : Wakes f)
    (hheld : f.Held r n m) :
    (((f.heard r (Notifier.payload m)).registries r).signal n).state
      = .allocated := by
  have hl := hk.entered n m hheld
  have hlt := hw.bounded r n m (Or.inr hheld)
  simp only [heard, told_payload, setRegistry_self, Registry.notified, hl]
  rw [Registry.fire_signal, if_pos ⟨rfl, hlt⟩, Signal.fire_state,
    if_neg (hk.opened n m hheld)]

/-- A copy that the receiver is still to read, if it is not gone. -/
theorem ahead_or_missed {q : Subscription}
    (hq : (after s h).bus.subscriptions[k]? = some q)
    (hend : q.ended = false) (hcur : q.cursor ≤ pos)
    (hm : ((after s h).bus.messages q.topic)[pos]? = some copy) :
    Ahead (after s h) k pos copy ∨ Missed s h k pos copy := by
  by_cases hroom : ((after s h).bus.messages q.topic).size
      ≤ pos + (after s h).bus.capacity
  · exact Or.inl (.queued hq hend hcur hroom hm)
  · exact Or.inr (.lagged (List.suffix_refl h) hq hcur (by omega))

/-- An event brings a copy on its way, or to its handler, or it is
missed. -/
theorem Ahead.step (ha : Ahead (after s h) k pos copy)
    (hl : Listens (after s (e :: h)) k r) :
    Ahead (after s (e :: h)) k pos copy ∨ Missed s (e :: h) k pos copy
      ∨ Delivers (after s h) (after s (e :: h)) k copy := by
  have hb := bus_step (after s h) e
  obtain ⟨-, ql, hql, hlive⟩ := hl
  cases ha with
  | spawned hd =>
      rcases delivery_step e hd with hd | hd
      · exact Or.inl (.spawned hd)
      · exact Or.inr (Or.inr hd)
  | @waiting q hq hend hw =>
      obtain ⟨q', hq', hstep⟩ := hb.queue hq
      left
      cases hstep with
      | same => exact .waiting hq' hend hw
      | cancelled => exact .waiting hq' hend hw
      | finished => exact .waiting hq' hend hw
      | turned hend' hturn hd =>
          cases hturn with
          | started hw' hd' =>
              cases hw.symm.trans hw'
              exact .spawned (hd _ rfl)
          | closed hw' => cases hw.symm.trans hw'
          | lagged hw' => cases hw.symm.trans hw'
          | expired hw' => cases hw.symm.trans hw'
          | taken hw' => cases hw.symm.trans hw'
  | @queued q hq hend hcur hroom hm =>
      obtain ⟨q', hq', hstep⟩ := hb.queue hq
      have hplace := hb.place hm
      rw [← hstep.topic] at hplace
      -- unless the receiver gets past the copy, it stays in the queue,
      -- or has fallen out of it
      have hstay : q'.ended = false → q'.cursor ≤ pos →
          Ahead (after s (e :: h)) k pos copy
            ∨ Missed s (e :: h) k pos copy
            ∨ Delivers (after s h) (after s (e :: h)) k copy := by
        intro hend' hcur'
        rcases ahead_or_missed (h := e :: h) hq' hend' hcur' hplace with
          hahead | hmissed
        · exact Or.inl hahead
        · exact Or.inr (Or.inl hmissed)
      cases hstep with
      | same => exact hstay hend hcur
      | cancelled => exact hstay hend hcur
      | finished => exact hstay hend hcur
      | turned hend' hturn hd =>
          cases hturn with
          | started hw hd' => exact hstay hend hcur
          | closed hw hc =>
              -- the loop ends only when the handle was dropped
              cases hql.symm.trans hq'
              cases hc.symm.trans hlive
          | @lagged next hw hn hc =>
              exact hstay hend (by show next ≤ pos; omega)
          | @expired m' hw hm' ttl =>
              -- the message that was too old is this one, or one before
              by_cases heq : q.cursor = pos
              · rw [heq] at hm'
                cases hm.symm.trans hm'
                exact Or.inr (Or.inl (.expired (List.suffix_refl _) hq heq
                  hm ttl))
              · exact hstay hend (by show q.cursor + 1 ≤ pos; omega)
          | @taken m' d hw hm' hd' =>
              by_cases heq : q.cursor = pos
              · rw [heq] at hm'
                cases hm.symm.trans hm'
                exact Or.inl (.waiting hq' hend hd')
              · exact hstay hend (by show q.cursor + 1 ≤ pos; omega)

-- ============================================================ the theorem

theorem handlers_later (hp : p <:+ h) {o : Option Nat}
    (ho : (after s p).handlers[k]? = some o) :
    (after s h).handlers[k]? = some o := by
  induction h with
  | nil =>
      rw [List.suffix_nil.mp hp] at ho
      exact ho
  | cons e h ih =>
      rcases List.suffix_cons_iff.mp hp with rfl | hp'
      · exact ho
      · exact handlers_step e (ih hp')

/-- A subscription that is live was live as long as it has been
there. -/
theorem Listens.before (hl : Listens (after s (e :: h)) k r)
    (hk : (after s h).handlers[k]? = some (some r)) :
    Listens (after s h) k r := by
  obtain ⟨q, hq, -⟩ := (sound s h).tidings.handled k r hk
  obtain ⟨q', hq', hstep⟩ := (bus_step (after s h) e).queue hq
  obtain ⟨-, ql, hql, hlive⟩ := hl
  cases hql.symm.trans hq'
  refine ⟨hk, q, hq, Bool.eq_false_iff.mpr fun hc => ?_⟩
  cases (hstep.cancelled_of hc).symm.trans hlive

/-- What becomes of a copy: it is on its way, or it was missed, or all
calls that hold signals for its machine have had them fired. -/
inductive Fate (s : Setting) (h : History) (k r pos : Nat)
    (copy : Envelope) (m : String) : Prop
  | ahead (ha : Ahead (after s h) k pos copy)
  | missed (hm : Missed s h k pos copy)
  | fired (hf : ∀ n, (after s h).Held r n m →
      (((after s h).registries r).signal n).state = .allocated)

/-- Events do not keep a copy from its fate. -/
theorem Fate.step (hf : Fate s h k r pos copy m)
    (hu : Undisturbed s (e :: h)) (hl : Listens (after s (e :: h)) k r)
    (hk : (after s h).handlers[k]? = some (some r))
    (hpay : copy.payload = Notifier.payload m)
    (ha : (after s (e :: h)).Allocated m) :
    Fate s (e :: h) k r pos copy m := by
  have hub := hu.before (List.suffix_cons e h)
  have hw := (sound s h).wakes
  cases hf with
  | missed hm => exact .missed (hm.later e)
  | fired hfired =>
      -- nobody has joined since the handler ran
      refine .fired fun n hheld => ?_
      have hbefore := held_before hu.cooperative ha hheld
      exact told_stays (hw.bounded r n m (Or.inr hbefore))
        (hfired n hbefore) e
  | ahead hahead =>
      rcases hahead.step hl with hahead | hmissed | hdel
      · exact .ahead hahead
      · exact .missed hmissed
      · refine .fired fun n hheld => ?_
        have hbefore := held_same hdel.slots hheld
        rw [hdel.heard r hk, hpay]
        exact heard_fires (kept hub.tame r) hw hbefore

/-- The copy of a message that a publication makes. -/
def copyOf (s : Setting) (q : History) (m : String) : Envelope :=
  MemoryBus.draft s.topic (Notifier.payload m) (after s q).ambient

/-- The place of the message that is published next. -/
def placeOf (s : Setting) (q : History) : Nat :=
  ((after s q).bus.messages s.topic).size

/-- A message is put ahead of every live subscription. -/
theorem Announces.ahead (hann : Announces s q e m)
    (hl : Listens (after s q) k r) :
    Ahead (after s (e :: q)) k (placeOf s q) (copyOf s q m)
      ∨ Missed s (e :: q) k (placeOf s q) (copyOf s q m) := by
  obtain ⟨hk, sub, hsub, hlive⟩ := hl
  obtain ⟨sub', hsub', htopic⟩ := (sound s q).tidings.handled k r hk
  cases hsub.symm.trans hsub'
  rw [after_topic] at htopic
  have horder := orderly hsub
  have hend : sub.ended = false := by
    refine Bool.eq_false_iff.mpr fun hend => ?_
    cases (horder.ended hend).symm.trans hlive
  have hrecv : (after s q).bus.hasReceiver s.topic = true := by
    rw [MemoryBus.hasReceiver, List.any_eq_true]
    exact ⟨sub, List.mem_of_getElem? hsub, by simp [htopic, hend]⟩
  have hmessages : (after s (e :: q)).bus.messages s.topic
      = ((after s q).bus.messages s.topic).push (copyOf s q m) := by
    rw [hann.bus, show ((after s q).post s.topic _).bus
      = ((after s q).bus.publish s.topic _ _).1 from rfl,
      MemoryBus.publish_messages, if_pos ⟨hrecv, rfl⟩]
    rfl
  refine ahead_or_missed (h := e :: q) (q := sub) ?_ hend ?_ ?_
  · rw [hann.bus, show ((after s q).post s.topic _).bus.subscriptions
      = (after s q).bus.subscriptions
      from MemoryBus.publish_subscriptions _, hsub]
  · have hcur := horder.cursor
    rw [htopic] at hcur
    exact hcur
  · rw [htopic, hmessages, placeOf, Array.getElem?_push_size]

/-- What becomes of a copy from its publication on. -/
theorem fate (hu : Undisturbed s h) (hq : (e :: q) <:+ h)
    (hann : Announces s q e m) (hl : Listens (after s q) k r)
    (hnow : Listens (after s h) k r)
    (hall : (after s (e :: q)).Allocated m) :
    (after s h).Allocated m
      ∧ Fate s h k r (placeOf s q) (copyOf s q m) m := by
  induction h with
  | nil => cases List.suffix_nil.mp hq
  | cons e' h ih =>
      rcases List.suffix_cons_iff.mp hq with heq | hq'
      · cases heq
        refine ⟨hall, ?_⟩
        rcases hann.ahead hl with ha | hm
        · exact .ahead ha
        · exact .missed hm
      · have hk := handlers_later
          ((List.suffix_cons e q).trans hq') hl.1
        obtain ⟨ha, hf⟩ := ih (hu.before (List.suffix_cons e' h)) hq'
          (hnow.before hk)
        have ha' := allocated_step e' ha
        exact ⟨ha', hf.step hu hnow hk rfl ha'⟩

/-- Call `i` on replica `r` is blocked for machine `m`. -/
def Blocked (f : Fleet) (i r : Nat) (m : String) (b : Wait.Block) :
    Prop :=
  ∃ c, f.slots[i]? = some ⟨r, .wait c, false⟩ ∧ c.machine = m
    ∧ c.stage.block? = some b

/-- A blocked call holds a signal for its machine. -/
theorem Blocked.held {b : Wait.Block} (hb : Blocked (after s h) i r m b) :
    ∃ x, (after s h).slots[i]? = some x
      ∧ x.hold? = some b.registration ∧ b.registration.machine = m
      ∧ (after s h).Held r b.registration.generation m := by
  obtain ⟨c, hi, hm, hblock⟩ := hb
  have hhold : (Task.wait c).hold? = some b.registration := by
    simp only [Task.hold?, hblock, Option.map_some]
  have hmach := (hold_machine hi hhold).trans hm
  exact ⟨_, hi, hhold, hmach, i, _, _, hi, rfl, hhold, rfl, hmach⟩

/-- What is promised to those who wait for machine `m`. -/
structure NoneLost (s : Setting) (h : History) (m : String) : Prop where
  /-- An allocation that was made has been published, once no call is
  between two steps that belong together. -/
  published : (after s h).Allocated m → (∀ i, ¬ (after s h).Urgent i) →
    ∃ e q, (e :: q) <:+ h ∧ Announces s q e m
  /-- Every call that is blocked for the machine, on a replica with a
  subscription that was live at the publication and is so still, holds a
  signal that says so, or the copy is ahead of the handler, or was
  missed. -/
  awake : ∀ e q, (e :: q) <:+ h → Announces s q e m →
    ∀ k r, Listens (after s q) k r → Listens (after s h) k r →
    ∀ i b, Blocked (after s h) i r m b →
      (((after s h).registries r).signal b.registration.generation).state
          = .allocated
        ∨ Ahead (after s h) k (placeOf s q) (copyOf s q m)
        ∨ Missed s h k (placeOf s q) (copyOf s q m)
  /-- A call that begins to block does so before the allocation. -/
  barred : ∀ e p, (e :: p) <:+ h → ∀ i r b,
    Blocked (after s (e :: p)) i r m b →
    (∀ b', ¬ Blocked (after s p) i r m b') →
      ¬ (after s (e :: p)).Allocated m

/-- Over backends in memory no wake-up is lost. -/
theorem no_lost_wakeup (hu : Undisturbed s h) (m : String) :
    NoneLost s h m where
  published hall hcalm := by
    cases ledger (s := s) hu.faithful m with
    | free hfree => exact absurd hall hfree
    | won hwon =>
        rcases announced hu hwon with hurgent | hann
        · exact absurd hurgent (hcalm _)
        · exact hann
  awake e q hq hann k r hl hnow i b hb := by
    -- what is published is news, so the machine is allocated
    have hall : (after s (e :: q)).Allocated m := by
      obtain ⟨m', hpay, hall⟩ := (sound s (e :: q)).tidings.posted
        (Notifier.payload m) (by
          rw [after_topic, hann]
          exact List.mem_cons_self)
      have htold := told_payload m
      rw [hpay, told_payload] at htold
      cases htold
      exact hall
    obtain ⟨-, -, -, -, hheld⟩ := hb.held
    cases (fate hu hq hann hl hnow hall).2 with
    | ahead ha => exact Or.inr (Or.inl ha)
    | missed hmissed => exact Or.inr (Or.inr hmissed)
    | fired hfired => exact Or.inl (hfired _ hheld)
  barred e p hp i r b hb hnew := by
    obtain ⟨x', hi', hhold, hmach, -⟩ := hb.held
    obtain ⟨c', hc', hm, -⟩ := hb
    rw [← hmach]
    refine enters_before (hu.before hp).cooperative ?_ hi' hhold
    rintro ⟨r₀, t, d⟩ hx
    obtain ⟨y, hy, hr, hsame, -⟩ := slot_kept e hx
    cases (after_cons s e p ▸ hc').symm.trans hy
    cases d with
    | true => rfl
    | false =>
        cases hsame with
        | wait c =>
            show c.stage.block?.map _ = none
            cases hb' : c.stage.block? with
            | none => rfl
            | some b' =>
                cases hr
                exact absurd ⟨c, hx, hm, hb'⟩ (hnew b')

/-- A machine waits on replica 1, is allocated on replica 0, and the
message is under way to replica 1. -/
def vigil : History :=
  [.aside (.turn 0), .aside (.turn 0), .step 2 (.serve 0),
    .step 2 (.serve 0), .step 2 (.serve 0),
    .submit 0 labRetry "m" (.allocate
      { project := "a", hostname := "h", image := "i" }),
    .step 1 (.serve 1), .step 1 (.serve 1), .step 1 (.serve 1),
    .step 1 (.serve 1),
    .await 1 "n" ⟨⟨5⟩, ⟨9⟩⟩ labRetry "m",
    .aside (.listen 1 "n" ⟨1, ⟨9⟩, ⟨1000⟩⟩),
    .step 0 (.serve 0), .step 0 (.serve 0),
    .submit 0 labRetry "m" (.register {})]

theorem no_lost_wakeup_vigil :
    NoneLost lab vigil "m"
      ∧ (after lab vigil).Allocated "m"
      ∧ Listens (after lab vigil) 0 1
      ∧ ∃ b, Blocked (after lab vigil) 1 1 "m" b :=
  ⟨no_lost_wakeup
      ⟨by unfold Faithful vigil; decide, by unfold vigil; decide,
        by unfold vigil; decide,
        fun e p i => prompt_of_promptly (by rfl)⟩ "m",
    ⟨_, rfl, rfl⟩, ⟨rfl, _, rfl, rfl⟩, _, _, rfl, rfl, rfl⟩

end ControlPlane.Fleet
