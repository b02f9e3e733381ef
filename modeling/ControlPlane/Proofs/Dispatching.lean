/-
A subscription's dispatcher, whatever becomes of its deliveries. One
message after another is handed to it; each waits until a slot is free
and then is given to the handler. However the handler ends, by itself, in
a panic or out of time, its slot is free again: the deliveries under way
and the free slots are always as many as there are slots, so that no run
of failures keeps a later message from the handler
(`Dispatching.never_wedges`).

# What is left open

Messages, their ages and the readings of the clock are arbitrary, and
deliveries end in any order, at any time and in any way. A dispatcher
takes one message at a time: whoever hands it another waits until the
last one is given to the handler.

# Old messages

A dispatcher that checks ages passes a message by if it is too old when
it is handed over. Where the bus itself drops old messages the dispatcher
does not look at their ages, and gives all that it is handed to the
handler (`Dispatching.given_expired`).

# One operation of a dispatcher
# Events
# One event
# A whole run
# Never wedged

Chain: over Bus/Dispatcher.lean.
-/
import Mathlib
import ControlPlane.Bus.Dispatcher

namespace ControlPlane

-- ========================================== one operation of a dispatcher

/-- The reason under which a delivery that went wrong is counted. -/
def DeliveryEnd.reason? (e : DeliveryEnd) : Option String :=
  e.failure?.map Prod.snd

/-- Does the handler answer with an error? -/
def DeliveryEnd.isError : DeliveryEnd → Bool
  | failed _ => true
  | _ => false

theorem DeliveryEnd.reason?_iff (e : DeliveryEnd) :
    (e.reason? = some "error" ↔ e.isError = true)
      ∧ (e.reason? = some "panic" ↔ e = .panicked)
      ∧ (e.reason? = some "timeout" ↔ e = .timedOut)
      ∧ e.reason? ≠ some "expired" := by
  cases e <;> simp [reason?, failure?, isError]

theorem DeliveryEnd.report_count (e : DeliveryEnd) (name : String)
    (id : Uuid) (a : Ambient) (r : String) :
    (e.report name id a).metrics.get (.handlerFailure r)
      = a.metrics.get (.handlerFailure r)
        + if e.reason? = some r then 1 else 0 := by
  unfold report reason?
  cases hf : e.failure? with
  | none => simp
  | some p =>
      obtain ⟨words, reason⟩ := p
      show ((a.say _).metrics.count _).get _ = _
      rw [Metrics.get_count]
      simp [Ambient.say, eq_comm]

namespace Dispatcher

/-- Is a message passed by at a reading of the clock? -/
def tooOld (d : Dispatcher) (m : Envelope) (t : Timestamp) : Bool :=
  d.checkAge && m.isExpiredAt d.options.messageTtl t

/-- The slots that are free. -/
def free (d : Dispatcher) : Nat := d.slots - d.running

/-- A message that is too old is counted; any other one waits. -/
theorem accept_told (d : Dispatcher) (m : Envelope) (a : Ambient) :
    (d.tooOld m a.now.1 = true ∧ (d.accept m a).1 = d
        ∧ ∀ r, (d.accept m a).2.metrics.get (.handlerFailure r)
          = a.metrics.get (.handlerFailure r)
            + if r = "expired" then 1 else 0)
      ∨ (d.tooOld m a.now.1 = false
        ∧ (d.accept m a).1 = { d with waiting := some m }
        ∧ (d.accept m a).2.metrics = a.metrics) := by
  unfold accept tooOld
  cases d.checkAge with
  | false => exact Or.inr ⟨rfl, rfl, rfl⟩
  | true =>
      simp only [Bool.true_and, if_true]
      cases m.isExpiredAt d.options.messageTtl a.now.1 with
      | false => exact Or.inr ⟨rfl, rfl, rfl⟩
      | true =>
          refine Or.inl ⟨rfl, rfl, fun r => ?_⟩
          show ((a.now.2.say _).metrics.count _).get _ = _
          rw [Metrics.get_count]
          simp [Ambient.say, Ambient.now]

end Dispatcher

-- ================================================================= events

/-- A dispatcher, its deliveries, and what is around them. -/
structure Dispatching where
  dispatcher : Dispatcher
  /-- The messages whose deliveries are under way. -/
  live : List Envelope := []
  ambient : Ambient

namespace Dispatching

/-- What happens. -/
inductive Event
  /-- A message is handed over, with the clock last read as `clock`. -/
  | dispatch (m : Envelope) (clock : Timestamp)
  /-- The delivery of the message that waits is started, if it can be. -/
  | proceed
  /-- A delivery under way ends. -/
  | finish (k : Nat) (e : DeliveryEnd)

/-- What an event makes of it all. -/
def step (d : Dispatching) : Event → Dispatching
  | .dispatch m clock =>
    if d.dispatcher.waiting.isSome then d
    else
      let (dispatcher, ambient) :=
        d.dispatcher.accept m { d.ambient with clock }
      { d with dispatcher, ambient }
  | .proceed =>
    match d.dispatcher.start with
    | some (m, dispatcher) => { d with dispatcher, live := d.live ++ [m] }
    | none => d
  | .finish k e =>
    match d.live[k]? with
    | some m =>
      { dispatcher := d.dispatcher.finish
        live := d.live.eraseIdx k
        ambient := e.report d.dispatcher.subscription m.id d.ambient }
    | none => d

/-- What a dispatcher starts from. -/
structure Setting where
  subscription : String
  options : SubscriptionOptions
  checkAge : Bool
  ambient : Ambient

/-- Events, the latest first. -/
abbrev History := List Event

/-- How things are after a history. -/
def after (s : Setting) : History → Dispatching
  | [] =>
    { dispatcher :=
        { subscription := s.subscription, options := s.options
          checkAge := s.checkAge }
      ambient := s.ambient }
  | e :: h => (after s h).step e

/-- The message that is handed over, with the reading of the clock; none
while another one waits. -/
def brings (d : Dispatching) : Event → Option (Envelope × Timestamp)
  | .dispatch m clock =>
    if d.dispatcher.waiting.isSome then none else some (m, clock.succ)
  | _ => none

/-- The message that is given to the handler. -/
def gives (d : Dispatching) : Event → Option Envelope
  | .proceed => d.dispatcher.start.map Prod.fst
  | _ => none

/-- The message whose delivery ends, and how it does. -/
def ends (d : Dispatching) : Event → Option (Envelope × DeliveryEnd)
  | .finish k e => d.live[k]?.map fun m => (m, e)
  | _ => none

/-- All that was seen over a history, in order. -/
def record {α : Type} (s : Setting) (f : Dispatching → Event → Option α) :
    History → List α
  | [] => []
  | e :: h => record s f h ++ (f (after s h) e).toList

/-- The messages that were handed over. -/
def brought (s : Setting) : History → List (Envelope × Timestamp) :=
  record s brings

/-- The messages that were given to the handler. -/
def given (s : Setting) : History → List Envelope := record s gives

/-- The deliveries that have ended. -/
def ended (s : Setting) : History → List (Envelope × DeliveryEnd) :=
  record s ends

/-- Is a message passed by, as handed over? -/
def Setting.tooOld (s : Setting) (p : Envelope × Timestamp) : Bool :=
  s.checkAge && p.1.isExpiredAt s.options.messageTtl p.2

/-- The slots that are free. -/
def free (d : Dispatching) : Nat := d.dispatcher.free

/-- How many failures were counted under a reason. -/
def failures (d : Dispatching) (r : String) : Nat :=
  d.ambient.metrics.get (.handlerFailure r)

variable {d : Dispatching} {e : Event} {s : Setting} {h : History}
  {m : Envelope}

-- ============================================================== one event

/-- What an event does to a dispatcher and its deliveries. -/
inductive Stepped (d : Dispatching) : Event → Dispatching → Prop
  /-- Nothing can be done. -/
  | idle {e : Event} (hb : d.brings e = none) (hg : d.gives e = none)
      (he : d.ends e = none) : Stepped d e d
  | dropped {m : Envelope} {clock : Timestamp} {a : Ambient}
      (hw : d.dispatcher.waiting = none)
      (hold : d.dispatcher.tooOld m clock.succ = true)
      (ha : ∀ r, a.metrics.get (.handlerFailure r)
        = d.ambient.metrics.get (.handlerFailure r)
          + if r = "expired" then 1 else 0) :
      Stepped d (.dispatch m clock) { d with ambient := a }
  | taken {m : Envelope} {clock : Timestamp} {a : Ambient}
      (hw : d.dispatcher.waiting = none)
      (hyoung : d.dispatcher.tooOld m clock.succ = false)
      (ha : a.metrics = d.ambient.metrics) :
      Stepped d (.dispatch m clock) { d with
        dispatcher := { d.dispatcher with waiting := some m }
        ambient := a }
  | started {m : Envelope} (hw : d.dispatcher.waiting = some m)
      (hfree : d.dispatcher.running < d.dispatcher.slots) :
      Stepped d .proceed { d with
        dispatcher := { d.dispatcher with
          waiting := none, running := d.dispatcher.running + 1 }
        live := d.live ++ [m] }
  | finished {k : Nat} {e : DeliveryEnd} {m : Envelope}
      (hk : d.live[k]? = some m) :
      Stepped d (.finish k e)
        { dispatcher := d.dispatcher.finish
          live := d.live.eraseIdx k
          ambient := e.report d.dispatcher.subscription m.id d.ambient }

theorem stepped (d : Dispatching) (e : Event) :
    d.Stepped e (d.step e) := by
  cases e with
  | dispatch m clock =>
      cases hw : d.dispatcher.waiting with
      | some n =>
          have hsame : d.step (.dispatch m clock) = d := by
            simp only [step, hw, Option.isSome_some, if_true]
          rw [hsame]
          refine .idle ?_ rfl rfl
          simp only [brings, hw, Option.isSome_some, if_true]
      | none =>
          simp only [step, hw, Option.isSome_none, Bool.false_eq_true,
            if_false]
          rcases d.dispatcher.accept_told m { d.ambient with clock } with
            ⟨hold, hsame, hcount⟩ | ⟨hyoung, htakes, hcount⟩
          · rw [hsame]
            exact .dropped hw hold hcount
          · rw [htakes]
            exact .taken hw hyoung hcount
  | proceed =>
      simp only [step, Dispatcher.start]
      cases hw : d.dispatcher.waiting with
      | none =>
          refine .idle rfl ?_ rfl
          simp only [gives, Dispatcher.start, hw, Option.map_none]
      | some m =>
          by_cases hfree : d.dispatcher.running < d.dispatcher.slots
          · simp only [if_pos hfree]
            exact .started hw hfree
          · simp only [if_neg hfree]
            refine .idle rfl ?_ rfl
            simp only [gives, Dispatcher.start, hw, if_neg hfree,
              Option.map_none]
  | finish k e =>
      simp only [step]
      cases hk : d.live[k]? with
      | some m => exact .finished hk
      | none =>
          refine .idle rfl rfl ?_
          simp only [ends, hk, Option.map_none]

theorem brings_free (hw : d.dispatcher.waiting = none) (m : Envelope)
    (clock : Timestamp) :
    d.brings (.dispatch m clock) = some (m, clock.succ) := by
  simp only [brings, hw, Option.isSome_none, Bool.false_eq_true, if_false]

theorem gives_started (hw : d.dispatcher.waiting = some m)
    (hfree : d.dispatcher.running < d.dispatcher.slots) :
    d.gives .proceed = some m := by
  simp only [gives, Dispatcher.start, hw, if_pos hfree, Option.map_some]

theorem ends_finished {k : Nat} (hk : d.live[k]? = some m)
    (e : DeliveryEnd) : d.ends (.finish k e) = some (m, e) := by
  simp only [ends, hk, Option.map_some]

variable {d' : Dispatching}

/-- A dispatcher keeps its options. -/
theorem Stepped.same (hs : d.Stepped e d') :
    d'.dispatcher.options = d.dispatcher.options
      ∧ d'.dispatcher.checkAge = d.dispatcher.checkAge := by
  cases hs <;> exact ⟨rfl, rfl⟩

theorem Stepped.slots (hs : d.Stepped e d') :
    d'.dispatcher.slots = d.dispatcher.slots := by
  rw [Dispatcher.slots, Dispatcher.slots, hs.same.1]

/-- The deliveries under way are counted, and fit into the slots. -/
structure Bounded (d : Dispatching) : Prop where
  running : d.dispatcher.running = d.live.length
  fits : d.live.length ≤ d.dispatcher.slots

theorem Stepped.bounded (hs : d.Stepped e d') (hd : d.Bounded) :
    d'.Bounded := by
  have hslots := hs.slots
  obtain ⟨hrunning, hfits⟩ := hd
  cases hs with
  | idle => exact ⟨hrunning, hfits⟩
  | dropped => exact ⟨hrunning, hfits⟩
  | taken => exact ⟨hrunning, hfits⟩
  | started hw hfree =>
      refine ⟨?_, ?_⟩
      · rw [List.length_append, ← hrunning]
        rfl
      · rw [hslots, List.length_append, ← hrunning]
        exact hfree
  | finished hk =>
      obtain ⟨hlt, -⟩ := List.getElem?_eq_some_iff.mp hk
      refine ⟨?_, ?_⟩
      · rw [List.length_eraseIdx_of_lt hlt, ← hrunning]
        rfl
      · rw [hslots, List.length_eraseIdx_of_lt hlt]
        exact Nat.le_trans (Nat.sub_le _ _) hfits

/-- What is given to the handler is under way until it ends. -/
theorem Stepped.lives (hs : d.Stepped e d') :
    (d.live ++ (d.gives e).toList).Perm
      ((d.ends e).toList.map Prod.fst ++ d'.live) := by
  cases hs with
  | idle _ hg he =>
      rw [hg, he]
      exact List.Perm.of_eq (List.append_nil _)
  | dropped => exact List.Perm.of_eq (List.append_nil _)
  | taken => exact List.Perm.of_eq (List.append_nil _)
  | started hw hfree =>
      rw [gives_started hw hfree]
      exact List.Perm.refl _
  | @finished k e m hk =>
      obtain ⟨hlt, rfl⟩ := List.getElem?_eq_some_iff.mp hk
      rw [ends_finished hk]
      refine (List.Perm.of_eq (List.append_nil _)).trans ?_
      exact (List.getElem_cons_eraseIdx_perm hlt).symm

/-- What is given to the handler has waited, and what waits then waited
before, or was handed over and is not too old. -/
theorem Stepped.passes (hs : d.Stepped e d') :
    (d.gives e).toList ++ d'.dispatcher.waiting.toList
      = d.dispatcher.waiting.toList
        ++ ((d.brings e).toList.filter fun p =>
          ! d.dispatcher.tooOld p.1 p.2).map Prod.fst := by
  cases hs with
  | idle hb hg _ =>
      rw [hb, hg]
      exact (List.append_nil _).symm
  | @dropped m clock a hw hold =>
      have hnone : [(m, clock.succ)].filter (fun p =>
          ! d.dispatcher.tooOld p.1 p.2) = [] := by simp [hold]
      rw [brings_free hw, Option.toList_some, hnone]
      exact (List.append_nil _).symm
  | @taken m clock a hw hyoung =>
      have hone : [(m, clock.succ)].filter (fun p =>
          ! d.dispatcher.tooOld p.1 p.2) = [(m, clock.succ)] := by
        simp [hyoung]
      rw [brings_free hw, hw]
      show [m] = List.map Prod.fst (List.filter _ [(m, clock.succ)])
      rw [hone]
      rfl
  | started hw hfree =>
      rw [gives_started hw hfree, hw]
      rfl
  | finished => exact (List.append_nil _).symm

/-- A failure is counted for each delivery that ends in one, and for each
message that is passed by. -/
theorem Stepped.counts (hs : d.Stepped e d') (r : String) :
    d'.failures r = d.failures r
        + (d.ends e).toList.countP (fun p => p.2.reason? = some r)
        + if r = "expired" then
            (d.brings e).toList.countP fun p =>
              d.dispatcher.tooOld p.1 p.2
          else 0 := by
  unfold failures
  cases hs with
  | idle hb _ he =>
      rw [hb, he]
      simp
  | dropped hw hold ha =>
      rw [ha, brings_free hw]
      simp [ends, hold]
  | taken hw hyoung ha =>
      rw [ha, brings_free hw]
      simp [ends, hyoung]
  | started hw hfree => simp [ends, brings]
  | @finished k e m hk =>
      rw [DeliveryEnd.report_count, ends_finished hk]
      simp [brings, List.countP_cons]

/-- A message waits until its delivery is started, and the slots that are
free for it stay so. -/
theorem Stepped.waits (hs : d.Stepped e d') (he : e ≠ .proceed)
    (hw : d.dispatcher.waiting = some m) :
    d'.dispatcher.waiting = some m ∧ d.free ≤ d'.free := by
  cases hs with
  | idle => exact ⟨hw, Nat.le_refl _⟩
  | dropped hfree => cases hw.symm.trans hfree
  | taken hfree => cases hw.symm.trans hfree
  | started => exact absurd rfl he
  | finished hk =>
      refine ⟨hw, ?_⟩
      exact Nat.sub_le_sub_left (Nat.sub_le _ _) d.dispatcher.slots

/-- The end of a delivery makes a slot free, however it ends. -/
theorem Bounded.freed (hd : d.Bounded) {k : Nat} (hk : k < d.live.length)
    (e : DeliveryEnd) : 0 < (d.step (.finish k e)).free := by
  have hstep : (d.step (.finish k e)).dispatcher
      = d.dispatcher.finish := by
    simp only [step, List.getElem?_eq_getElem hk]
  have hfits := hd.fits
  have hrunning := hd.running
  rw [free, hstep]
  show 0 < d.dispatcher.slots - (d.dispatcher.running - 1)
  omega

-- ============================================================ a whole run

theorem options_after (s : Setting) (h : History) :
    (after s h).dispatcher.options = s.options
      ∧ (after s h).dispatcher.checkAge = s.checkAge := by
  induction h with
  | nil => exact ⟨rfl, rfl⟩
  | cons e h ih =>
      obtain ⟨hoptions, hage⟩ := ((after s h).stepped e).same
      exact ⟨hoptions.trans ih.1, hage.trans ih.2⟩

theorem tooOld_after (s : Setting) (h : History)
    (p : Envelope × Timestamp) :
    (after s h).dispatcher.tooOld p.1 p.2 = s.tooOld p := by
  obtain ⟨hoptions, hage⟩ := options_after s h
  rw [Dispatcher.tooOld, hoptions, hage]
  rfl

theorem bounded_after (s : Setting) (h : History) :
    (after s h).Bounded := by
  induction h with
  | nil => exact ⟨rfl, Nat.zero_le _⟩
  | cons e h ih => exact ((after s h).stepped e).bounded ih

theorem given_lives (s : Setting) (h : History) :
    (given s h).Perm ((ended s h).map Prod.fst ++ (after s h).live) := by
  induction h with
  | nil => exact List.Perm.refl _
  | cons e h ih =>
      have hstep := ((after s h).stepped e).lives
      show (given s h ++ _).Perm (List.map _ (ended s h ++ _) ++ _)
      rw [List.map_append, List.append_assoc]
      refine (ih.append_right _).trans ?_
      rw [List.append_assoc]
      exact hstep.append_left _

/-- What was given to the handler, and the message that waits, is what
was handed over and not too old, in this order. -/
theorem given_brought (s : Setting) (h : History) :
    given s h ++ (after s h).dispatcher.waiting.toList
      = ((brought s h).filter fun p => ! s.tooOld p).map Prod.fst := by
  induction h with
  | nil => rfl
  | cons e h ih =>
      have hstep := ((after s h).stepped e).passes
      simp only [tooOld_after] at hstep
      show (given s h ++ _) ++ (((after s h).step e).dispatcher.waiting
        ).toList = List.map _ (List.filter _ (brought s h ++ _))
      rw [List.append_assoc, hstep, ← List.append_assoc, ih,
        List.filter_append, List.map_append]

theorem counted (s : Setting) (h : History) (r : String) :
    (after s h).failures r = (after s []).failures r
        + (ended s h).countP (fun p => p.2.reason? = some r)
        + if r = "expired" then (brought s h).countP s.tooOld else 0 := by
  induction h with
  | nil => simp [ended, brought, record]
  | cons e h ih =>
      have hstep := ((after s h).stepped e).counts r
      rw [funext (tooOld_after s h)] at hstep
      show ((after s h).step e).failures r
        = _ + List.countP _ (ended s h ++ _)
          + if r = "expired" then List.countP _ (brought s h ++ _) else 0
      rw [hstep, ih, List.countP_append, List.countP_append]
      split <;> omega

-- =========================================================== never wedged

/-- What holds of a dispatcher after a history. -/
structure Sound (s : Setting) (h : History) : Prop where
  /-- The deliveries under way and the free slots are as many as there
  are slots. -/
  slots : (after s h).live.length + (after s h).free
    = max s.options.concurrency 1
  /-- A delivery that was started is under way, or has ended once. -/
  lives : (given s h).Perm
    ((ended s h).map Prod.fst ++ (after s h).live)
  /-- The handler is given each message that was handed over and not too
  old, once and in order; the last of them may be waiting yet. -/
  inOrder : given s h ++ (after s h).dispatcher.waiting.toList
    = ((brought s h).filter fun p => ! s.tooOld p).map Prod.fst
  /-- A message that waits while a slot is free is the next that is
  given to the handler, and nothing else takes its slot. -/
  prompt : ∀ m, (after s h).dispatcher.waiting = some m →
    0 < (after s h).free →
      given s (.proceed :: h) = given s h ++ [m]
        ∧ ∀ e, e ≠ .proceed →
          (after s (e :: h)).dispatcher.waiting = some m
            ∧ 0 < (after s (e :: h)).free
  /-- While no slot is free there is a delivery to end, and the end of any
  of them, in any way, lets the message be given to the handler. -/
  unblocked : ∀ m, (after s h).dispatcher.waiting = some m →
    (after s h).free = 0 →
      (after s h).live ≠ []
        ∧ ∀ k e, k < (after s h).live.length →
          given s (.proceed :: .finish k e :: h) = given s h ++ [m]
  /-- Failures are counted, each under its reason. -/
  errors : (after s h).failures "error" = (after s []).failures "error"
    + (ended s h).countP fun p => p.2.isError
  panics : (after s h).failures "panic" = (after s []).failures "panic"
    + (ended s h).countP fun p => p.2 = .panicked
  timeouts : (after s h).failures "timeout"
    = (after s []).failures "timeout"
      + (ended s h).countP fun p => p.2 = .timedOut
  expired : (after s h).failures "expired"
    = (after s []).failures "expired" + (brought s h).countP s.tooOld

theorem slots_after (s : Setting) (h : History) :
    (after s h).dispatcher.slots = max s.options.concurrency 1 := by
  rw [Dispatcher.slots, (options_after s h).1]

theorem free_after (s : Setting) (h : History) :
    (after s h).live.length + (after s h).free
      = max s.options.concurrency 1 := by
  obtain ⟨hrunning, hfits⟩ := bounded_after s h
  rw [← slots_after s h, free, Dispatcher.free, hrunning]
  exact Nat.add_sub_cancel' hfits

theorem given_next (hw : (after s h).dispatcher.waiting = some m)
    (hfree : 0 < (after s h).free) :
    given s (.proceed :: h) = given s h ++ [m] := by
  show given s h ++ ((after s h).gives .proceed).toList = _
  rw [gives_started hw (Nat.sub_pos_iff_lt.mp hfree)]
  rfl

/-- Whatever is handed to a dispatcher, and however its deliveries end:
as many deliveries run as there are slots that are not free, every
message that is not too old for the dispatcher is given to the handler
once, in order and as soon as a slot is free, any end of any delivery
makes one free, and all that goes wrong is counted. -/
theorem never_wedges (s : Setting) (h : History) : Sound s h where
  slots := free_after s h
  lives := given_lives s h
  inOrder := given_brought s h
  prompt m hw hfree := by
    refine ⟨given_next hw hfree, fun e he => ?_⟩
    obtain ⟨hwaits, hle⟩ := ((after s h).stepped e).waits he hw
    exact ⟨hwaits, Nat.lt_of_lt_of_le hfree hle⟩
  unblocked m hw hnone := by
    have hslots := free_after s h
    refine ⟨fun hlive => ?_, fun k e hk => ?_⟩
    · rw [hlive, hnone, List.length_nil] at hslots
      omega
    · have hfinish : Event.finish k e ≠ .proceed := nofun
      have hwaits : (after s (.finish k e :: h)).dispatcher.waiting
          = some m :=
        (((after s h).stepped (.finish k e)).waits hfinish hw).1
      rw [given_next hwaits ((bounded_after s h).freed hk e)]
      show (given s h ++ []) ++ [m] = _
      rw [List.append_nil]
  errors := by
    have h := counted s h "error"
    simpa [DeliveryEnd.reason?_iff] using h
  panics := by
    have h := counted s h "panic"
    simpa [DeliveryEnd.reason?_iff] using h
  timeouts := by
    have h := counted s h "timeout"
    simpa [DeliveryEnd.reason?_iff] using h
  expired := by
    have h := counted s h "expired"
    simpa [DeliveryEnd.reason?_iff] using h

/-- A dispatcher that was told to have no slots, for messages that live a
second. -/
def narrow (checkAge : Bool) : Setting where
  subscription := "x"
  options := ⟨0, ⟨0⟩, .ofSecs 1⟩
  checkAge
  ambient := { clock := ⟨0, 0⟩ }

/-- A message, by its payload. -/
def note (payload : String) : Envelope :=
  ⟨.draw 0, "t", ⟨0, 0⟩, .string payload⟩

/-- The first delivery ends in a panic and the second out of time, with a
message in between that is too old. -/
def crowded : History :=
  [.proceed, .finish 0 .timedOut, .dispatch (note "last") ⟨0, 0⟩,
    .dispatch (note "old") ⟨60, 0⟩, .proceed, .finish 0 .panicked,
    .proceed, .dispatch (note "next") ⟨0, 0⟩, .proceed,
    .dispatch (note "first") ⟨0, 0⟩]

theorem never_wedges_crowded :
    given (narrow true) crowded = [note "first", note "next", note "last"]
      ∧ (after (narrow true) crowded).live = [note "last"]
      ∧ ["error", "panic", "timeout", "expired"].map
          (after (narrow true) crowded).failures = [0, 1, 1, 1]
      ∧ Sound (narrow true) crowded :=
  ⟨rfl, rfl, by decide +kernel, never_wedges (narrow true) crowded⟩

/-- A dispatcher that does not look at ages gives a message to the
handler although it is long too old. -/
theorem given_expired :
    ¬ ∀ (s : Setting) (h : History) (m : Envelope) (t : Timestamp),
      (m, t) ∈ brought s h →
        m.isExpiredAt s.options.messageTtl t = true → m ∉ given s h := by
  intro hall
  refine hall (narrow false) [.proceed, .dispatch (note "old") ⟨60, 0⟩]
    (note "old") (Timestamp.succ ⟨60, 0⟩) ?_ ?_ ?_
  · exact List.mem_singleton_self _
  · decide +kernel
  · exact List.mem_singleton_self _

end Dispatching

end ControlPlane
