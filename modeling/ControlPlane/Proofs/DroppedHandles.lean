/-
What a subscription still delivers when its handle has been dropped. A
receive loop looks at its handle only when it is about to receive. What
it has received before, it hands over all the same: the message that
waits for a slot, and on the key-value server what is left of the
response that it goes through (`delivered_all_the_same`). So dropping
a handle stops the receiving and not the delivering; but nothing beyond
that is delivered, and the next time that the loop would receive it ends
(`dropped_handles_drain`).

# A select that overlooks the handle

A select that finds its handle dropped and a message as well may take
either. A loop that takes the message behaves as it would with its
handle in place, so such a turn is one with the handle put back for as
long as it takes (`Deed.heedless`); what it receives then is counted
apart (`slipped`).

# Both buses at once

The two loops differ in what they have in hand and in how they receive,
not in what is to be said about them. What is needed of a loop is what a
single event does (`Lawful`); the runs are followed once.

Chain: over FanOut.lean and TopicIsolation.lean.
-/
import ControlPlane.Proofs.FanOut
import ControlPlane.Proofs.TopicIsolation

namespace ControlPlane

-- ======================================================= a receive loop

/-- The receive loop of a subscription, among all that can happen. -/
structure ReceiveLoop (σ ε : Type) where
  step : σ → ε → σ
  /-- Is an event a turn of the loop? -/
  isTurn : ε → Bool
  /-- The handle is dropped, -/
  drop : σ → σ
  /-- or put back. -/
  restore : σ → σ
  isDropped : σ → Bool
  hasEnded : σ → Bool
  /-- The loop has nothing in hand and is about to receive, or pauses. -/
  isIdle : σ → Bool
  /-- The messages that it has received and not handed over yet. -/
  pending : σ → List Envelope
  /-- The messages that it receives with an event. -/
  receives : σ → ε → List Envelope
  /-- The message whose delivery an event starts. -/
  delivers : σ → ε → Option Envelope

/-- What happens when a handle may be dropped. -/
inductive Deed (ε : Type)
  | event (e : ε)
  /-- An event for which the handle counts as not dropped. -/
  | heedless (e : ε)

/-- The event that a deed is, whether the handle counts or not. -/
def Deed.inner {ε : Type} : Deed ε → ε
  | event e => e
  | heedless e => e

namespace ReceiveLoop

variable {σ ε : Type} {L : ReceiveLoop σ ε} {s : σ} {e : ε}

/-- What a deed makes of all that is around. -/
def deed (L : ReceiveLoop σ ε) (s : σ) : Deed ε → σ
  | .event e => L.step s e
  | .heedless e => L.drop (L.step (L.restore s) e)

/-- What is around after a sequence of deeds, the latest first. -/
def after (L : ReceiveLoop σ ε) (s : σ) : List (Deed ε) → σ
  | [] => s
  | x :: l => L.deed (L.after s l) x

/-- The message whose delivery a deed starts. -/
def hands (L : ReceiveLoop σ ε) (s : σ) : Deed ε → Option Envelope
  | .event e => L.delivers s e
  | .heedless e => L.delivers (L.restore s) e

/-- What a deed receives although the handle was dropped. -/
def slips (L : ReceiveLoop σ ε) (s : σ) : Deed ε → List Envelope
  | .event _ => []
  | .heedless e => L.receives (L.restore s) e

/-- The messages whose delivery was started. -/
def delivered (L : ReceiveLoop σ ε) (s : σ) :
    List (Deed ε) → List Envelope
  | [] => []
  | x :: l => L.delivered s l ++ (L.hands (L.after s l) x).toList

/-- The messages that were received although the handle was dropped. -/
def slipped (L : ReceiveLoop σ ε) (s : σ) : List (Deed ε) → List Envelope
  | [] => []
  | x :: l => L.slipped s l ++ L.slips (L.after s l) x

/-- What a single event does about a loop. -/
structure Lawful (L : ReceiveLoop σ ε) : Prop where
  /-- What is handed over was in hand, and what is in hand then was so
  before or is received. -/
  passed_on : ∀ s e, ((L.delivers s e).toList ++ L.pending (L.step s e)
    ).Sublist (L.pending s ++ L.receives s e)
  /-- A loop that looks at a dropped handle does not receive. -/
  deaf : ∀ s e, L.isDropped s = true → L.receives s e = []
  stays_dropped : ∀ s e, L.isDropped s = true →
    L.isDropped (L.step s e) = true ∧ L.isDropped (L.drop
      (L.step (L.restore s) e)) = true
  stays_ended : ∀ s e, L.hasEnded s = true →
    L.hasEnded (L.step s e) = true ∧ L.delivers s e = none
  /-- The handle is nothing to what is in hand. -/
  drop_pending : ∀ s, L.pending (L.drop s) = L.pending s
  restore_pending : ∀ s, L.pending (L.restore s) = L.pending s
  drop_ended : ∀ s, L.hasEnded (L.drop s) = L.hasEnded s
  restore_ended : ∀ s, L.hasEnded (L.restore s) = L.hasEnded s
  /-- An idle loop that looks at a dropped handle ends. -/
  heeds : ∀ s e, L.isDropped s = true → L.isIdle s = true →
    L.isTurn e = true → L.hasEnded (L.step s e) = true

/-- A loop whose handle was dropped when all around was `s`, whatever is
done then. -/
structure Drained (L : ReceiveLoop σ ε) (s : σ) : Prop where
  /-- What is delivered from then on, and what is in hand in the end, was
  in hand when the handle was dropped, or has slipped through since. -/
  delivers : ∀ l, (L.delivered s l ++ L.pending (L.after s l)).Sublist
    (L.pending s ++ L.slipped s l)
  /-- The loop ends as soon as it looks at its handle, -/
  ends : ∀ l e, L.isIdle (L.after s l) = true → L.isTurn e = true →
    L.hasEnded (L.after s (.event e :: l)) = true
  /-- and delivers nothing any more then. -/
  silent : ∀ l k, L.hasEnded (L.after s l) = true →
    L.delivered s (k ++ l) = L.delivered s l

namespace Lawful

variable (hL : L.Lawful)

include hL

theorem dropped_deed (hs : L.isDropped s = true) (x : Deed ε) :
    L.isDropped (L.deed s x) = true := by
  cases x with
  | event e => exact (hL.stays_dropped s e hs).1
  | heedless e => exact (hL.stays_dropped s e hs).2

theorem dropped_after (hs : L.isDropped s = true) (l : List (Deed ε)) :
    L.isDropped (L.after s l) = true := by
  induction l with
  | nil => exact hs
  | cons x l ih => exact hL.dropped_deed ih x

theorem passed_deed (hs : L.isDropped s = true) (x : Deed ε) :
    ((L.hands s x).toList ++ L.pending (L.deed s x)).Sublist
      (L.pending s ++ L.slips s x) := by
  cases x with
  | event e =>
      have h := hL.passed_on s e
      rw [hL.deaf s e hs] at h
      exact h
  | heedless e =>
      have h := hL.passed_on (L.restore s) e
      rw [hL.restore_pending] at h
      show (_ ++ L.pending (L.drop _)).Sublist _
      rw [hL.drop_pending]
      exact h

theorem drains (hs : L.isDropped s = true) (l : List (Deed ε)) :
    (L.delivered s l ++ L.pending (L.after s l)).Sublist
      (L.pending s ++ L.slipped s l) := by
  induction l with
  | nil => simp [delivered, slipped, after]
  | cons x l ih =>
      have hstep := hL.passed_deed (hL.dropped_after hs l) x
      rw [delivered, slipped, List.append_assoc]
      refine ((List.Sublist.refl _).append hstep).trans ?_
      rw [← List.append_assoc, ← List.append_assoc]
      exact ih.append (List.Sublist.refl _)

theorem ended_deed (hs : L.hasEnded s = true) (x : Deed ε) :
    L.hasEnded (L.deed s x) = true ∧ L.hands s x = none := by
  cases x with
  | event e => exact hL.stays_ended s e hs
  | heedless e =>
      have hs' : L.hasEnded (L.restore s) = true :=
        (hL.restore_ended s).trans hs
      obtain ⟨hended, hnone⟩ := hL.stays_ended _ e hs'
      exact ⟨(hL.drop_ended _).trans hended, hnone⟩

theorem silent {l : List (Deed ε)} (hs : L.hasEnded (L.after s l) = true)
    (k : List (Deed ε)) : L.hasEnded (L.after s (k ++ l)) = true
      ∧ L.delivered s (k ++ l) = L.delivered s l := by
  induction k with
  | nil => exact ⟨hs, rfl⟩
  | cons x k ih =>
      obtain ⟨hended, hsame⟩ := ih
      obtain ⟨hlater, hnone⟩ := hL.ended_deed hended x
      refine ⟨hlater, ?_⟩
      rw [List.cons_append, delivered, hsame, hnone]
      exact List.append_nil _

theorem drained (hs : L.isDropped s = true) : L.Drained s where
  delivers := hL.drains hs
  ends l e hidle hturn :=
    hL.heeds _ e (hL.dropped_after hs l) hidle hturn
  silent _ k hl := (hL.silent hl k).2

end Lawful

end ReceiveLoop

-- ===================================================== the bus in memory

namespace MemoryBus

variable {b : MemoryBus} {s : Subscription} {i : Nat} {e : Event}

/-- The loop of a subscription of the bus in memory. -/
def loop (i : Nat) : ReceiveLoop MemoryBus Event where
  step := step
  isTurn
    | .turn j _ => j == i
    | _ => false
  drop b := b.cancel i
  restore b := b.modify i fun s => { s with cancelled := false }
  isDropped b := b.subscriptions[i]?.any (·.cancelled)
  hasEnded b := b.subscriptions[i]?.any (·.ended)
  isIdle b := b.subscriptions[i]?.any fun s =>
    ! s.ended && s.dispatcher.waiting.isNone
  pending b := (b.subscriptions[i]?.bind (·.dispatcher.waiting)).toList
  receives b e := (b.receives i e).message?.toList
  delivers b e := b.delivers i e

theorem dropped_iff : (loop i).isDropped b = true
    ↔ ∃ s, b.subscriptions[i]? = some s ∧ s.cancelled = true :=
  Option.any_eq_true _ _

theorem ended_iff : (loop i).hasEnded b = true
    ↔ ∃ s, b.subscriptions[i]? = some s ∧ s.ended = true :=
  Option.any_eq_true _ _

theorem dropped_cancel (hs : b.subscriptions[i]? = some s) :
    (loop i).isDropped (b.cancel i) = true := by
  refine dropped_iff.mpr ⟨{ s with cancelled := true }, ?_, rfl⟩
  rw [cancel, modify_get?, if_pos rfl, hs]
  rfl

/-- The handle of a subscription is nothing to the rest of it. -/
theorem handle_kept (b : MemoryBus) (i : Nat) (c : Bool) :
    (loop i).pending (b.modify i fun s => { s with cancelled := c })
        = (loop i).pending b
      ∧ (loop i).hasEnded (b.modify i fun s => { s with cancelled := c })
        = (loop i).hasEnded b := by
  simp only [loop, modify_get?, if_true]
  cases b.subscriptions[i]? with
  | none => exact ⟨rfl, rfl⟩
  | some s => exact ⟨rfl, rfl⟩

theorem passed_on (b : MemoryBus) (i : Nat) (e : Event) :
    ((b.delivers i e).toList ++ (loop i).pending (b.step e)).Sublist
      ((loop i).pending b ++ (b.receives i e).message?.toList) := by
  cases hs : b.subscriptions[i]? with
  | some s =>
      have hstep := waiting_step hs e
      simp only [loop, hs, step_get? hs e, Option.bind_some]
      exact hstep
  | none =>
      have hdelivers : b.delivers i e = none := by
        cases e with
        | turn j a =>
            have hturn : b.turn i a = none := by
              unfold turn
              rw [hs]
            simp only [delivers, hturn, Option.bind_none, ite_self]
        | _ => rfl
      have hpending : (loop i).pending (b.step e) = [] := by
        simp only [loop]
        cases hs' : (b.step e).subscriptions[i]? with
        | none => rfl
        | some s =>
            obtain ⟨topic, name, options, -, rfl⟩ := joined hs hs'
            rfl
      rw [hdelivers, hpending]
      exact List.nil_sublist _

/-- A turn leaves the handle as it is. -/
theorem turned_cancelled (s : Subscription) (r : Received) (a : Ambient) :
    (s.turned r a).2.cancelled = s.cancelled := by
  unfold Subscription.turned
  repeat' split
  all_goals rfl

theorem went_cancelled (hs : s.cancelled = true) (b : MemoryBus) (i : Nat)
    (e : Event) : (b.went i s e).cancelled = true := by
  unfold went
  split
  · split
    · rfl
    · exact hs
  · split
    · exact (turned_cancelled s _ _).trans hs
    · exact hs
  · split <;> exact hs
  · exact hs

theorem lawful (i : Nat) : (loop i).Lawful where
  passed_on b e := passed_on b i e
  deaf b e hb := by
    obtain ⟨s, hs, hc⟩ := dropped_iff.mp hb
    show (b.receives i e).message?.toList = []
    cases e with
    | turn j a =>
        have hbusy : s.free = false := by
          simp only [Subscription.free, hc, Bool.not_true, Bool.and_false]
        simp only [receives, hs, hbusy, and_false, Bool.false_eq_true,
          if_false]
        rfl
    | _ => rfl
  stays_dropped b e hb := by
    obtain ⟨s, hs, hc⟩ := dropped_iff.mp hb
    refine ⟨dropped_iff.mpr
      ⟨_, step_get? hs e, went_cancelled hc b i e⟩, ?_⟩
    have hrestored : ((loop i).restore b).subscriptions[i]?
        = some { s with cancelled := false } := by
      show (b.modify i _).subscriptions[i]? = _
      rw [modify_get?, if_pos rfl, hs]
      rfl
    exact dropped_cancel (step_get? hrestored e)
  stays_ended b e hb := by
    obtain ⟨s, hs, hend⟩ := ended_iff.mp hb
    refine ⟨ended_iff.mpr
      ⟨_, step_get? hs e, went_ended hend b i e⟩, ?_⟩
    cases e with
    | turn j a =>
        have hturn : b.turn i a = none := by
          unfold turn
          rw [hs]
          exact if_pos hend
        show b.delivers i (.turn j a) = none
        simp only [delivers, hturn, Option.bind_none, ite_self]
    | _ => rfl
  drop_pending b := (handle_kept b i true).1
  restore_pending b := (handle_kept b i false).1
  drop_ended b := (handle_kept b i true).2
  restore_ended b := (handle_kept b i false).2
  heeds b e hb hidle hturn := by
    obtain ⟨s, hs, hc⟩ := dropped_iff.mp hb
    obtain ⟨s', hs', hfree⟩ := (Option.any_eq_true _ _).mp hidle
    cases hs.symm.trans hs'
    simp only [Bool.and_eq_true, Bool.not_eq_true',
      Option.isNone_iff_eq_none] at hfree
    cases e with
    | turn j a =>
        have hj : j = i := by simpa [loop] using hturn
        subst hj
        refine ended_iff.mpr ⟨_, step_get? hs _, ?_⟩
        simp only [went, if_true, Subscription.turned, hfree.1, hfree.2, hc]
        rfl
    | _ => cases hturn

end MemoryBus

-- ============================================= the bus on the server

namespace Etcd

/-- The message that a change puts. -/
def Change.message? : Change → Option Envelope
  | .put e => (Json.readAll Envelope.form.read e.value.toList).toOption
  | .delete _ _ => none

/-- The messages that changes put. -/
def messages (cs : List Change) : List Envelope :=
  cs.filterMap Change.message?

/-- A change puts a message, or none. -/
theorem messages_cons (c : Change) (cs : List Change) :
    messages (c :: cs) = c.message?.toList ++ messages cs := by
  unfold messages
  rw [List.filterMap_cons]
  cases c.message? <;> rfl

namespace Subscriber

variable {s : Server} {x x' : Subscriber}

/-- The messages that a loop has in hand: the one that waits, and those
of the changes it has yet to look at. -/
def pending (x : Subscriber) : List Envelope :=
  x.dispatcher.waiting.toList ++ messages x.batch

/-- The messages of a response that came in. -/
def takes (x x' : Subscriber) : List Envelope :=
  if x.batch = [] then messages x'.batch else []

theorem pending_free (hfree : x.dispatcher.waiting = none) :
    x.pending = messages x.batch := by
  unfold pending
  rw [hfree]
  rfl

/-- What a loop has in hand after a turn it had before, or has just
received. -/
theorem Turned.pending_sublist (ht : x.Turned s x') :
    x'.pending.Sublist (x.pending ++ x.takes x') := by
  -- nothing in hand before, and nothing but the response after
  have empty : ∀ y : Subscriber, x.dispatcher.waiting = none →
      x.batch = [] → y.dispatcher = x.dispatcher →
        y.pending.Sublist (x.pending ++ x.takes y) := by
    intro y hfree hb hd
    rw [pending_free (hd ▸ hfree), takes, if_pos hb]
    exact List.sublist_append_right _ _
  -- a change that puts no message to be handed over
  have passed : ∀ (y : Subscriber) {c : Change},
      x.dispatcher.waiting = none → x.batch = c :: y.batch →
        y.dispatcher = x.dispatcher →
          y.pending.Sublist (x.pending ++ x.takes y) := by
    intro y c hfree hb hd
    refine List.Sublist.trans ?_ (List.sublist_append_left _ _)
    rw [pending_free (hd ▸ hfree), pending_free hfree, hb, messages_cons]
    exact List.sublist_append_right _ _
  cases ht with
  | @started m d hd =>
      have hd' : d.waiting = none := (MemoryBus.start_cases hd).2
      refine List.Sublist.trans ?_ (List.sublist_append_left _ _)
      rw [pending_free hd']
      exact List.sublist_append_right _ _
  | skipped hfree hb => exact passed _ hfree hb rfl
  | @handed e m cs a hfree hb hm =>
      refine List.Sublist.trans ?_ (List.sublist_append_left _ _)
      have hmessage : (Change.put e).message? = some m := by
        rw [Change.message?, hm]
        rfl
      rw [pending_free hfree, hb, messages_cons, hmessage]
      refine List.Sublist.append ?_ (List.Sublist.refl _)
      -- unless it is too old, the message waits
      rcases (MemoryBus.accept_cases x.dispatcher m a).2 with ⟨hd, -⟩ | hd
      · show ((x.dispatcher.accept m a).1.waiting).toList.Sublist _
        rw [hd, hfree]
        exact List.nil_sublist _
      · show ((x.dispatcher.accept m a).1.waiting).toList.Sublist _
        rw [hd]
  | garbled hfree hb hm => exact passed _ hfree hb rfl
  | closed hfree hb => exact empty _ hfree hb rfl
  | received hfree hb hw ht => exact empty _ hfree hb rfl
  | paused hfree hb => exact empty _ hfree hb rfl
  | woke hfree hb => exact empty _ hfree hb rfl
  | opened hfree hb hw => exact empty _ hfree hb rfl

/-- A loop with a message that waits starts its delivery. -/
theorem Turned.hands {m : Envelope} (ht : x.Turned s x')
    (hw : x.dispatcher.waiting = some m) :
    x.pending = m :: x'.pending := by
  cases ht with
  | @started m' d hd =>
      obtain ⟨hwaits, hnone⟩ := MemoryBus.start_cases hd
      cases hwaits.symm.trans hw
      have hafter : Subscriber.pending { x with dispatcher := d }
          = messages x.batch := pending_free hnone
      rw [hafter, pending, hw]
      rfl
  | _ hfree => cases hw.symm.trans hfree

end Subscriber

/-- A loop whose handle was dropped receives no response. -/
theorem Bus.turn_deaf {b b' : Bus} {s : Server} {fates : List Passage}
    {i : Nat} {now : Moment} {a a' : Ambient} {r : Option Envelope}
    {t : Server × List Passage} {x x' : Subscriber}
    (h : b.turn .foretold Prod.fst i now (s, fates) a
      = some (r, b', t, a'))
    (hx : b.subscribers[i]? = some x) (hc : x.cancelled = true)
    (hb : x.batch = []) (hx' : b'.subscribers[i]? = some x') :
    x'.batch = [] := by
  obtain ⟨y, y', hy, -, hturn, hset, -⟩ := turn_some h
  cases hx.symm.trans hy
  rw [hset, List.getElem?_set_self (List.getElem?_eq_some_iff.mp hx).1]
    at hx'
  cases hx'
  cases hturn with
  | looked hfree hchange => cases hb.symm.trans hchange
  | received hfree hempty hon => cases hc.symm.trans hon
  | _ => exact hb

/-- A subscription whose handle was dropped, or whose loop has ended,
stays so. -/
structure Subscriber.Stays (x x' : Subscriber) : Prop where
  cancelled : x.cancelled = true → x'.cancelled = true
  ended : x.hasEnded = true → x'.hasEnded = true

theorem Subscriber.Stays.refl (x : Subscriber) : x.Stays x := ⟨id, id⟩

theorem Subscriber.stays_cut (x : Subscriber) (last : Nat)
    (withError : Bool) : x.Stays (x.cut last withError) := by
  unfold cut
  split
  · rename_i next hx
    refine ⟨id, fun hend => ?_⟩
    simp only [hasEnded, hx] at hend
    cases hend
  · exact .refl x

theorem Subscriber.Beside.stays {x x' : Subscriber} (hb : x.Beside x') :
    x.Stays x' := by
  cases hb with
  | same => exact .refl x
  | dropped => exact ⟨fun _ => rfl, id⟩
  | cut last withError => exact x.stays_cut last withError
  | finished => exact ⟨id, id⟩

namespace Site

variable {f : Site} {e : Event} {x x' : Subscriber} {i : Nat}

theorem turn_stays {j : Nat} {now : Moment} {fates : List Passage}
    (hx : f.bus.subscribers[j]? = some x) :
    ∃ x', (f.step (.turn j now fates)).bus.subscribers[j]? = some x'
      ∧ x.Stays x' := by
  by_cases hend : x.hasEnded = true
  · have hnone : f.bus.turn .foretold Prod.fst j now (f.server, fates)
        f.ambient = none := by
      unfold Bus.turn
      rw [hx]
      exact if_pos hend
    refine ⟨x, ?_, .refl x⟩
    simp only [step, hnone]
    exact hx
  · rcases f.turn_step j now fates with heq | ⟨-, y, y', hy, hturn, hget⟩
    · rw [heq]
      exact ⟨x, hx, .refl x⟩
    · cases hx.symm.trans hy
      rw [hget, if_pos rfl]
      refine ⟨y', rfl, fun hc => ?_, fun h => absurd h hend⟩
      cases hturn <;> exact hc

theorem stays (e : Event) (hx : f.bus.subscribers[i]? = some x) :
    ∃ x', (f.step e).bus.subscribers[i]? = some x' ∧ x.Stays x' := by
  by_cases he : ∃ now fates, e = .turn i now fates
  · obtain ⟨now, fates, rfl⟩ := he
    exact turn_stays hx
  · obtain ⟨x', hx', hb⟩ := beside hx fun now fates heq =>
      he ⟨now, fates, heq⟩
    exact ⟨x', hx', hb.stays⟩

/-- The loop of a subscription of the bus on the server. -/
def loop (i : Nat) : ReceiveLoop Site Event where
  step := step
  isTurn
    | .turn j _ _ => j == i
    | _ => false
  drop f := { f with bus := f.bus.cancel i }
  restore f :=
    { f with bus := f.bus.modify i fun x => { x with cancelled := false } }
  isDropped f := f.bus.subscribers[i]?.any (·.cancelled)
  hasEnded f := f.bus.subscribers[i]?.any (·.hasEnded)
  isIdle f := f.bus.subscribers[i]?.any fun x =>
    ! x.hasEnded && x.dispatcher.waiting.isNone && x.batch.isEmpty
      && ! decide (x.state = .opening)
  pending f := (f.bus.subscribers[i]?.map (·.pending)).getD []
  receives f e :=
    match e, f.bus.subscribers[i]?, (f.step e).bus.subscribers[i]? with
    | .turn j _ _, some x, some x' => if j = i then x.takes x' else []
    | _, _, _ => []
  delivers f e := f.delivers i e

theorem dropped_iff : (loop i).isDropped f = true
    ↔ ∃ x, f.bus.subscribers[i]? = some x ∧ x.cancelled = true :=
  Option.any_eq_true _ _

theorem ended_iff : (loop i).hasEnded f = true
    ↔ ∃ x, f.bus.subscribers[i]? = some x ∧ x.hasEnded = true :=
  Option.any_eq_true _ _

/-- The handle of a subscription is nothing to the rest of it. -/
theorem handle_kept (f : Site) (i : Nat) (c : Bool) :
    (loop i).pending { f with
          bus := f.bus.modify i fun x => { x with cancelled := c } }
        = (loop i).pending f
      ∧ (loop i).hasEnded { f with
          bus := f.bus.modify i fun x => { x with cancelled := c } }
        = (loop i).hasEnded f := by
  have hget : (f.bus.modify i fun x => { x with cancelled := c }
      ).subscribers[i]?
      = f.bus.subscribers[i]?.map fun x => { x with cancelled := c } :=
    List.getElem?_modify_eq ..
  simp only [loop, hget]
  cases f.bus.subscribers[i]? with
  | none => exact ⟨rfl, rfl⟩
  | some x => exact ⟨rfl, rfl⟩

/-- The pending messages of a loop that is known. -/
theorem pending_get (hx : f.bus.subscribers[i]? = some x) :
    (loop i).pending f = x.pending := by
  simp only [loop, hx]
  rfl

/-- A turn hands over what waited, and has in hand then what it had, or
what came in. -/
theorem passed_turn (hx : f.bus.subscribers[i]? = some x) (now : Moment)
    (fates : List Passage) :
    ∃ x', (f.step (.turn i now fates)).bus.subscribers[i]? = some x'
      ∧ ((f.delivers i (.turn i now fates)).toList ++ x'.pending).Sublist
        (x.pending ++ x.takes x') := by
  simp only [delivers, step, if_true]
  cases ht : f.bus.turn .foretold Prod.fst i now (f.server, fates)
      f.ambient with
  | none => exact ⟨x, hx, List.sublist_append_left _ _⟩
  | some res =>
      obtain ⟨r, b', t, a'⟩ := res
      obtain ⟨-, y, y', hy, hturn, hget⟩ := Bus.turn_cases ht
      cases hx.symm.trans hy
      refine ⟨y', (hget i).trans (if_pos rfl), ?_⟩
      cases r with
      | none => exact hturn.pending_sublist
      | some m =>
          obtain ⟨z, hz, hwaits⟩ := Bus.turn_delivers ht
          cases hx.symm.trans hz
          rw [hturn.hands hwaits]
          exact List.sublist_append_left _ _

/-- Whatever else happens is nothing to a loop. -/
theorem passed_aside (hx : f.bus.subscribers[i]? = some x)
    (he : ∀ now fates, e ≠ .turn i now fates) :
    f.delivers i e = none
      ∧ ∃ x', (f.step e).bus.subscribers[i]? = some x'
        ∧ x'.pending = x.pending := by
  constructor
  · cases e with
    | turn j now fates =>
        have hj : j ≠ i := fun hj => he now fates (by rw [hj])
        exact if_neg hj
    | _ => rfl
  · obtain ⟨x', hx', hw⟩ := went e hx
    refine ⟨x', hx', ?_⟩
    cases hw with
    | aside ha hw =>
        unfold Subscriber.pending
        rw [hw, ha.batch]
    | turned => exact absurd rfl (he _ _)

theorem passed_on (f : Site) (i : Nat) (e : Event) :
    ((f.delivers i e).toList ++ (loop i).pending (f.step e)).Sublist
      ((loop i).pending f ++ (loop i).receives f e) := by
  cases hx : f.bus.subscribers[i]? with
  | some x =>
      rw [pending_get hx]
      by_cases he : ∃ now fates, e = .turn i now fates
      · obtain ⟨now, fates, rfl⟩ := he
        obtain ⟨x', hx', hpassed⟩ := passed_turn hx now fates
        have htakes : (loop i).receives f (.turn i now fates)
            = x.takes x' := by
          simp only [loop, hx, hx', if_true]
        rw [pending_get hx', htakes]
        exact hpassed
      · have he : ∀ now fates, e ≠ .turn i now fates :=
          fun now fates heq => he ⟨now, fates, heq⟩
        obtain ⟨hnone, x', hx', hsame⟩ := passed_aside hx he
        rw [hnone, pending_get hx', hsame]
        exact List.sublist_append_left _ _
  | none =>
      have hdelivers : f.delivers i e = none := by
        cases e with
        | turn j now fates =>
            by_cases hj : j = i
            · subst hj
              simp only [delivers, if_true, Bus.turn, hx, Option.bind_none]
            · exact if_neg hj
        | _ => rfl
      have hpending : (loop i).pending (f.step e) = [] := by
        cases hx' : (f.step e).bus.subscribers[i]? with
        | none =>
            simp only [loop, hx']
            rfl
        | some x' =>
            have hj := joined e hx hx'
            rw [pending_get hx', Subscriber.pending_free hj.free, hj.batch]
            rfl
      rw [hdelivers, hpending]
      exact List.nil_sublist _

/-- An idle loop whose handle was dropped ends with its next turn. -/
theorem turn_ends (hx : f.bus.subscribers[i]? = some x)
    (hc : x.cancelled = true) (hrun : x.hasEnded = false)
    (hfree : x.dispatcher.waiting = none) (hbatch : x.batch = [])
    (hopen : x.state ≠ .opening) (now : Moment) (fates : List Passage) :
    (f.step (.turn i now fates)).bus.subscribers[i]?
      = some { x with state := .ended } := by
  have hclosed : ((f.bus.close i x f.ambient).1).subscribers[i]?
      = some { x with state := .ended } := by
    show (f.bus.subscribers.modify i _)[i]? = _
    rw [List.getElem?_modify_eq, hx]
    rfl
  have hturn : f.bus.turn .foretold Prod.fst i now (f.server, fates)
      f.ambient = some (none, (f.bus.close i x f.ambient).1,
        (f.server, fates), (f.bus.close i x f.ambient).2) := by
    unfold Bus.turn
    simp only [hx, hrun, hfree, hbatch, hc, if_true, Option.isSome_none,
      Bool.false_eq_true, if_false]
    cases hs : x.state with
    | watching w => rfl
    | paused till => rfl
    | opening => exact absurd hs hopen
    | ended =>
        simp only [Subscriber.hasEnded, hs, decide_true] at hrun
        cases hrun
  simp only [step, hturn]
  exact hclosed

theorem lawful (i : Nat) : (loop i).Lawful where
  passed_on f e := passed_on f i e
  deaf f e hb := by
    obtain ⟨x, hx, hc⟩ := dropped_iff.mp hb
    obtain ⟨x', hx', -⟩ := stays e hx
    cases e with
    | turn j now fates =>
        simp only [loop, hx, hx']
        split
        · rename_i hj
          subst hj
          unfold Subscriber.takes
          split
          · rename_i hbatch
            have hkept : x'.batch = [] := by
              simp only [step] at hx'
              split at hx'
              · rename_i r b' t a' hturn
                exact Bus.turn_deaf hturn hx hc hbatch hx'
              · cases hx.symm.trans hx'
                exact hbatch
            rw [hkept]
            rfl
          · rfl
        · rfl
    | _ => rfl
  stays_dropped f e hb := by
    obtain ⟨x, hx, hc⟩ := dropped_iff.mp hb
    obtain ⟨x', hx', hs⟩ := stays e hx
    refine ⟨dropped_iff.mpr ⟨x', hx', hs.cancelled hc⟩, ?_⟩
    have hrestored : ((loop i).restore f).bus.subscribers[i]?
        = some { x with cancelled := false } := by
      show (f.bus.subscribers.modify i _)[i]? = _
      rw [List.getElem?_modify_eq, hx]
      rfl
    obtain ⟨y, hy, -⟩ := stays e hrestored
    refine dropped_iff.mpr ⟨{ y with cancelled := true }, ?_, rfl⟩
    show (List.modify _ i _)[i]? = _
    rw [List.getElem?_modify_eq]
    exact congrArg (Option.map _) hy
  stays_ended f e hb := by
    obtain ⟨x, hx, hend⟩ := ended_iff.mp hb
    obtain ⟨x', hx', hs⟩ := stays e hx
    refine ⟨ended_iff.mpr ⟨x', hx', hs.ended hend⟩, ?_⟩
    cases e with
    | turn j now fates =>
        show f.delivers i (.turn j now fates) = none
        by_cases hj : j = i
        · subst hj
          simp only [delivers, if_true, Bus.turn, hx, if_pos hend,
            Option.bind_none]
        · exact if_neg hj
    | _ => rfl
  drop_pending f := (handle_kept f i true).1
  restore_pending f := (handle_kept f i false).1
  drop_ended f := (handle_kept f i true).2
  restore_ended f := (handle_kept f i false).2
  heeds f e hb hidle hturn := by
    obtain ⟨x, hx, hc⟩ := dropped_iff.mp hb
    obtain ⟨x', hx', hidle⟩ := (Option.any_eq_true _ _).mp hidle
    cases hx.symm.trans hx'
    simp only [Bool.and_eq_true, Bool.not_eq_true',
      Option.isNone_iff_eq_none, List.isEmpty_iff,
      decide_eq_false_iff_not] at hidle
    obtain ⟨⟨⟨hrun, hfree⟩, hbatch⟩, hopen⟩ := hidle
    cases e with
    | turn j now fates =>
        have hj : j = i := by simpa [loop] using hturn
        subst hj
        exact ended_iff.mpr ⟨_, turn_ends hx hc hrun hfree hbatch hopen now
          fates, rfl⟩
    | _ => cases hturn

end Site

end Etcd

-- ======================================================= dropped handles

/-- On either bus, and wherever its loop stands, a subscription whose
handle was dropped delivers what it has received already, and nothing
that it does not receive by an oversight of its select; it ends when it
looks at its handle, and delivers nothing any more then. -/
theorem dropped_handles_drain (b : MemoryBus) (f : Etcd.Site) (i : Nat) :
    ((MemoryBus.loop i).isDropped b = true →
        (MemoryBus.loop i).Drained b)
      ∧ ((Etcd.Site.loop i).isDropped f = true →
        (Etcd.Site.loop i).Drained f) :=
  ⟨(MemoryBus.lawful i).drained, (Etcd.Site.lawful i).drained⟩

/-- Deliveries one after the other. -/
def oneSlot : SubscriptionOptions := .ofSettings { handlerConcurrency := 1 }

open MemoryBus in
/-- The only slot is taken, a message waits for it, and the handle is
dropped. -/
def clogged : MemoryBus :=
  after 16
    [.drop 0, .turn 0 calm, .turn 0 calm, .turn 0 calm,
      .publish "t" .null calm, .publish "t" .null calm,
      .subscribe "t" "x" oneSlot]

/-- A response of three messages has come in: the first is being
handled, the second waits for the only slot, and the handle is dropped
before the third is looked at. -/
def halfway : Etcd.Site :=
  Etcd.Site.after Etcd.Site.lab
    [.unsubscribe 0, .turn 0 0 [], .turn 0 0 [], .turn 0 0 [],
      .turn 0 0 [], .publish "t" .null [], .publish "t" .null [],
      .publish "t" .null [], .subscribe "t" "x" oneSlot []]

/-- What is left to do when the slot is free: the loop hands over what
waits and goes on with the response. -/
def leftOver : List Etcd.Site.Event :=
  [.turn 0 0 [], .finish 0, .turn 0 0 [], .turn 0 0 [], .finish 0]

theorem halfway_drains : (Etcd.Site.loop 0).isDropped halfway = true
    ∧ ((Etcd.Site.loop 0).delivered halfway
      (leftOver.map .event)).length = 2 := by
  decide +kernel

/-- On either bus the message that waits is delivered all the same, as
soon as the slot is free, and on the server the rest of the response
behind it. -/
theorem delivered_all_the_same :
    (¬ ∀ (b : MemoryBus) (i : Nat) (l : List MemoryBus.Event),
        (MemoryBus.loop i).isDropped b = true →
          (MemoryBus.loop i).delivered b (l.map .event) = [])
      ∧ ¬ ∀ (f : Etcd.Site) (i : Nat) (l : List Etcd.Site.Event),
        (Etcd.Site.loop i).isDropped f = true →
          ((Etcd.Site.loop i).delivered f (l.map .event)).length ≤ 1 := by
  constructor
  · intro hall
    have hnone := hall clogged 0 [.turn 0 MemoryBus.calm, .finish 0] rfl
    cases hnone
  · intro hall
    have hshort := hall halfway 0 leftOver halfway_drains.1
    rw [halfway_drains.2] at hshort
    exact absurd hshort (by decide)

theorem dropped_handles_drain_halfway :
    ((MemoryBus.loop 0).isDropped clogged = true
        ∧ (MemoryBus.loop 0).Drained clogged)
      ∧ (Etcd.Site.loop 0).isDropped halfway = true
      ∧ (Etcd.Site.loop 0).Drained halfway :=
  have hclogged : (MemoryBus.loop 0).isDropped clogged = true := rfl
  ⟨⟨hclogged, (dropped_handles_drain clogged halfway 0).1 hclogged⟩,
    halfway_drains.1,
    (dropped_handles_drain clogged halfway 0).2 halfway_drains.1⟩

end ControlPlane
