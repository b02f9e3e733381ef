/-
What becomes of the messages on a subscription's topic while its watches
break and are opened again. A receive loop resumes behind the last
change that it has seen put. As long as it has seen none it has nothing
to resume behind, and the watch that it opens then tells only what is to
come. Nothing but that loses a message (`handed_unless_overlooked`), and
that does lose one (`lost_in_gap`).

# A message that is not lost yet

Until the loop comes to it, a message is either in the response that is
being looked at, or ahead: behind every change that the loop has seen or
has been told, and not behind the start of an open watch (`Due`).
Whatever happens keeps it so (`due_step`), hands it over, or opens a
watch behind it. In the last case all that the loop sees from then on is
behind the message (`Passed`), so that it is not handed over later; and
it was not before, since the loop had seen nothing.

# When a loop has caught up

A loop has caught up when its watch has nothing more to tell and the
responses are looked at. A message that is ahead then would be told.

Chain: over Etcd/Loops.lean.
-/
import Mathlib
import ControlPlane.Proofs.Etcd.Loops

namespace ControlPlane.Etcd

open Subscriber (Turned Alike)

variable {s : Server} {x x' : Subscriber} {i : Nat} {en : Entry}
  {m : Envelope}

namespace Site

variable {f : Site} {e : Event} {st : Setting} {h p : History}

-- ======================================================= what happens

/-- The loop of a subscription comes to the put of an entry, and its
dispatcher takes the message. -/
def HandsOver (f : Site) (i : Nat) (en : Entry) (m : Envelope)
    (e : Event) : Prop :=
  ∃ x x', f.bus.subscribers[i]? = some x
    ∧ (f.step e).bus.subscribers[i]? = some x'
    ∧ x.dispatcher.waiting = none ∧ x'.dispatcher.waiting = some m
    ∧ x.batch = .put en :: x'.batch

/-- The loop of a subscription has not seen anything put, and opens a
watch that starts behind an entry. -/
def Overlooks (f : Site) (i : Nat) (en : Entry) (e : Event) : Prop :=
  ∃ x x', f.bus.subscribers[i]? = some x
    ∧ (f.step e).bus.subscribers[i]? = some x'
    ∧ x.state = .opening ∧ x.last = 0 ∧ en.modified ≤ f.server.revision
    ∧ x'.state = .watching ⟨f.server.revision + 1, none⟩

/-- Something happened at some moment of a history. -/
def Once (st : Setting) (h : History) (P : Site → Event → Prop) : Prop :=
  ∃ e p, (e :: p) <:+ h ∧ P (after st p) e

/-- An entry was handed over to the dispatcher of a subscription. -/
def Handed (st : Setting) (h : History) (i : Nat) (en : Entry)
    (m : Envelope) : Prop :=
  Once st h fun f => f.HandsOver i en m

/-- A subscription opened a watch behind an entry, with nothing seen. -/
def Overlooked (st : Setting) (h : History) (i : Nat) (en : Entry) :
    Prop :=
  Once st h fun f => f.Overlooks i en

/-- An entry that subscription `i` owes to its handler: a message on its
topic, put after the subscription was made. -/
structure Owed (st : Setting) (h : History) (i : Nat) (en : Entry)
    (m : Envelope) : Prop where
  known : .put en ∈ (after st h).server.history
  message : Json.readAll Envelope.form.read en.value.toList = .ok m
  since : ∃ e p x, (e :: p) <:+ h
    ∧ (after st p).bus.subscribers[i]? = none
    ∧ (after st (e :: p)).bus.subscribers[i]? = some x
    ∧ x.range.covers en.key = true
    ∧ (after st (e :: p)).server.revision < en.modified

/-- The loop of a subscription watches, and has been told all that there
is and looked at it. -/
def CaughtUp (f : Site) (i : Nat) : Prop :=
  ∃ x w, f.bus.subscribers[i]? = some x ∧ x.state = .watching w
    ∧ x.batch = [] ∧ w.receive x.range f.server = none

variable {P : Site → Event → Prop}

theorem Once.later (ho : Once st h P) (e : Event) :
    Once st (e :: h) P := by
  obtain ⟨e', p, hp, hP⟩ := ho
  exact ⟨e', p, hp.trans (List.suffix_cons e h), hP⟩

theorem Once.now (hP : P (after st h) e) : Once st (e :: h) P :=
  ⟨e, h, List.suffix_rfl, hP⟩

theorem once_nil : ¬ Once st [] P := by
  rintro ⟨e, p, hp, -⟩
  cases List.suffix_nil.mp hp

theorem once_cons (ho : Once st (e :: h) P) :
    P (after st h) e ∨ Once st h P := by
  obtain ⟨e', p, hp, hP⟩ := ho
  rcases List.suffix_cons_iff.mp hp with heq | hp
  · cases heq
    exact Or.inl hP
  · exact Or.inr ⟨e', p, hp, hP⟩

end Site

-- =================================================== a message on its way

namespace Subscriber

/-- The loop has yet to come to an entry. -/
inductive Due (en : Entry) (x : Subscriber) : Prop
  /-- It has been told. -/
  | told (hb : .put en ∈ x.batch)
  | ahead (hl : x.last < en.modified)
      (hb : ∀ c ∈ x.batch, c.revision < en.modified)
      (hn : ∀ w, x.state = .watching w → w.next ≤ en.modified)

/-- The loop will not come to an entry. -/
structure Passed (en : Entry) (x : Subscriber) : Prop where
  last : x.last ≠ 0 → en.modified < x.last
  batch : ∀ c ∈ x.batch, en.modified < c.revision
  next : ∀ w, x.state = .watching w → en.modified < w.next

theorem Due.alike (hd : x.Due en) (ha : x.Alike x') : x'.Due en := by
  cases hd with
  | told hb => exact .told (ha.batch ▸ hb)
  | ahead hl hb hn =>
      refine .ahead (ha.last ▸ hl) (ha.batch ▸ hb) ?_
      intro w' hw'
      obtain ⟨w, hw, hnext⟩ := ha.next w' hw'
      exact hnext ▸ hn w hw

theorem Passed.alike (hp : x.Passed en) (ha : x.Alike x') :
    x'.Passed en := by
  refine ⟨ha.last ▸ hp.last, ha.batch ▸ hp.batch, ?_⟩
  intro w' hw'
  obtain ⟨w, hw, hnext⟩ := ha.next w' hw'
  exact hnext ▸ hp.next w hw

/-- A subscription just made owes all that is put from then on. -/
theorem Joined.due {topic : String} (hj : x.Joined s topic)
    (hlt : s.revision < en.modified) : x.Due en := by
  refine .ahead ?_ ?_ ?_
  · rw [hj.last]
    omega
  · rw [hj.batch]
    exact fun c hc => nomatch hc
  · intro w hw
    cases hj.state.symm.trans hw
    exact hlt

theorem Due.ahead_of (hd : x.Due en) (hb : x.batch = []) :
    x.last < en.modified
      ∧ ∀ w, x.state = .watching w → w.next ≤ en.modified := by
  cases hd with
  | told hin =>
      rw [hb] at hin
      cases hin
  | ahead hl _ hn => exact ⟨hl, hn⟩

/-- A loop that has looked at all it was told goes on to another
state. -/
theorem Due.goto (hd : x.Due en) (hb : x.batch = []) {l : LoopState}
    (hn : ∀ w, l = .watching w → w.next ≤ en.modified) :
    Due en { x with state := l } := by
  refine .ahead (hd.ahead_of hb).1 ?_ hn
  exact hb ▸ fun c hc => nomatch hc

/-- A loop looks at something else that was put. -/
theorem Due.seen (hd : x.Due en) {e : Entry} {cs : List Change}
    (hb : x.batch = .put e :: cs) (hne : e ≠ en) (d : Dispatcher) :
    Due en { x with
      batch := cs, last := max x.last e.modified, dispatcher := d } := by
  cases hd with
  | told hin =>
      rw [hb] at hin
      rcases List.mem_cons.mp hin with heq | hin
      · cases heq
        exact absurd rfl hne
      · exact .told hin
  | ahead hl hbefore hn =>
      rw [hb] at hbefore
      obtain ⟨he, hcs⟩ := List.forall_mem_cons.mp hbefore
      exact .ahead (Nat.max_lt.mpr ⟨hl, he⟩) hcs hn

/-- What a watch tells before a message is told brings the loop no
further than to the message. -/
theorem Due.received (hd : x.Due en) (hb : x.batch = []) {w w' : Watch}
    {cs : List Change} (hw : x.state = .watching w)
    (htold : w.Told x.range s cs w') (ho : s.Ordered)
    (hcov : x.range.covers en.key = true)
    (hknown : en.modified ≤ s.revision → .put en ∈ s.history) :
    Due en { x with state := .watching w', batch := cs } := by
  obtain ⟨hl, hn⟩ := hd.ahead_of hb
  by_cases hin : .put en ∈ cs
  · exact .told hin
  have hbefore : ∀ c ∈ cs, c.revision < en.modified := by
    intro c hc
    obtain ⟨hc, -, -, hcut⟩ := (htold.mem c).mp hc
    refine Nat.lt_of_not_le fun hle => hin ?_
    refine (htold.mem _).mpr ⟨?_, hcov, hn w hw, ?_⟩
    · exact hknown (Nat.le_trans hle (ho.bounded c hc))
    · intro last withError heq
      exact Nat.le_trans hle (hcut last withError heq)
  refine .ahead hl hbefore ?_
  rintro _ ⟨⟩
  exact htold.next_le hbefore

/-- The turn of a loop that has yet to come to a message brings it to
the message, opens a watch behind it, or leaves it to be done. -/
theorem Due.turned (hd : x.Due en) (ht : x.Turned s x')
    (ho : s.Ordered) (hcov : x.range.covers en.key = true)
    (hknown : en.modified ≤ s.revision → .put en ∈ s.history)
    (hm : Json.readAll Envelope.form.read en.value.toList = .ok m)
    (hage : x.dispatcher.checkAge = false) :
    x'.Due en
      ∨ (x.dispatcher.waiting = none ∧ x'.dispatcher.waiting = some m
        ∧ x.batch = .put en :: x'.batch)
      ∨ (x.state = .opening ∧ x.last = 0 ∧ en.modified ≤ s.revision
        ∧ x'.state = .watching ⟨s.revision + 1, none⟩) := by
  cases ht with
  | started hd' =>
      refine Or.inl (hd.alike ⟨rfl, rfl, rfl, (start_free hd').2, ?_⟩)
      exact fun w hw => ⟨w, hw, rfl⟩
  | skipped hfree hb =>
      refine Or.inl ?_
      cases hd with
      | told hin =>
          rw [hb] at hin
          rcases List.mem_cons.mp hin with heq | hin
          · cases heq
          · exact .told hin
      | ahead hl hbefore hn =>
          rw [hb] at hbefore
          exact .ahead hl (List.forall_mem_cons.mp hbefore).2 hn
  | @handed e m' cs a hfree hb hm' =>
      by_cases heq : e = en
      · subst heq
        cases hm.symm.trans hm'
        exact Or.inr (Or.inl ⟨hfree, accept_waiting hage m a, hb⟩)
      · exact Or.inl (hd.seen hb heq _)
  | @garbled e err cs hfree hb hm' =>
      by_cases heq : e = en
      · subst heq
        cases hm.symm.trans hm'
      · exact Or.inl (hd.seen hb heq _)
  | closed hfree hb => exact Or.inl (hd.goto hb fun w hw => nomatch hw)
  | received hfree hb hw htold =>
      exact Or.inl (hd.received hb hw htold ho hcov hknown)
  | paused hfree hb => exact Or.inl (hd.goto hb fun w hw => nomatch hw)
  | woke hfree hb => exact Or.inl (hd.goto hb fun w hw => nomatch hw)
  | opened hfree hb hw =>
      by_cases hlast : 0 < x.last
      · rw [resumeFrom, if_pos hlast]
        refine Or.inl (hd.goto hb ?_)
        rintro _ ⟨⟩
        exact (hd.ahead_of hb).1
      -- nothing to resume behind: the watch starts with what is to come
      rw [resumeFrom, if_neg hlast]
      by_cases hle : en.modified ≤ s.revision
      · exact Or.inr (Or.inr ⟨hw, by omega, hle, rfl⟩)
      · refine Or.inl (hd.goto hb ?_)
        rintro _ ⟨⟩
        exact Nat.lt_of_not_le hle

theorem Passed.turned (hp : x.Passed en) (ht : x.Turned s x')
    (hle : en.modified ≤ s.revision) : x'.Passed en := by
  -- what is looked at is behind the entry
  have seen : ∀ e cs, x.batch = .put e :: cs → en.modified < e.modified
      ∧ ∀ c ∈ cs, en.modified < c.revision := by
    intro e cs hb
    have hbehind := hp.batch
    rw [hb] at hbehind
    exact List.forall_mem_cons.mp hbehind
  cases ht with
  | started hd => exact ⟨hp.last, hp.batch, hp.next⟩
  | skipped hfree hb =>
      refine ⟨hp.last, fun c hc => hp.batch c ?_, hp.next⟩
      rw [hb]
      exact List.mem_cons_of_mem _ hc
  | handed hfree hb hm =>
      obtain ⟨he, hcs⟩ := seen _ _ hb
      refine ⟨fun _ => ?_, hcs, hp.next⟩
      exact Nat.lt_of_lt_of_le he (Nat.le_max_right _ _)
  | garbled hfree hb hm =>
      obtain ⟨he, hcs⟩ := seen _ _ hb
      refine ⟨fun _ => ?_, hcs, hp.next⟩
      exact Nat.lt_of_lt_of_le he (Nat.le_max_right _ _)
  | closed hfree hb => exact ⟨hp.last, hp.batch, fun w hw => nomatch hw⟩
  | @received w w' cs hfree hb hw htold =>
      have hbehind : ∀ c ∈ cs, en.modified < c.revision := by
        intro c hc
        obtain ⟨-, -, hnext, -⟩ := (htold.mem c).mp hc
        exact Nat.lt_of_lt_of_le (hp.next w hw) hnext
      refine ⟨hp.last, hbehind, ?_⟩
      rintro _ ⟨⟩
      obtain ⟨c, hc, hnext⟩ := htold.next
      have := hbehind c (List.mem_of_getLast? hc)
      omega
  | paused hfree hb => exact ⟨hp.last, hp.batch, fun w hw => nomatch hw⟩
  | woke hfree hb => exact ⟨hp.last, hp.batch, fun w hw => nomatch hw⟩
  | opened hfree hb hw =>
      refine ⟨hp.last, hp.batch, ?_⟩
      rintro _ ⟨⟩
      by_cases hlast : 0 < x.last
      · have := hp.last (by omega)
        rw [resumeFrom, if_pos hlast]
        show en.modified < x.last + 1
        omega
      · rw [resumeFrom, if_neg hlast]
        exact Nat.lt_succ_of_le hle

theorem Turned.last_le (ht : x.Turned s x') : x.last ≤ x'.last := by
  cases ht with
  | handed => exact Nat.le_max_left _ _
  | garbled => exact Nat.le_max_left _ _
  | started => exact Nat.le_refl _
  | skipped => exact Nat.le_refl _
  | closed => exact Nat.le_refl _
  | received => exact Nat.le_refl _
  | paused => exact Nat.le_refl _
  | woke => exact Nat.le_refl _
  | opened => exact Nat.le_refl _

/-- A loop that comes to an entry sees it put. -/
theorem Turned.saw (ht : x.Turned s x')
    (hfree : x.dispatcher.waiting = none)
    (hb : x.batch = .put en :: x'.batch) : en.modified ≤ x'.last := by
  cases ht with
  | started hd =>
      obtain ⟨hw, -⟩ := start_free hd
      cases hw.symm.trans hfree
  | skipped _ hb' => cases hb'.symm.trans hb
  | handed _ hb' _ =>
      cases hb'.symm.trans hb
      exact Nat.le_max_right _ _
  | garbled _ hb' _ =>
      cases hb'.symm.trans hb
      exact Nat.le_max_right _ _
  | closed _ hb' => cases hb'.symm.trans hb
  | received _ hb' => cases hb'.symm.trans hb
  | paused _ hb' => cases hb'.symm.trans hb
  | woke _ hb' => cases hb'.symm.trans hb
  | opened _ hb' => cases hb'.symm.trans hb

/-- A watch is opened only when all is looked at, and what was seen
stays as it is. -/
theorem Turned.reopened (ht : x.Turned s x') (ho : x.state = .opening)
    {w : Watch} (hw : x'.state = .watching w) :
    x.batch = [] ∧ x'.batch = [] ∧ x'.last = x.last := by
  cases ht with
  | opened _ hb => exact ⟨hb, hb, rfl⟩
  | closed => cases hw
  | paused => cases hw
  | woke => cases hw
  | received _ _ hw' => cases ho.symm.trans hw'
  | started => cases ho.symm.trans hw
  | skipped => cases ho.symm.trans hw
  | handed => cases ho.symm.trans hw
  | garbled => cases ho.symm.trans hw

end Subscriber

namespace Site

variable {f : Site} {e : Event} {st : Setting} {h p : History}

-- ============================================================= one event

/-- A subscription that is there after an event, and what the event was
for it. -/
theorem went_of (hx : f.bus.subscribers[i]? = some x)
    (hx' : (f.step e).bus.subscribers[i]? = some x') :
    f.Went i x e x' := by
  obtain ⟨y, hy, hw⟩ := went e hx
  cases hx'.symm.trans hy
  exact hw

/-- Coming to a message is seeing it put. -/
theorem HandsOver.saw (hh : f.HandsOver i en m e)
    (hx' : (f.step e).bus.subscribers[i]? = some x') :
    en.modified ≤ x'.last := by
  obtain ⟨x, y, hx, hy, hfree, -, hb⟩ := hh
  cases hx'.symm.trans hy
  cases went_of hx hx' with
  | aside ha =>
      rw [ha.batch] at hb
      exact absurd hb.symm (List.cons_ne_self _ _)
  | turned ht => exact ht.saw hfree hb

theorem Went.last_le (hw : f.Went i x e x') : x.last ≤ x'.last := by
  cases hw with
  | aside ha => exact Nat.le_of_eq ha.last.symm
  | turned ht => exact ht.last_le

theorem Went.passed (hw : f.Went i x e x') (hp : x.Passed en)
    (hle : en.modified ≤ f.server.revision) : x'.Passed en := by
  cases hw with
  | aside ha => exact hp.alike ha
  | turned ht => exact hp.turned ht hle

/-- A loop that has overlooked an entry is past it, and was not there
before. -/
theorem Overlooks.passed (ho : f.Overlooks i en e)
    (hx : f.bus.subscribers[i]? = some x)
    (hx' : (f.step e).bus.subscribers[i]? = some x') :
    x.last = 0 ∧ x.batch = [] ∧ x'.Passed en := by
  obtain ⟨y, y', hy, hy', hopen, hlast, hle, hw⟩ := ho
  cases hx.symm.trans hy
  cases hx'.symm.trans hy'
  cases went_of hx hx' with
  | aside ha =>
      obtain ⟨w, hw', -⟩ := ha.next _ hw
      cases hopen.symm.trans hw'
  | turned ht =>
      obtain ⟨hb, hb', hl⟩ := ht.reopened hopen hw
      refine ⟨hlast, hb, fun hne => absurd (hl.trans hlast) hne, ?_, ?_⟩
      · exact hb' ▸ fun c hc => nomatch hc
      · intro w hw'
        cases hw.symm.trans hw'
        exact Nat.lt_succ_of_le hle

-- ============================================================ a whole run

theorem Handed.saw (hh : Handed st h i en m) :
    ∃ x, (after st h).bus.subscribers[i]? = some x
      ∧ en.modified ≤ x.last := by
  induction h with
  | nil => exact absurd hh once_nil
  | cons e h ih =>
      rcases once_cons hh with hnow | hh
      · obtain ⟨x, x', hx, hx', -⟩ := id hnow
        exact ⟨x', hx', hnow.saw hx'⟩
      · obtain ⟨x, hx, hle⟩ := ih hh
        obtain ⟨x', hx', hw⟩ := went e hx
        exact ⟨x', hx', Nat.le_trans hle hw.last_le⟩

/-- What is overlooked is not handed over, neither later nor before. -/
theorem Overlooked.passed (ho : Overlooked st h i en)
    (hpos : 0 < en.modified) :
    (∃ x, (after st h).bus.subscribers[i]? = some x ∧ x.Passed en)
      ∧ en.modified ≤ (after st h).server.revision
      ∧ ¬ Handed st h i en m := by
  induction h with
  | nil => exact absurd ho once_nil
  | cons e h ih =>
      have hgrown := (step_grown (after st h) e).revision_le
      rcases once_cons ho with hnow | ho
      · obtain ⟨x, x', hx, hx', -, -, hle, -⟩ := id hnow
        obtain ⟨hlast, hb, hpassed⟩ := hnow.passed hx hx'
        refine ⟨⟨x', hx', hpassed⟩, Nat.le_trans hle hgrown, ?_⟩
        intro hh
        rcases once_cons hh with ⟨y, y', hy, -, -, -, hb'⟩ | hh
        · cases hx.symm.trans hy
          cases hb.symm.trans hb'
        · obtain ⟨y, hy, hsaw⟩ := Handed.saw hh
          cases hx.symm.trans hy
          omega
      · obtain ⟨⟨x, hx, hpassed⟩, hle, hnot⟩ := ih ho
        obtain ⟨x', hx', hw⟩ := went e hx
        refine ⟨⟨x', hx', hw.passed hpassed hle⟩,
          Nat.le_trans hle hgrown, ?_⟩
        intro hh
        rcases once_cons hh with ⟨y, y', hy, -, -, -, hb⟩ | hh
        · cases hx.symm.trans hy
          have := hpassed.batch (.put en) (hb ▸ List.mem_cons_self)
          exact absurd this (Nat.lt_irrefl _)
        · exact hnot hh

/-- A message that is owed was handed over or overlooked, or is due. -/
theorem Owed.cases (ho : Owed st h i en m) :
    ∃ x, (after st h).bus.subscribers[i]? = some x
      ∧ x.range.covers en.key = true
      ∧ (Handed st h i en m ∨ Overlooked st h i en ∨ x.Due en) := by
  obtain ⟨e₀, q, x₀, hq, hnone, hx₀, hcov, hlt⟩ := ho.since
  have hjoined := joined e₀ hnone hx₀
  have hlt₀ := Nat.lt_of_le_of_lt (step_grown _ e₀).revision_le hlt
  -- over the moments since the subscription was made
  suffices key : ∀ p, p <:+ h → (e₀ :: q) <:+ p →
      ∃ x, (after st p).bus.subscribers[i]? = some x
        ∧ x.range.covers en.key = true
        ∧ (Handed st p i en m ∨ Overlooked st p i en ∨ x.Due en) from
    key h List.suffix_rfl hq
  intro p hp hqp
  induction p with
  | nil => cases List.suffix_nil.mp hqp
  | cons e p ih =>
      rcases List.suffix_cons_iff.mp hqp with heq | hqp
      · cases heq
        exact ⟨x₀, hx₀, hcov, Or.inr (Or.inr (hjoined.due hlt₀))⟩
      · have hp' := (List.suffix_cons e p).trans hp
        obtain ⟨x, hx, hcov, hcase⟩ := ih hp' hqp
        obtain ⟨x', hx', hw⟩ := went e hx
        refine ⟨x', hx', hw.range ▸ hcov, ?_⟩
        rcases hcase with hh | ho | hdue
        · exact Or.inl (hh.later e)
        · exact Or.inr (Or.inl (ho.later e))
        · cases hw with
          | aside ha => exact Or.inr (Or.inr (hdue.alike ha))
          | turned ht =>
              rcases hdue.turned ht (ordered_after st p) hcov
                (known_before hp' ho.known) ho.message (unaged hx) with
                hdue | ⟨hfree, hwait, hb⟩ | ⟨hopen, hl, hle, hst⟩
              · exact Or.inr (Or.inr hdue)
              · exact Or.inl (.now ⟨x, x', hx, hx', hfree, hwait, hb⟩)
              · exact Or.inr (Or.inl
                  (.now ⟨x, x', hx, hx', hopen, hl, hle, hst⟩))

/-- A subscription that has caught up has got every message that it is
owed, except those that it overlooked. -/
theorem handed_unless_overlooked (ho : Owed st h i en m)
    (hc : (after st h).CaughtUp i) :
    Handed st h i en m ↔ ¬ Overlooked st h i en := by
  constructor
  · intro hh hover
    obtain ⟨e₀, q, x₀, -, -, -, -, hlt⟩ := ho.since
    exact (hover.passed (Nat.zero_lt_of_lt hlt)).2.2 hh
  · intro hnot
    obtain ⟨x, hx, hcov, hh | hover | hdue⟩ := ho.cases
    · exact hh
    · exact absurd hover hnot
    · obtain ⟨y, w, hy, hw, hb, hquiet⟩ := hc
      cases hx.symm.trans hy
      obtain ⟨-, hn⟩ := hdue.ahead_of hb
      -- the watch would tell it
      rcases Watch.receive_cases w x.range (after st h).server with
        ⟨-, -, hall⟩ | ⟨cs, w', hr, -⟩ | ⟨news, hr, -⟩
      · have := hall _ ho.known hcov
        exact absurd this (Nat.not_lt.mpr (hn w hw))
      · cases hquiet.symm.trans hr
      · cases hquiet.symm.trans hr

/-- A message of topic `t`. -/
def letter : String :=
  "\x7b\"id\":\"00000000-0000-4000-8000-000000000000\",\"topic\":\"t\","
    ++ "\"published_at\":\"1970-01-01T00:00:00Z\",\"payload\":null\x7d"

theorem letter_reads :
    ∃ m, Json.readAll Envelope.form.read letter.toList = .ok m :=
  ⟨_, by cbv⟩

def labOptions : SubscriptionOptions := .ofSettings {}

/-- Something is put on the topic of a subscription before its watch
breaks, and the letter while no watch is open. -/
def bridged : History :=
  [.turn 0 1000000000 [], .turn 0 1000000000 [], .turn 0 1000000000 [],
    .turn 0 1000000000 [], .put "/metal/bus/t/1" letter 0,
    .turn 0 0 [], .breakWatches false,
    .turn 0 0 [], .turn 0 0 [], .put "/metal/bus/t/0" "" 0,
    .subscribe "t" "x" labOptions []]

theorem handed_unless_overlooked_bridged :
    ∃ en m, Owed lab bridged 0 en m ∧ (after lab bridged).CaughtUp 0
      ∧ (Handed lab bridged 0 en m ↔ ¬ Overlooked lab bridged 0 en) := by
  obtain ⟨m, hm⟩ := letter_reads
  have howed : Owed lab bridged 0
      ⟨"/metal/bus/t/1", letter, 2, 2, 1, 0⟩ m := by
    refine ⟨?_, hm, _, _, _, List.drop_suffix 10 bridged, rfl, rfl, ?_, ?_⟩
    · have hh : (after lab bridged).server.history
          = [.put ⟨"/metal/bus/t/0", "", 1, 1, 1, 0⟩,
            .put ⟨"/metal/bus/t/1", letter, 2, 2, 1, 0⟩] := by
        rw [bridged, after_cons, turn_server]
        rfl
      rw [hh]
      exact List.mem_cons_of_mem _ List.mem_cons_self
    · decide +kernel
    · decide +kernel
  have hcaught : (after lab bridged).CaughtUp 0 := by
    have hx : (after lab bridged).bus.subscribers[0]?.map
        (fun x => (x.state, x.batch, x.topic))
        = some (.watching ⟨3, none⟩, [], "t") := by cbv
    obtain ⟨x, hx, heq⟩ := Option.map_eq_some_iff.mp hx
    obtain ⟨hw, hb, ht⟩ : x.state = .watching ⟨3, none⟩
        ∧ x.batch = [] ∧ x.topic = "t" := by simpa using heq
    refine ⟨x, _, hx, hw, hb, ?_⟩
    rw [Subscriber.range, ht, bridged, after_cons, turn_server]
    rfl
  exact ⟨_, m, howed, hcaught, handed_unless_overlooked howed hcaught⟩

/-- The watch of a subscription breaks before anything is put on the
topic, and the letter is put while no watch is open. -/
def gap : History :=
  [.turn 0 1000000000 [], .turn 0 1000000000 [],
    .put "/metal/bus/t/1" letter 0, .turn 0 0 [], .breakWatches false,
    .subscribe "t" "x" labOptions []]

/-- The letter is lost, although the subscription goes on. -/
theorem lost_in_gap :
    ∃ en m, Owed lab gap 0 en m ∧ (after lab gap).CaughtUp 0
      ∧ ¬ Handed lab gap 0 en m := by
  obtain ⟨m, hm⟩ := letter_reads
  refine ⟨⟨"/metal/bus/t/1", letter, 1, 1, 1, 0⟩, m, ?_, ?_, ?_⟩
  · refine ⟨?_, hm, _, _, _, List.drop_suffix 5 gap, rfl, rfl, ?_, ?_⟩
    · exact List.mem_singleton_self _
    · decide +kernel
    · decide +kernel
  · exact ⟨_, _, rfl, rfl, rfl, by rfl⟩
  · have hover : Overlooked lab gap 0
        ⟨"/metal/bus/t/1", letter, 1, 1, 1, 0⟩ :=
      .now ⟨_, _, rfl, rfl, rfl, rfl, Nat.le_refl 1, rfl⟩
    exact (hover.passed Nat.one_pos).2.2

end Site

end ControlPlane.Etcd
