/-
Machines do not interfere. Take any history of lifecycle calls, delete
the calls on all other machines than `m`, and run what is left: each
call on `m` makes as many attempts, meets with as many conflicts and
ends with the same result, and the machine's record and history come out
the same (`machines_independent`). The two runs differ in their
revisions and clock values, which are shared by all machines, and a
renaming that keeps their order takes those of the one run to those of
the other.

# The simulation

The run alone lags behind the whole run: its revisions are fewer and its
clock is earlier. `Mirrored` relates the two along the way.

- An event of another call is seen by nothing but the shared counters
  (`unseen`), and the renaming stays.
- An event of a call on `m` happens in both runs, to calls alike, and
  ends alike (`meet_alike`). What it takes of the counters is new in both
  runs, so the renaming grows by it.
- What happens beside the calls happens in both.

Wait calls on other machines may be there as well; the histories are
those without wait calls on `m`.

Chain: over Contention.lean, Fleet/Alone.lean and Fleet/Beside.lean.
-/
import ControlPlane.Proofs.Contention
import ControlPlane.Proofs.Fleet.Alone
import ControlPlane.Proofs.Fleet.Beside

namespace ControlPlane.Fleet

open Renaming

variable {s : Setting} {f f' g g' : Fleet} {e e' : Event} {h : History}
  {i j k : Nat} {m : String} {x x' : Slot}
  {ρ ρ' : Set (Int × Int)} {τ τ' : Set (Timestamp × Timestamp)}

-- ========================================================= the two runs

/-- The same lifecycle call in either run, renamed. -/
inductive Slot.Renamed (ρ : Set (Int × Int))
    (τ : Set (Timestamp × Timestamp)) : Slot → Slot → Prop
  | intro {c c'} {r : Nat} {d : Bool} (hc : c.Renamed ρ τ c') :
      Renamed ρ τ ⟨r, .lifecycle c, d⟩ ⟨r, .lifecycle c', d⟩

theorem Slot.Renamed.mono (h : x.Renamed ρ τ x') (hr : ρ ⊆ ρ')
    (ht : τ ⊆ τ') : x.Renamed ρ' τ' x' := by
  cases h with
  | intro hc => exact .intro (hc.mono hr ht)

/-- The run of the calls on `m` alone mirrors the whole run: the fleets
look alike to `m`, and the calls on it stand where they stand. -/
structure Mirrored (ρ : Set (Int × Int)) (τ : Set (Timestamp × Timestamp))
    (s : Setting) (m : String) (h : History) : Prop where
  beside : Beside ρ τ m (after s (alone m h)) (after s h)
  calls : ∀ i j, place m (begun h) i = some j →
    ∃ x x', (after s (alone m h)).slots[j]? = some x
      ∧ (after s h).slots[i]? = some x' ∧ x.Renamed ρ τ x'

/-- There are as many calls in the run alone as are on the machine. -/
theorem alone_length (s : Setting) (m : String) (h : History) :
    (after s (alone m h)).slots.length = (begun h).count m := by
  have hlen := congrArg List.length (begun_slots s (alone m h))
  rw [begun_alone, List.length_map] at hlen
  rw [hlen, List.count_eq_length_filter]
  rfl

/-- All calls in the run alone are on the machine. -/
theorem alone_machine (hx : (after s (alone m h)).slots[j]? = some x) :
    x.task.machine = m := by
  have hget := begun_get? s (alone m h) j
  rw [hx, begun_alone] at hget
  have hmem := List.mem_of_getElem? hget
  simpa using (List.mem_filter.mp hmem).2

/-- What `m` does not see changes nothing about how alike the fleets
look. -/
theorem Beside.unseen (hf : Beside ρ τ m f f') (hu : Unseen m f g)
    (hu' : Unseen m f' g') : Beside ρ τ m g g' where
  times := hf.times.later hu.clock hu'.clock
  revisions := hf.revisions.later hu.revision hu'.revision
  offline := by rw [hu.offline, hu'.offline, hf.offline]
  record := by
    rw [hu.record, hu'.record]
    exact hf.record
  history := by
    rw [hu.history, hu'.history]
    exact hf.history

-- ========================================================= deleted events

/-- With an event no call gets a place but the one that it begins. -/
theorem place_cons (hp : place m (begun (e :: h)) i = some j) :
    place m (begun h) i = some j
      ∨ (i = (begun h).length ∧ e.begins? = some m
        ∧ j = (begun h).count m) := by
  rw [begun] at hp
  cases hb : e.begins? with
  | none =>
      rw [hb, Option.toList_none, List.append_nil] at hp
      exact Or.inl hp
  | some m' =>
      rw [hb, Option.toList_some] at hp
      rcases place_of_append hp with hp | ⟨hi, rfl, hj⟩
      · exact Or.inl hp
      · exact Or.inr ⟨hi, rfl, hj⟩

theorem caller_deleted {ms : List String} (he : e.only m ms = none)
    (hp : place m ms i = some j) : e.caller? ≠ some i := by
  intro hc
  cases e with
  | step k ch =>
      cases hc
      simp [Event.only, hp] at he
  | expire k =>
      cases hc
      simp [Event.only, hp] at he
  | drop k =>
      cases hc
      simp [Event.only, hp] at he
  | _ => cases hc

theorem place_deleted (he : e.only m (begun h) = none)
    (hp : place m (begun (e :: h)) i = some j) :
    place m (begun h) i = some j := by
  rcases place_cons hp with hp | ⟨-, hb, -⟩
  · exact hp
  · have hnone := e.only_begins? m (begun h)
    rw [he, hb] at hnone
    simp [Option.filter] at hnone

/-- An event of a call on another machine. -/
theorem Mirrored.deleted (hm : Mirrored ρ τ s m h)
    (he : e.only m (begun h) = none) : Mirrored ρ τ s m (e :: h) where
  beside := by
    rw [alone_deleted he]
    exact hm.beside.unseen (Unseen.refl m _) (unseen he)
  calls i j hp := by
    have hp := place_deleted he hp
    obtain ⟨x, x', hx, hx', hren⟩ := hm.calls i j hp
    rw [alone_deleted he]
    exact ⟨x, x', hx, slot_other hx' (caller_deleted he hp), hren⟩

-- ============================================================ own events

/-- A call on the machine begins. -/
theorem Mirrored.submitted (hm : Mirrored ρ τ s m h) (r : Nat)
    (retry : RetrySettings) (op : Operation) :
    Mirrored ρ τ s m (.submit r retry m op :: h) := by
  have halone : alone m (.submit r retry m op :: h)
      = .submit r retry m op :: alone m h := alone_kept (if_pos rfl)
  refine ⟨?_, ?_⟩
  · rw [halone]
    exact hm.beside.unseen ⟨le_refl _, Int.le_refl _, rfl, rfl, rfl⟩
      ⟨le_refl _, Int.le_refl _, rfl, rfl, rfl⟩
  · intro i j hp
    rw [halone]
    rcases place_of_append hp with hp | ⟨rfl, -, rfl⟩
    · obtain ⟨x, x', hx, hx', hren⟩ := hm.calls i j hp
      exact ⟨x, x', slot_other hx nofun, slot_other hx' nofun, hren⟩
    · refine ⟨⟨r, .lifecycle (.start retry s.topic m op), false⟩,
        ⟨r, .lifecycle (.start retry s.topic m op), false⟩, ?_, ?_,
        .intro (.intro .reading)⟩
      · rw [← alone_length s, after_cons, step, after_topic]
        exact List.getElem?_concat_length
      · have hlen := congrArg List.length (begun_slots s h)
        rw [List.length_map] at hlen
        rw [← hlen, after_cons, step, after_topic]
        exact List.getElem?_concat_length

theorem begun_same (he : e.begins? = none) : begun (e :: h) = begun h := by
  rw [begun, he, Option.toList_none, List.append_nil]

/-- An event that cannot happen in either run. -/
theorem Mirrored.idle (hm : Mirrored ρ τ s m h) (he : e.begins? = none)
    (ha : after s (alone m (e :: h)) = after s (alone m h))
    (hh : after s (e :: h) = after s h) : Mirrored ρ τ s m (e :: h) where
  beside := by
    rw [ha, hh]
    exact hm.beside
  calls i j hp := by
    rw [begun_same he] at hp
    rw [ha, hh]
    exact hm.calls i j hp

/-- The call in place `j` moves on in both runs, to where it stands
alike. -/
theorem Mirrored.moved (hm : Mirrored ρ τ s m h)
    (hp : place m (begun h) i = some j) (he : e.begins? = none)
    (hb : Beside ρ' τ' m g g') (hr : ρ ⊆ ρ') (ht : τ ⊆ τ')
    (hg : g.slots = (after s (alone m h)).slots)
    (hg' : g'.slots = (after s h).slots) (hx : x.Renamed ρ' τ' x')
    (ha : after s (alone m (e :: h)) = g.setSlot j x)
    (hh : after s (e :: h) = g'.setSlot i x') :
    Mirrored ρ' τ' s m (e :: h) where
  beside := by
    rw [ha, hh]
    exact hb.unseen ⟨le_refl _, Int.le_refl _, rfl, rfl, rfl⟩
      ⟨le_refl _, Int.le_refl _, rfl, rfl, rfl⟩
  calls k l hk := by
    rw [begun_same he] at hk
    obtain ⟨y, y', hy, hy', -⟩ := hm.calls i j hp
    rw [ha, hh, setSlot_get? hy hg, setSlot_get? hy' hg']
    by_cases hik : i = k
    · obtain rfl : j = l := by
        rw [hik, hk] at hp
        exact (Option.some.inj hp).symm
      rw [if_pos rfl, if_pos hik]
      exact ⟨x, x', rfl, rfl, hx⟩
    · have hjl : j ≠ l := by
        rintro rfl
        exact hik (place_injective hp hk)
      rw [if_neg hjl, if_neg hik]
      obtain ⟨z, z', hz, hz', hren⟩ := hm.calls k l hk
      exact ⟨z, z', hz, hz', hren.mono hr ht⟩

/-- The next step of a call that is under way. -/
theorem advance_underWay {r : Nat} {t : Task} (ch : Choice)
    (hi : f.slots[i]? = some ⟨r, t, false⟩) :
    f.step (.step i ch) = match f.meetTask r ch t with
      | none => f
      | some (t', g) => g.setSlot i ⟨r, t', false⟩ := by
  show f.advance i ch = _
  unfold advance
  rw [hi]
  rfl

theorem advance_dropped {r : Nat} {t : Task} (ch : Choice)
    (hi : f.slots[i]? = some ⟨r, t, true⟩) :
    f.step (.step i ch) = f := by
  show f.advance i ch = f
  unfold advance
  rw [hi]
  rfl

/-- A call on the machine takes a step: in both runs, and alike. -/
theorem Mirrored.stepped (hm : Mirrored ρ τ s m h)
    (hp : place m (begun h) i = some j) (ch : Choice) :
    ∃ ρ' τ', Mirrored ρ' τ' s m (.step i ch :: h) := by
  have halone : alone m (.step i ch :: h) = .step j ch :: alone m h :=
    alone_kept (by simp [Event.only, hp])
  obtain ⟨x, x', hx, hx', hren⟩ := hm.calls i j hp
  have hcm := alone_machine hx
  have hwrite := fun w hw => (write_key (w := w) hx hw).trans hcm
  cases hren with
  | @intro c c' r d hc =>
      cases d with
      | true =>
          refine ⟨ρ, τ, hm.idle rfl ?_ (advance_dropped ch hx')⟩
          rw [halone]
          exact advance_dropped ch hx
      | false =>
          have ha := advance_underWay ch hx
          have hh := advance_underWay ch hx'
          rw [← after_cons, ← halone] at ha
          rw [← after_cons] at hh
          rcases rel_cases (meet_alike hm.beside hc hcm hwrite r ch) with
            ⟨hn, hn'⟩ | ⟨⟨c₁, g⟩, ⟨c₁', g'⟩, hg, hg', hmet⟩
          · simp only [meetTask, hn, Option.map_none] at ha
            simp only [meetTask, hn', Option.map_none] at hh
            exact ⟨ρ, τ, hm.idle rfl ha hh⟩
          · obtain ⟨ρ', τ', hρ, hτ, hb, hren⟩ := hmet
            have hs : (after s (alone m h)).meetTask r ch (.lifecycle c)
                = some (.lifecycle c₁, g) := by
              simp only [meetTask, hg, Option.map_some]
            have hs' : (after s h).meetTask r ch (.lifecycle c')
                = some (.lifecycle c₁', g') := by
              simp only [meetTask, hg', Option.map_some]
            rw [hs] at ha
            rw [hs'] at hh
            exact ⟨ρ', τ', hm.moved hp rfl hb hρ hτ
              (task_step hs).frame.slots (task_step hs').frame.slots
              (.intro hren) ha hh⟩

/-- The deadline of a lifecycle call does not pass: it has none. -/
theorem Mirrored.expired (hm : Mirrored ρ τ s m h)
    (hp : place m (begun h) i = some j) :
    Mirrored ρ τ s m (.expire i :: h) := by
  have halone : alone m (.expire i :: h) = .expire j :: alone m h :=
    alone_kept (by simp [Event.only, hp])
  obtain ⟨x, x', hx, hx', hren⟩ := hm.calls i j hp
  cases hren with
  | intro hc =>
      refine hm.idle rfl ?_ ?_
      · rw [halone]
        simp only [after_cons, step, expire, hx]
      · simp only [after_cons, step, expire, hx']

/-- A call on the machine is given up in both runs. -/
theorem Mirrored.dropped (hm : Mirrored ρ τ s m h)
    (hp : place m (begun h) i = some j) :
    Mirrored ρ τ s m (.drop i :: h) := by
  have halone : alone m (.drop i :: h) = .drop j :: alone m h :=
    alone_kept (by simp [Event.only, hp])
  obtain ⟨x, x', hx, hx', hren⟩ := hm.calls i j hp
  cases hren with
  | @intro c c' r d hc =>
      cases d with
      | true =>
          refine hm.idle rfl ?_ ?_
          · rw [halone]
            simp only [after_cons, step, giveUp, hx]
          · simp only [after_cons, step, giveUp, hx']
      | false =>
          refine hm.moved hp rfl hm.beside subset_rfl subset_rfl rfl rfl
            (x := ⟨r, .lifecycle c, true⟩)
            (.intro hc) ?_ ?_
          · rw [halone]
            simp only [after_cons, step, giveUp, hx]
          · simp only [after_cons, step, giveUp, hx']

-- ====================================================== beside the calls

/-- What happens beside the calls happens in both runs, to whatever is
left of the bus. -/
theorem Mirrored.aside (hm : Mirrored ρ τ s m h) (a : Aside) :
    Mirrored ρ τ s m (.aside a :: h) := by
  have halone : alone m (.aside a :: h) = .aside a :: alone m h :=
    alone_kept rfl
  have hf := (after s (alone m h)).aside_step a
  have hf' := (after s h).aside_step a
  have ha := hf.apart
  have ha' := hf'.apart
  refine ⟨?_, ?_⟩
  · rw [halone]
    by_cases ho : ∃ on, a = .outage on
    · obtain ⟨on, rfl⟩ := ho
      obtain ⟨ht, hr, -, hrec, hlog⟩ := hm.beside
      exact ⟨ht, hr, rfl, hrec, hlog⟩
    · have hne : ∀ on, a ≠ .outage on := fun on h => ho ⟨on, h⟩
      exact hm.beside.unseen (ha.unseen m (hf.offline hne))
        (ha'.unseen m (hf'.offline hne))
  · intro i j hp
    rw [begun_same rfl] at hp
    obtain ⟨x, x', hx, hx', hren⟩ := hm.calls i j hp
    rw [halone]
    exact ⟨x, x', slot_other hx nofun, slot_other hx' nofun, hren⟩

-- ================================================================= runs

/-- The machine that an event's wait call is about, if it begins one. -/
def Event.awaits? : Event → Option String
  | await _ _ _ _ machine => some machine
  | _ => none

theorem Mirrored.step (hm : Mirrored ρ τ s m h) (he : e.awaits? ≠ some m) :
    ∃ ρ' τ', Mirrored ρ' τ' s m (e :: h) := by
  cases hb : e.only m (begun h) with
  | none => exact ⟨ρ, τ, hm.deleted hb⟩
  | some e' =>
      cases e with
      | submit r retry machine op =>
          simp only [Event.only] at hb
          split at hb
          · rename_i heq
            subst heq
            exact ⟨ρ, τ, hm.submitted r retry op⟩
          · cases hb
      | await r node settings retry machine =>
          simp only [Event.only] at hb
          split at hb
          · rename_i heq
            exact absurd (congrArg some heq) he
          · cases hb
      | step i ch =>
          obtain ⟨j, hp, -⟩ := Option.map_eq_some_iff.mp hb
          exact hm.stepped hp ch
      | expire i =>
          obtain ⟨j, hp, -⟩ := Option.map_eq_some_iff.mp hb
          exact ⟨ρ, τ, hm.expired hp⟩
      | drop i =>
          obtain ⟨j, hp, -⟩ := Option.map_eq_some_iff.mp hb
          exact ⟨ρ, τ, hm.dropped hp⟩
      | aside a => exact ⟨ρ, τ, hm.aside a⟩

/-- The run alone mirrors the whole run all along. -/
theorem mirrored (s : Setting) (hw : ∀ e ∈ h, e.awaits? ≠ some m) :
    ∃ ρ τ, Mirrored ρ τ s m h := by
  induction h with
  | nil =>
      refine ⟨∅, ∅, ⟨upto_empty _ _, upto_empty _ _, rfl, .none, .nil⟩, ?_⟩
      intro i j hp
      cases hp
  | cons e h ih =>
      obtain ⟨ρ, τ, hm⟩ := ih fun e he => hw e (List.mem_cons_of_mem _ he)
      exact hm.step (hw e List.mem_cons_self)

-- ============================================================ conflicts

/-- Attempts alike meet with a conflict both, or neither does. -/
theorem Attempted.clashes {w w' : Write}
    (ha : Attempted ρ τ m (w.run f.store) (w'.run f'.store) f f') :
    w'.clashes f'.store = w.clashes f.store := by
  have hans := ha.answer
  unfold Write.clashes
  generalize (w.run f.store).1 = a at hans
  generalize (w'.run f'.store).1 = a' at hans
  cases hans with
  | error e => rfl
  | ok hv => rfl

/-- A call on the machine is outrun in both runs, or in neither. -/
theorem Mirrored.outrun_alike (hm : Mirrored ρ τ s m h)
    (hp : place m (begun h) i = some j) (ch : Choice) :
    outrun (after s h) i (.step i ch)
      = outrun (after s (alone m h)) j (.step j ch) := by
  obtain ⟨x, x', hx, hx', hren⟩ := hm.calls i j hp
  have hcm := alone_machine hx
  have hwrite := fun w hw => (write_key (w := w) hx hw).trans hcm
  cases ch with
  | serve now =>
      cases hren with
      | @intro c c' r d hc =>
          cases d with
          | true => simp [outrun, hx, hx']
          | false =>
              rw [outrun_own hx, outrun_own hx']
              show (lifecycleWrite? c').any _ = (lifecycleWrite? c).any _
              rcases rel_cases (write_alike hc) with
                ⟨hn, hn'⟩ | ⟨w, w', hw, hw', hren⟩
              · rw [hn, hn']
                rfl
              · obtain ⟨ρ', -, ha⟩ :=
                  hm.beside.attempted hren (hwrite w hw)
                rw [hw, hw']
                exact ha.clashes
  | _ => rfl

/-- An event is a conflict of the call in either run, or in neither. -/
theorem Mirrored.outrun_kept (hm : Mirrored ρ τ s m h)
    (hp : place m (begun h) i = some j)
    (he : e.only m (begun h) = some e') :
    outrun (after s h) i e = outrun (after s (alone m h)) j e' := by
  have hcaller := Event.only_caller? he
  by_cases hc : e.caller? = some i
  · cases e with
    | step k ch =>
        cases hc
        rw [Event.only, hp] at he
        cases he
        exact hm.outrun_alike hp ch
    | expire k =>
        cases hc
        rw [Event.only, hp] at he
        cases he
        rfl
    | drop k =>
        cases hc
        rw [Event.only, hp] at he
        cases he
        rfl
    | _ => cases hc
  · have hc' : e'.caller? ≠ some j := by
      intro hj
      rw [hcaller] at hj
      obtain ⟨k, hk, hkj⟩ := Option.bind_eq_some_iff.mp hj
      rw [hk, place_injective hkj hp] at hc
      exact hc rfl
    rw [outrun_other hc, outrun_other hc']

/-- A call has met with as many conflicts in the run alone. -/
theorem conflicts_alike (s : Setting) (hw : ∀ e ∈ h, e.awaits? ≠ some m)
    (hp : place m (begun h) i = some j) :
    conflicts s i h = conflicts s j (alone m h) := by
  induction h with
  | nil => rfl
  | cons e h ih =>
      have hw' := fun e he => hw e (List.mem_cons_of_mem _ he)
      obtain ⟨ρ, τ, hm⟩ := mirrored s hw'
      rcases place_cons hp with hp | ⟨rfl, hb, rfl⟩
      · have ih := ih hw' hp
        cases he : e.only m (begun h) with
        | none =>
            have ho := outrun_other (f := after s h) (caller_deleted he hp)
            rw [alone_deleted he, conflicts_same ho, ih]
        | some e' =>
            rw [alone_kept he, conflicts, conflicts, ih,
              hm.outrun_kept hp he]
      · -- a call that begins has had no conflict
        obtain ⟨e', he⟩ : ∃ e', e.only m (begun h) = some e' := by
          have hbind := e.only_begins? m (begun h)
          rw [hb, Option.filter_some_pos (by simp)] at hbind
          obtain ⟨e', he, -⟩ := Option.bind_eq_some_iff.mp hbind
          exact ⟨e', he⟩
        have hnew : (after s h).slots[(begun h).length]? = none := by
          rw [List.getElem?_eq_none_iff, ← begun_slots s h,
            List.length_map]
        have halone : (after s (alone m h)).slots[(begun h).count m]?
            = none := by
          rw [List.getElem?_eq_none_iff, alone_length]
        rw [alone_kept he, conflicts_same (outrun_absent hnew e),
          conflicts_same (outrun_absent halone e'), conflicts_none hnew,
          conflicts_none halone]

-- ====================================================== no interference

/-- What the run of the calls on `m` alone has in common with the whole
run. -/
structure Independent (s : Setting) (m : String) (h : History)
    (ρ : Set (Int × Int)) (τ : Set (Timestamp × Timestamp)) : Prop where
  /-- The renaming of revisions, and that of clock values, keeps the
  order. -/
  revisions : Ordered ρ
  times : Ordered τ
  /-- The record is the same, -/
  record : Option.Rel (Versioned.Renamed ρ τ)
    ((after s (alone m h)).stored m) ((after s h).stored m)
  /-- and the history is. -/
  history : List.Forall₂ (ProvisioningEvent.Renamed τ)
    ((after s (alone m h)).events.list m) ((after s h).events.list m)
  /-- Every call on the machine is in both runs. It has made as many
  attempts, met with as many conflicts, and stands at the same point: if
  it is at its end, with the same result. -/
  calls : ∀ i x', (after s h).slots[i]? = some x' → x'.task.machine = m →
    ∃ j x, place m (begun h) i = some j
      ∧ (after s (alone m h)).slots[j]? = some x ∧ x.Renamed ρ τ x'
      ∧ conflicts s i h = conflicts s j (alone m h)
  /-- There is no other call in the run alone. -/
  only : ∀ j x, (after s (alone m h)).slots[j]? = some x →
    ∃ i, place m (begun h) i = some j

/-- Calls on other machines do not disturb those on `m`. -/
theorem machines_independent (s : Setting) (m : String) (h : History)
    (hw : ∀ e ∈ h, e.awaits? ≠ some m) :
    ∃ ρ τ, Independent s m h ρ τ := by
  obtain ⟨ρ, τ, hm⟩ := mirrored s hw
  refine ⟨ρ, τ, hm.beside.revisions.ordered, hm.beside.times.ordered,
    hm.beside.record, hm.beside.history, ?_, ?_⟩
  · intro i x' hx' hmachine
    have hget := begun_get? s h i
    rw [hx', Option.map_some, hmachine] at hget
    have hp := place_eq_some.mpr ⟨hget, rfl⟩
    obtain ⟨x, y, hx, hy, hren⟩ := hm.calls i _ hp
    cases hx'.symm.trans hy
    exact ⟨_, x, hp, hx, hren, conflicts_alike s hw hp⟩
  · intro j x hx
    obtain ⟨hlt, -⟩ := List.getElem?_eq_some_iff.mp hx
    rw [alone_length] at hlt
    exact place_surjective hlt

/-- Two registrations of `a` race while `b` is registered: the second one
loses, and starts over. -/
def crossed : History :=
  [.step 2 (.serve 0), .step 2 (.serve 0), .step 2 (.serve 0),
    .step 2 (.serve 0), .step 1 (.serve 0), .step 0 (.serve 0),
    .step 2 (.serve 0), .step 1 (.serve 0), .step 0 (.serve 0),
    .step 0 (.serve 0), .step 2 (.serve 0), .step 1 (.serve 0),
    .submit 1 labRetry "a" (.register { partition := "p" }),
    .submit 0 labRetry "a" (.register {}),
    .submit 0 labRetry "b" (.register {})]

/-- The revisions of `a` are others than in the run alone, and the race
ends as it does there. -/
theorem machines_independent_crossed :
    (∀ e ∈ crossed, e.awaits? ≠ some "a")
      ∧ ((after lab crossed).stored "a").map Versioned.revision = some 3
      ∧ ((after lab (alone "a" crossed)).stored "a").map
        Versioned.revision = some 2
      ∧ conflicts lab 2 crossed = 1
      ∧ ∃ ρ τ, Independent lab "a" crossed ρ τ :=
  ⟨by decide, by decide, by decide, by decide,
    machines_independent lab "a" crossed (by decide)⟩

end ControlPlane.Fleet
