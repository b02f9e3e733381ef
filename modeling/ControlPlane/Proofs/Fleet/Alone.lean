/-
The run of one machine's calls alone. From a history all events of calls
on other machines are deleted: where they begin, every step that they
take, and where they are given up. What happens beside the calls stays,
outages and the clock above all.

Calls are numbered in the order in which they begin, so with the others
gone those on the machine have other numbers: a call's `place` among
them. It depends on nothing but which machine each call is about
(`begun`), and that is written in the history (`begun_slots`).

Chain: over Versions.lean; consumed by NonInterference.lean.
-/
import Mathlib.Data.List.Induction
import ControlPlane.Proofs.Fleet.Versions

namespace ControlPlane.Fleet

variable {s : Setting} {f g : Fleet} {e e' : Event} {h : History}
  {i j k : Nat} {m m' : String} {ms : List String} {x x' : Slot}

-- ============================================================= deletion

/-- The machine of the call that an event begins. -/
def Event.begins? : Event → Option String
  | submit _ _ machine _ | await _ _ _ _ machine => some machine
  | _ => none

/-- The machines that the calls of a history are about, in the order in
which the calls begin. -/
def begun : History → List String
  | [] => []
  | e :: h => begun h ++ e.begins?.toList

/-- The number of call `i` among the calls on machine `m`, if it is one
of them. -/
def place (m : String) (ms : List String) (i : Nat) : Option Nat :=
  if ms[i]? = some m then some ((ms.take i).count m) else none

/-- What is left of an event when all calls on other machines than `m`
are deleted. -/
def Event.only (m : String) (ms : List String) : Event → Option Event
  | submit r retry machine op =>
      if machine = m then some (submit r retry machine op) else none
  | await r node settings retry machine =>
      if machine = m then some (await r node settings retry machine)
      else none
  | step i ch => (place m ms i).map fun j => step j ch
  | expire i => (place m ms i).map expire
  | drop i => (place m ms i).map drop
  | aside a => some (aside a)

/-- A history without the calls on other machines than `m`. -/
def alone (m : String) : History → History
  | [] => []
  | e :: h => (e.only m (begun h)).toList ++ alone m h

theorem alone_kept (he : e.only m (begun h) = some e') :
    alone m (e :: h) = e' :: alone m h := by
  rw [alone, he]
  rfl

theorem alone_deleted (he : e.only m (begun h) = none) :
    alone m (e :: h) = alone m h := by
  rw [alone, he]
  rfl

-- =============================================================== places

theorem place_eq_some : place m ms i = some j
    ↔ ms[i]? = some m ∧ (ms.take i).count m = j := by
  unfold place
  split
  · rename_i hi
    simp [hi]
  · rename_i hi
    simp [hi]

/-- A place is one of as many as there are calls on the machine. -/
theorem place_lt (hi : place m ms i = some j) : j < ms.count m := by
  obtain ⟨hm, rfl⟩ := place_eq_some.mp hi
  have hsub := (List.take_sublist (i + 1) ms).count_le m
  rw [List.take_add_one, hm, Option.toList_some, List.count_append,
    List.count_singleton_self] at hsub
  omega

theorem place_before (hi : place m ms i = some k)
    (hj : place m ms j = some k) : ¬ i < j := by
  intro hij
  obtain ⟨hmi, hki⟩ := place_eq_some.mp hi
  obtain ⟨-, hkj⟩ := place_eq_some.mp hj
  -- the calls before `j` have `i` among them
  have hplace : place m (ms.take j) i = some k := by
    rw [place_eq_some, List.getElem?_take_of_lt hij, List.take_take,
      Nat.min_eq_left hij.le]
    exact ⟨hmi, hki⟩
  have hlt := place_lt hplace
  omega

/-- No two calls have one place. -/
theorem place_injective (hi : place m ms i = some k)
    (hj : place m ms j = some k) : i = j :=
  Nat.le_antisymm (Nat.not_lt.mp (place_before hj hi))
    (Nat.not_lt.mp (place_before hi hj))

/-- A call keeps its place when others begin. -/
theorem place_append (hi : place m ms i = some j) :
    place m (ms ++ [m']) i = some j := by
  obtain ⟨hm, hj⟩ := place_eq_some.mp hi
  obtain ⟨hlt, -⟩ := List.getElem?_eq_some_iff.mp hm
  rw [place_eq_some, List.getElem?_append_left hlt,
    List.take_append_of_le_length hlt.le]
  exact ⟨hm, hj⟩

/-- A call that has begun on the machine is behind all others. -/
theorem place_new : place m (ms ++ [m]) ms.length = some (ms.count m) := by
  rw [place_eq_some]
  simp

/-- When a call has begun, the calls with places are those that had one,
and this one if it is on the machine. -/
theorem place_of_append (hi : place m (ms ++ [m']) i = some j) :
    place m ms i = some j
      ∨ (i = ms.length ∧ m' = m ∧ j = ms.count m) := by
  obtain ⟨hm, hj⟩ := place_eq_some.mp hi
  by_cases hlt : i < ms.length
  · rw [List.getElem?_append_left hlt] at hm
    rw [List.take_append_of_le_length hlt.le] at hj
    exact Or.inl (place_eq_some.mpr ⟨hm, hj⟩)
  · obtain ⟨hlast, -⟩ := List.getElem?_eq_some_iff.mp hm
    rw [List.length_append, List.length_singleton] at hlast
    have hi : i = ms.length := by omega
    subst hi
    simp only [List.getElem?_concat_length, Option.some.injEq,
      List.take_left] at hm hj
    exact Or.inr ⟨rfl, hm, hj.symm⟩

/-- Every place is some call's. -/
theorem place_surjective (hj : j < ms.count m) :
    ∃ i, place m ms i = some j := by
  induction ms using List.reverseRecOn with
  | nil => simp at hj
  | append_singleton ms m' ih =>
      by_cases hold : j < ms.count m
      · obtain ⟨i, hi⟩ := ih hold
        exact ⟨i, place_append hi⟩
      · rw [List.count_append, List.count_singleton] at hj
        split at hj
        · rename_i hm
          obtain rfl : m' = m := by simpa using hm
          have hj : j = ms.count m' := by omega
          exact ⟨ms.length, hj ▸ place_new⟩
        · omega

/-- What is left of a call's event is an event of the call in its
place. -/
theorem Event.only_caller? (he : e.only m ms = some e') :
    e'.caller? = e.caller?.bind (place m ms) := by
  cases e with
  | step i ch =>
      obtain ⟨j, hj, rfl⟩ := Option.map_eq_some_iff.mp he
      exact hj.symm
  | expire i =>
      obtain ⟨j, hj, rfl⟩ := Option.map_eq_some_iff.mp he
      exact hj.symm
  | drop i =>
      obtain ⟨j, hj, rfl⟩ := Option.map_eq_some_iff.mp he
      exact hj.symm
  | submit r retry machine op =>
      simp only [only] at he
      split at he
      · cases he
        rfl
      · cases he
  | await r node settings retry machine =>
      simp only [only] at he
      split at he
      · cases he
        rfl
      · cases he
  | aside a =>
      cases he
      rfl

/-- What is left of a beginning is the beginning of the same call. -/
theorem Event.only_begins? (e : Event) (m : String) (ms : List String) :
    (e.only m ms).bind begins? = e.begins?.filter (· = m) := by
  cases e with
  | submit r retry machine op =>
      by_cases hm : machine = m
      · simp [only, begins?, hm, Option.filter]
      · simp [only, begins?, hm, Option.filter]
  | await r node settings retry machine =>
      by_cases hm : machine = m
      · simp [only, begins?, hm, Option.filter]
      · simp [only, begins?, hm, Option.filter]
  | aside a => rfl
  | step i ch => cases hp : place m ms i <;> simp [only, begins?, hp]
  | expire i => cases hp : place m ms i <;> simp [only, begins?, hp]
  | drop i => cases hp : place m ms i <;> simp [only, begins?, hp]

/-- Only calls on the machine are left, and all of them. -/
theorem begun_alone (m : String) (h : History) :
    begun (alone m h) = (begun h).filter (· = m) := by
  induction h with
  | nil => rfl
  | cons e h ih =>
      have hb := e.only_begins? m (begun h)
      have happend : begun (alone m (e :: h)) = begun (alone m h)
          ++ ((e.only m (begun h)).bind Event.begins?).toList := by
        rw [alone]
        cases e.only m (begun h) with
        | none => exact (List.append_nil _).symm
        | some e' => rfl
      rw [happend, hb, ih, begun, List.filter_append, Option.toList_filter]

-- ================================================================ calls

/-- A call that is put where one on the same machine was. -/
theorem setSlot_machines (hi : f.slots[i]? = some x)
    (hg : g.slots = f.slots) (hx : x'.task.machine = x.task.machine) :
    (g.setSlot i x').slots.map (fun y => y.task.machine)
      = f.slots.map fun y => y.task.machine := by
  apply List.ext_getElem?
  intro j
  rw [List.getElem?_map, List.getElem?_map, setSlot_get? hi hg]
  split
  · rename_i hij
    rw [← hij, hi, Option.map_some, Option.map_some, hx]
  · rfl

theorem step_machines (f : Fleet) (e : Event) :
    (f.step e).slots.map (fun y => y.task.machine)
      = (f.slots.map fun y => y.task.machine) ++ e.begins?.toList := by
  have hh := happened f e
  generalize f.step e = g at hh
  cases hh with
  | submitted => simp [Event.begins?, Task.machine, Lifecycle.Call.start]
  | awaited => simp [Event.begins?, Task.machine]
  | advanced hi ht =>
      refine Eq.trans ?_ (List.append_nil _).symm
      exact setSlot_machines hi ht.frame.slots ht.same.machine
  | expired hi hu hg =>
      refine Eq.trans ?_ (List.append_nil _).symm
      exact setSlot_machines hi (frame_vacated hg).slots rfl
  | dropped hi hg =>
      refine Eq.trans ?_ (List.append_nil _).symm
      exact setSlot_machines hi (frame_vacated hg).slots rfl
  | aside ha =>
      rw [ha.apart.slots]
      exact (List.append_nil _).symm
  | idle he =>
      cases e with
      | submit => cases he
      | await => cases he
      | _ => exact (List.append_nil _).symm

/-- What a history says of its calls is so. -/
theorem begun_slots (s : Setting) (h : History) :
    (after s h).slots.map (fun x => x.task.machine) = begun h := by
  induction h with
  | nil => rfl
  | cons e h ih => rw [after_cons, step_machines, ih, begun]

theorem begun_get? (s : Setting) (h : History) (i : Nat) :
    (begun h)[i]? = (after s h).slots[i]?.map fun x => x.task.machine := by
  rw [← begun_slots s h, List.getElem?_map]

-- ============================================================ the others

/-- An event has done nothing that machine `m` could see, and nothing but
take the shared counters further. -/
structure Unseen (m : String) (f g : Fleet) : Prop where
  clock : f.ambient.clock ≤ g.ambient.clock
  revision : f.store.revision ≤ g.store.revision
  offline : g.store.offline = f.store.offline
  record : g.stored m = f.stored m
  history : g.events.list m = f.events.list m

theorem Unseen.refl (m : String) (f : Fleet) : Unseen m f f :=
  ⟨le_refl _, Int.le_refl _, rfl, rfl, rfl⟩

theorem Apart.unseen (h : Apart f g) (m : String)
    (hoff : g.store.offline = f.store.offline) : Unseen m f g where
  clock := h.clock
  revision := Int.le_of_eq h.revision.symm
  offline := hoff
  record := by rw [stored, stored, h.records]
  history := by rw [h.events]

/-- A step of a call on another machine. -/
theorem TaskStep.unseen {r : Nat} {ch : Choice} {t t' : Task}
    (ht : TaskStep f r t ch t' g) (hm : t.machine ≠ m)
    (hkey : ∀ w, t.write? = some w → w.key = t.machine) :
    Unseen m f g where
  clock := ht.frame.clock
  revision := by
    rcases ht.store with hst | ⟨w, -, -, hst⟩
    · exact Int.le_of_eq (by rw [hst])
    · rw [hst, Write.apply_revision]
      exact Int.le_of_lt (Int.lt_succ _)
  offline := ht.frame.offline
  record := by
    rcases ht.store with hst | ⟨w, hw, -, hst⟩
    · rw [stored, stored, hst]
    · rw [stored_apply w hst, if_neg]
      rw [hkey w hw]
      exact hm
  history := by
    rcases ht.events with he | ⟨c, x, event, rfl, -, he⟩
    · rw [he]
    · rw [he, list_append]
      exact if_neg hm

/-- An event of a call on another machine is not seen. -/
theorem unseen (hb : e.only m (begun h) = none) :
    Unseen m (after s h) (after s (e :: h)) := by
  -- a call that takes a step, but has no place, is on another machine
  have hother : ∀ i x, place m (begun h) i = none →
      (after s h).slots[i]? = some x → x.task.machine ≠ m := by
    intro i x hp hx hm
    rw [place, begun_get? s, hx, Option.map_some, hm, if_pos rfl] at hp
    cases hp
  have hh := happened (after s h) e
  rw [← after_cons] at hh
  generalize after s (e :: h) = g at hh
  cases hh with
  | submitted => exact ⟨le_refl _, Int.le_refl _, rfl, rfl, rfl⟩
  | awaited => exact ⟨le_refl _, Int.le_refl _, rfl, rfl, rfl⟩
  | advanced hi ht =>
      have hm := hother _ _ (Option.map_eq_none_iff.mp hb) hi
      obtain ⟨hc, hr, ho, hst, hl⟩ :=
        ht.unseen hm fun w hw => write_key hi hw
      exact ⟨hc, hr, ho, hst, hl⟩
  | expired hi hu hg =>
      obtain ⟨a, ha, rfl⟩ := hg
      exact ⟨ha, Int.le_refl _, rfl, rfl, rfl⟩
  | dropped hi hg =>
      obtain ⟨a, ha, rfl⟩ := hg
      exact ⟨ha, Int.le_refl _, rfl, rfl, rfl⟩
  | aside ha => cases hb
  | idle he => exact Unseen.refl m _

end ControlPlane.Fleet
