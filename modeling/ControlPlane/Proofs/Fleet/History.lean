/-
Reading histories: a call seen through the events of a history, and the
earlier moments of one. Histories list the latest event first, so the
moments before are its suffixes, and `p <:+ h` says that `p` came
before `h`.

# The induction over one call

A fact about calls that every event preserves, and that a call has from
its beginning on, holds for all calls at all times. `slot_induction`
states this with one hypothesis for each thing that can befall a call;
it is the only induction over histories that facts about single calls
need.

Chain: over Events.lean; Versions.lean and all that follow it read
histories through these lemmas.
-/
import Mathlib.Data.List.Infix
import ControlPlane.Proofs.Fleet.Events

namespace ControlPlane.Fleet

variable {s : Setting} {f g : Fleet} {e : Event} {h p : History}
  {i : Nat} {x x' : Slot}

-- ============================================================== one call

theorem append_get? {j : Nat} (h : (f.slots ++ [x])[j]? = some x') :
    f.slots[j]? = some x' ∨ (f.slots[j]? = none ∧ x' = x) := by
  rw [List.getElem?_append] at h
  split at h
  · exact Or.inl h
  · rename_i hj
    refine Or.inr ⟨List.getElem?_eq_none (Nat.le_of_not_lt hj), ?_⟩
    cases hk : j - f.slots.length with
    | zero =>
        rw [hk] at h
        exact (Option.some.inj h).symm
    | succ n =>
        rw [hk] at h
        cases h

theorem setSlot_get? (hi : f.slots[i]? = some x) (hg : g.slots = f.slots)
    (j : Nat) :
    (g.setSlot i x').slots[j]?
      = if i = j then some x' else f.slots[j]? := by
  obtain ⟨hlt, -⟩ := List.getElem?_eq_some_iff.mp hi
  show (g.slots.set i x')[j]? = _
  rw [hg, List.getElem?_set, if_pos hlt]

/-- How a call that is there after an event came to be where it is. -/
inductive SlotStep (f : Fleet) (i : Nat) : Event → Slot → Fleet → Prop
  /-- The event was not about this call. -/
  | same {e : Event} {x : Slot} {g : Fleet}
      (hs : f.slots[i]? = some x) (he : e.caller? ≠ some i) :
      SlotStep f i e x g
  /-- The event could not happen. -/
  | idle {e : Event} {x : Slot} (hs : f.slots[i]? = some x) :
    SlotStep f i e x f
  | submitted {retry m op} {r : Nat} {g : Fleet}
      (hs : f.slots[i]? = none) :
      SlotStep f i (.submit r retry m op)
        ⟨r, .lifecycle (.start retry f.topic m op), false⟩ g
  | awaited {node settings retry machine} {r : Nat} {g : Fleet}
      (hs : f.slots[i]? = none) :
      SlotStep f i (.await r node settings retry machine)
        ⟨r, .wait { machine, node, settings, retry }, false⟩ g
  | advanced {ch : Choice} {r : Nat} {t t' : Task} {g : Fleet}
      (hs : f.slots[i]? = some ⟨r, t, false⟩)
      (ht : TaskStep f r t ch t' g) :
      SlotStep f i (.step i ch) ⟨r, t', false⟩
        (g.setSlot i ⟨r, t', false⟩)
  | expired {r : Nat} {c : Wait.Call} {g : Fleet}
      (hs : f.slots[i]? = some ⟨r, .wait c, false⟩)
      (hu : underDeadline c.stage = true) :
      SlotStep f i (.expire i) ⟨r,
        .wait (c.close (.error (.cancelled .deadlineExceeded))), false⟩ g
  | dropped {r : Nat} {t : Task} {g : Fleet}
      (hs : f.slots[i]? = some ⟨r, t, false⟩) :
      SlotStep f i (.drop i) ⟨r, t, true⟩ g

theorem slot_step (hx : (f.step e).slots[i]? = some x) :
    SlotStep f i e x (f.step e) := by
  have hh := happened f e
  generalize f.step e = g at hh hx
  cases hh with
  | submitted =>
      rcases append_get? hx with hs | ⟨hs, rfl⟩
      · exact .same hs (fun h => by cases h)
      · exact .submitted hs
  | awaited =>
      rcases append_get? hx with hs | ⟨hs, rfl⟩
      · exact .same hs (fun h => by cases h)
      · exact .awaited hs
  | @advanced j r ch t t' g hj ht =>
      rw [setSlot_get? hj ht.frame.slots] at hx
      split at hx
      · rename_i hij
        subst hij
        cases hx
        exact .advanced hj ht
      · rename_i hij
        exact .same hx (fun h => hij (Option.some.inj h))
  | @expired j r c g hj hu hg =>
      rw [setSlot_get? hj (frame_vacated hg).slots] at hx
      split at hx
      · rename_i hij
        subst hij
        cases hx
        exact .expired hj hu
      · rename_i hij
        exact .same hx (fun h => hij (Option.some.inj h))
  | @dropped j r t g hj hg =>
      rw [setSlot_get? hj (frame_vacated hg).slots] at hx
      split at hx
      · rename_i hij
        subst hij
        cases hx
        exact .dropped hj
      · rename_i hij
        exact .same hx (fun h => hij (Option.some.inj h))
  | aside ha =>
      rw [ha.apart.slots] at hx
      exact .same hx (fun h => by cases h)
  | idle he => exact .idle hx

/-- A call goes on being there, on its replica and about what it was
about; one that was given up stays as it is. -/
theorem slot_kept (e : Event) (hx : f.slots[i]? = some x) :
    ∃ x', (f.step e).slots[i]? = some x' ∧ x'.replica = x.replica
      ∧ x.task.Same x'.task ∧ (x.dropped = true → x' = x) := by
  have hh := happened f e
  generalize f.step e = g at hh
  -- all but the call's own events leave it as it is
  have hsame : g.slots[i]? = some x →
      ∃ x', g.slots[i]? = some x' ∧ x'.replica = x.replica
        ∧ x.task.Same x'.task ∧ (x.dropped = true → x' = x) :=
    fun h => ⟨x, h, rfl, Task.Same.refl _, fun _ => rfl⟩
  have happend : ∀ y : Slot, (f.slots ++ [y])[i]? = some x := by
    intro y
    obtain ⟨hlt, -⟩ := List.getElem?_eq_some_iff.mp hx
    rw [List.getElem?_append_left hlt, hx]
  cases hh with
  | submitted => exact hsame (happend _)
  | awaited => exact hsame (happend _)
  | @advanced j r ch t t' g hj ht =>
      by_cases hij : j = i
      · subst hij
        cases hx.symm.trans hj
        refine ⟨⟨r, t', false⟩, ?_, rfl, ht.same, fun hd => by cases hd⟩
        rw [setSlot_get? hj ht.frame.slots, if_pos rfl]
      · refine hsame ?_
        rw [setSlot_get? hj ht.frame.slots, if_neg hij, hx]
  | @expired j r c g hj hu hg =>
      have hslots := (frame_vacated hg).slots
      by_cases hij : j = i
      · subst hij
        cases hx.symm.trans hj
        refine ⟨⟨r, .wait (c.close
          (.error (.cancelled .deadlineExceeded))), false⟩, ?_, rfl,
          .wait c _, fun hd => by cases hd⟩
        rw [setSlot_get? hj hslots, if_pos rfl]
      · refine hsame ?_
        rw [setSlot_get? hj hslots, if_neg hij, hx]
  | @dropped j r t g hj hg =>
      have hslots := (frame_vacated hg).slots
      by_cases hij : j = i
      · subst hij
        cases hx.symm.trans hj
        refine ⟨⟨r, t, true⟩, ?_, rfl, Task.Same.refl t,
          fun hd => by cases hd⟩
        rw [setSlot_get? hj hslots, if_pos rfl]
      · refine hsame ?_
        rw [setSlot_get? hj hslots, if_neg hij, hx]
  | aside ha =>
      refine hsame ?_
      rw [ha.apart.slots, hx]
  | idle he => exact hsame hx

/-- An event that is not about a call leaves it where it stands. -/
theorem slot_other (hx : f.slots[i]? = some x) (he : e.caller? ≠ some i) :
    (f.step e).slots[i]? = some x := by
  obtain ⟨x', hx', -⟩ := slot_kept e hx
  have hs := slot_step hx'
  rw [hx']
  generalize f.step e = g at hs
  cases hs with
  | same hs => rw [← hs, hx]
  | idle hs => rw [← hs, hx]
  | submitted hs => cases hs.symm.trans hx
  | awaited hs => cases hs.symm.trans hx
  | advanced => exact absurd rfl he
  | expired => exact absurd rfl he
  | dropped => exact absurd rfl he

-- ====================================================== whole histories

theorem after_cons (s : Setting) (e : Event) (h : History) :
    after s (e :: h) = (after s h).step e := rfl

/-- The topic of allocations stays the same. -/
theorem after_topic (s : Setting) (h : History) :
    (after s h).topic = s.topic := by
  induction h with
  | nil => rfl
  | cons e h ih =>
      rw [after_cons, ← ih]
      have hh := happened (after s h) e
      generalize (after s h).step e = g at hh
      cases hh with
      | advanced hi ht => exact ht.frame.topic
      | expired hi hu hg => exact (frame_vacated hg).topic
      | dropped hi hg => exact (frame_vacated hg).topic
      | aside ha => exact ha.apart.topic
      | _ => rfl

theorem step_clock (f : Fleet) (e : Event) :
    f.ambient.clock ≤ (f.step e).ambient.clock := by
  have hh := happened f e
  generalize f.step e = g at hh
  cases hh with
  | advanced hi ht => exact ht.frame.clock
  | expired hi hu hg => exact (frame_vacated hg).clock
  | dropped hi hg => exact (frame_vacated hg).clock
  | aside ha => exact ha.apart.clock
  | _ => exact le_refl _

/-- The clock never goes back. -/
theorem clock_mono (s : Setting) (hp : p <:+ h) :
    (after s p).ambient.clock ≤ (after s h).ambient.clock := by
  induction h with
  | nil => rw [List.suffix_nil.mp hp]
  | cons e h ih =>
      rcases List.suffix_cons_iff.mp hp with rfl | hp
      · exact le_refl _
      · exact le_trans (ih hp) (step_clock _ e)

/-- A call that is not there now was not there before. -/
theorem slot_absent (hi : (after s (e :: h)).slots[i]? = none) :
    (after s h).slots[i]? = none := by
  cases hx : (after s h).slots[i]? with
  | none => rfl
  | some x =>
      obtain ⟨x', hx', -⟩ := slot_kept e hx
      cases hi.symm.trans hx'

/-- A call that was there goes on being there, and about the same. -/
theorem slot_later (hp : p <:+ h) (hx : (after s p).slots[i]? = some x) :
    ∃ x', (after s h).slots[i]? = some x' ∧ x'.replica = x.replica
      ∧ x.task.Same x'.task := by
  induction h with
  | nil =>
      rw [List.suffix_nil.mp hp] at hx
      cases hx
  | cons e h ih =>
      rcases List.suffix_cons_iff.mp hp with rfl | hp
      · exact ⟨x, hx, rfl, Task.Same.refl _⟩
      · obtain ⟨y, hy, hr, hsame⟩ := ih hp
        obtain ⟨x', hx', hr', hsame', -⟩ := slot_kept e hy
        exact ⟨x', hx', hr'.trans hr, hsame.trans hsame'⟩

/-- What holds of every call at its beginning, and is kept by all that
happens, holds of every call. -/
theorem slot_induction {P : Nat → History → Task → Prop}
    (keep : ∀ i e h t, P i h t → P i (e :: h) t)
    (submit : ∀ i r retry m op h, P i (.submit r retry m op :: h)
      (.lifecycle (.start retry s.topic m op)))
    (await : ∀ i r node settings retry machine h,
      P i (.await r node settings retry machine :: h)
        (.wait { machine, node, settings, retry }))
    (step : ∀ i r ch t t' h g,
      (after s h).slots[i]? = some ⟨r, t, false⟩ →
      TaskStep (after s h) r t ch t' g →
      after s (.step i ch :: h) = g.setSlot i ⟨r, t', false⟩ →
      P i h t → P i (.step i ch :: h) t')
    (expire : ∀ i r c h,
      (after s h).slots[i]? = some ⟨r, .wait c, false⟩ →
      underDeadline c.stage = true →
      P i h (.wait c) → P i (.expire i :: h)
        (.wait (c.close (.error (.cancelled .deadlineExceeded)))))
    (h : History) (i : Nat) (x : Slot)
    (hx : (after s h).slots[i]? = some x) : P i h x.task := by
  induction h generalizing x with
  | nil => cases hx
  | cons e h ih =>
      rw [after_cons] at hx
      have hs := slot_step hx
      generalize hg : (after s h).step e = g at hs
      cases hs with
      | same hs he => exact keep i e h _ (ih x hs)
      | idle hs => exact keep i e h _ (ih x hs)
      | submitted hs =>
          rw [after_topic]
          exact submit i _ _ _ _ h
      | awaited hs => exact await i _ _ _ _ _ h
      | advanced hs ht => exact step i _ _ _ _ h _ hs ht hg (ih _ hs)
      | expired hs hu => exact expire i _ _ h hs hu (ih _ hs)
      | dropped hs => exact keep i _ h _ (ih ⟨_, _, false⟩ hs)

end ControlPlane.Fleet
