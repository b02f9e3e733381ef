/-
Whose signal a signal is. Signals are told apart by their generation
only, and calls find them by machine, join them, let go of them and have
them replaced under their hands; so it is not in the code but in the
histories that a signal has one machine, and that a signal which says
that its machine is allocated is right (`Wakes`).

# Tenants

A signal belongs to a machine if it stands under it in the registry, or
if a call about the machine holds it, in the registry or not. All
operations but one only take tenants away; registering adds the machine
as the tenant of its own signal or of a new one, which says nothing yet.
Firing needs news of the machine, and so an allocation.

Chain: over History.lean and Signals.lean; consumed by
WakeSoundness.lean, and by Holds.lean for the holders of a signal.
-/
import ControlPlane.Proofs.Fleet.History

namespace ControlPlane.Fleet

variable {s : Setting} {f g : Fleet} {h : History} {i r k : Nat}
  {m m' : String} {x x' : Slot} {a : Registration}

-- ============================================================== tenants

/-- A call on replica `i` holds signal `k` for machine `m`. -/
def Held (f : Fleet) (i k : Nat) (m : String) : Prop :=
  ∃ (j : Nat) (x : Slot) (a : Registration), f.slots[j]? = some x
    ∧ x.replica = i ∧ x.hold? = some a ∧ a.generation = k
    ∧ a.machine = m

/-- Signal `k` of replica `i` is one of machine `m`. -/
def Tenant (f : Fleet) (i k : Nat) (m : String) : Prop :=
  (f.registries i).lookup m = some k ∨ f.Held i k m

/-- A call holds signals for its own machine only. -/
theorem hold_machine {a : Registration}
    (hx : (after s h).slots[i]? = some x) (ha : x.task.hold? = some a) :
    a.machine = x.task.machine := by
  revert a
  refine slot_induction (s := s)
    (P := fun _ _ t => ∀ {a}, t.hold? = some a → a.machine = t.machine)
    (fun _ _ _ _ ih => ih) ?_ ?_ ?_ ?_ h i x hx
  · intro i r retry m op h a ha
    cases ha
  · intro i r node settings retry machine h a ha
    cases ha
  · intro i r ch t t' h g hi ht hg ih a ha
    have hgrip := ht.grip
    rw [ht.same.machine]
    generalize t.machine = m at hgrip ih
    generalize hb : t.hold? = before at hgrip ih
    generalize g.registries r = reg at hgrip
    rw [ha] at hgrip
    cases hgrip with
    | kept hm hg => exact hm.trans (ih rfl)
    | taken hr => exact (Registry.register_ok hr).1
  · intro i r c h hi hu ih a ha
    cases ha

/-- Every signal has one machine, and one that says that its machine is
allocated is right. -/
structure Wakes (f : Fleet) : Prop where
  bounded : ∀ i k m, f.Tenant i k m → k < (f.registries i).signals.length
  unique : ∀ i k m m', f.Tenant i k m → f.Tenant i k m' → m = m'
  sound : ∀ i k m, f.Tenant i k m →
    ((f.registries i).signal k).state = .allocated → f.Allocated m

/-- Signals stay sound when tenants go and allocations come, if whatever
is said now was said before or is so. -/
theorem Wakes.fewer (hw : Wakes f)
    (hten : ∀ i k m, g.Tenant i k m → f.Tenant i k m)
    (hlen : ∀ i, (f.registries i).signals.length
      ≤ (g.registries i).signals.length)
    (hsay : ∀ i k m, g.Tenant i k m →
      ((g.registries i).signal k).state = .allocated →
        ((f.registries i).signal k).state = .allocated ∨ g.Allocated m)
    (hall : ∀ m, f.Allocated m → g.Allocated m) : Wakes g where
  bounded i k m ht :=
    Nat.lt_of_lt_of_le (hw.bounded i k m (hten i k m ht)) (hlen i)
  unique i k m m' ht ht' :=
    hw.unique i k m m' (hten i k m ht) (hten i k m' ht')
  sound i k m ht hs := by
    rcases hsay i k m ht hs with hs | ha
    · exact hall m (hw.sound i k m (hten i k m ht) hs)
    · exact ha

/-- Signals stay sound when one replica gets a new one for a machine. -/
theorem Wakes.issued (hw : Wakes f)
    (hi : Registry.Issued (f.registries r) m (g.registries r))
    (hothers : ∀ i, i ≠ r → g.registries i = f.registries i)
    (hheld : ∀ i k m', g.Held i k m' → f.Held i k m'
      ∨ (i = r ∧ k = (f.registries r).signals.length ∧ m' = m))
    (hall : ∀ m, f.Allocated m → g.Allocated m) : Wakes g := by
  -- the newcomer's number is beyond those of all tenants before
  have hten : ∀ i k m', g.Tenant i k m' → f.Tenant i k m'
      ∨ (i = r ∧ k = (f.registries r).signals.length ∧ m' = m) := by
    rintro i k m' (hl | hh)
    · by_cases hir : i = r
      · subst hir
        rw [Registry.lookup, hi.entries, Table.get?_set] at hl
        split at hl
        · rename_i hm
          cases hl
          exact Or.inr ⟨rfl, rfl, hm.symm⟩
        · exact Or.inl (Or.inl hl)
      · rw [hothers i hir] at hl
        exact Or.inl (Or.inl hl)
    · rcases hheld i k m' hh with hh | hnew
      · exact Or.inl (Or.inr hh)
      · exact Or.inr hnew
  refine ⟨?_, ?_, ?_⟩
  · intro i k m' ht
    rcases hten i k m' ht with ht | ⟨rfl, rfl, -⟩
    · have hlt := hw.bounded i k m' ht
      by_cases hir : i = r
      · subst hir
        rw [hi.length]
        omega
      · rw [hothers i hir]
        exact hlt
    · rw [hi.length]
      exact Nat.lt_succ_self _
  · intro i k m₁ m₂ h₁ h₂
    rcases hten i k m₁ h₁ with h₁ | ⟨rfl, rfl, rfl⟩
    · rcases hten i k m₂ h₂ with h₂ | ⟨rfl, rfl, rfl⟩
      · exact hw.unique i k m₁ m₂ h₁ h₂
      · exact absurd (hw.bounded _ _ _ h₁) (Nat.lt_irrefl _)
    · rcases hten _ _ m₂ h₂ with h₂ | ⟨-, -, rfl⟩
      · exact absurd (hw.bounded _ _ _ h₂) (Nat.lt_irrefl _)
      · rfl
  · intro i k m' ht hs
    rcases hten i k m' ht with ht | ⟨rfl, rfl, -⟩
    · have hlt := hw.bounded i k m' ht
      by_cases hir : i = r
      · subst hir
        rw [hi.others k (Nat.ne_of_lt hlt)] at hs
        exact hall m' (hw.sound i k m' ht hs)
      · rw [hothers i hir] at hs
        exact hall m' (hw.sound i k m' ht hs)
    · rw [hi.fresh] at hs
      cases hs

-- ======================================================== steps of calls

/-- Who holds what after one call has moved. -/
theorem held_set (hi : f.slots[i]? = some x)
    (hslots : g.slots = f.slots.set i x') (hr : x'.replica = x.replica)
    {j : Nat} (hh : g.Held j k m) :
    f.Held j k m ∨ (j = x.replica ∧ ∃ a, x'.hold? = some a
      ∧ a.generation = k ∧ a.machine = m) := by
  obtain ⟨n, y, a, hn, hj, ha, hk, hm⟩ := hh
  obtain ⟨hlt, -⟩ := List.getElem?_eq_some_iff.mp hi
  rw [hslots, List.getElem?_set, if_pos hlt] at hn
  split at hn
  · cases hn
    exact Or.inr ⟨by rw [← hj, hr], a, ha, hk, hm⟩
  · exact Or.inl ⟨n, y, a, hn, hj, ha, hk, hm⟩

/-- Signals stay sound when those of one replica change, if none comes to
stand under a machine, and nobody holds one who had nothing to do with
it. -/
theorem Wakes.nearby (hw : Wakes f)
    (hothers : ∀ j, j ≠ r → g.registries j = f.registries j)
    (hlook : ∀ k m, (g.registries r).lookup m = some k →
      (f.registries r).lookup m = some k)
    (hheld : ∀ i k m, g.Held i k m → f.Tenant i k m)
    (hlen : (g.registries r).signals.length
      = (f.registries r).signals.length)
    (hsay : ∀ k m, f.Tenant r k m →
      ((g.registries r).signal k).state = .allocated →
        ((f.registries r).signal k).state = .allocated ∨ g.Allocated m)
    (hall : ∀ m, f.Allocated m → g.Allocated m) : Wakes g := by
  have hten : ∀ i k m, g.Tenant i k m → f.Tenant i k m := by
    rintro i k m (hl | hh)
    · by_cases hi : i = r
      · subst hi
        exact Or.inl (hlook k m hl)
      · rw [hothers i hi] at hl
        exact Or.inl hl
    · exact hheld i k m hh
  refine hw.fewer hten ?_ ?_ hall
  · intro i
    by_cases hi : i = r
    · rw [hi, hlen]
    · rw [hothers i hi]
  · intro i k m ht hs
    by_cases hi : i = r
    · subst hi
      exact hsay k m (hten i k m ht) hs
    · rw [hothers i hi] at hs
      exact Or.inl hs

theorem held_same (hslots : g.slots = f.slots) (hh : g.Held i k m) :
    f.Held i k m := by
  obtain ⟨n, y, a, hn, hrest⟩ := hh
  rw [hslots] at hn
  exact ⟨n, y, a, hn, hrest⟩

/-- Signals stay sound when something beside the calls changes those of
one replica. -/
theorem Wakes.beside (hw : Wakes f) (hslots : g.slots = f.slots)
    (hothers : ∀ j, j ≠ r → g.registries j = f.registries j)
    (hlook : ∀ k m, (g.registries r).lookup m = some k →
      (f.registries r).lookup m = some k)
    (hlen : (g.registries r).signals.length
      = (f.registries r).signals.length)
    (hsay : ∀ k m, f.Tenant r k m →
      ((g.registries r).signal k).state = .allocated →
        ((f.registries r).signal k).state = .allocated ∨ g.Allocated m)
    (hall : ∀ m, f.Allocated m → g.Allocated m) : Wakes g :=
  hw.nearby hothers hlook (fun _ _ _ hh => Or.inr (held_same hslots hh))
    hlen hsay hall

/-- Signals stay sound when a call takes hold of one, lets go of one, or
keeps to what it has. -/
theorem Wakes.grip (hw : Wakes f) (hi : f.slots[i]? = some x)
    (hslots : g.slots = f.slots.set i x') (hr : x'.replica = x.replica)
    (hgrip : Grip m (f.registries x.replica) (g.registries x.replica)
      x.hold? x'.hold?)
    (hothers : ∀ j, j ≠ x.replica → g.registries j = f.registries j)
    (hall : ∀ m, f.Allocated m → g.Allocated m) : Wakes g := by
  -- all cases but a new signal take tenants away only
  have hless : (∀ k m', (g.registries x.replica).lookup m' = some k →
        (f.registries x.replica).lookup m' = some k) →
      (∀ a, x'.hold? = some a →
        f.Tenant x.replica a.generation a.machine) →
      (g.registries x.replica).signals.length
        = (f.registries x.replica).signals.length →
      (∀ k, ((g.registries x.replica).signal k).state = .allocated →
        ((f.registries x.replica).signal k).state = .allocated) →
      Wakes g := by
    intro hlook hhold hlen hstate
    refine hw.nearby hothers hlook ?_ hlen
      (fun k m' _ hs => Or.inl (hstate k hs)) hall
    intro j k m' hh
    rcases held_set hi hslots hr hh with hh | ⟨rfl, a, ha, rfl, rfl⟩
    · exact Or.inr hh
    · exact hhold a ha
  generalize hb : x.hold? = before at hgrip
  generalize ha : x'.hold? = later at hgrip
  generalize hreg : g.registries x.replica = reg at hgrip
  rw [hreg] at hless
  cases hgrip with
  | free =>
      refine hless (fun k m' hl => hl) ?_ rfl (fun k hs => hs)
      intro b hb'
      rw [ha] at hb'
      cases hb'
  | @kept a b hm hg =>
      refine hless (fun k m' hl => hl) ?_ rfl (fun k hs => hs)
      intro b' hb'
      rw [ha] at hb'
      cases hb'
      exact Or.inr ⟨i, x, a, hi, rfl, hb, hg.symm, hm.symm⟩
  | @taken _ a hreg' =>
      obtain ⟨hm, ⟨hl, -, -, hj⟩ | ⟨-, hgen, hnew⟩⟩ :=
        Registry.register_ok hreg'
      · refine hless ?_ ?_ hj.length ?_
        · intro k m' hl'
          rw [Registry.lookup, hj.entries] at hl'
          exact hl'
        · intro b hb'
          rw [ha] at hb'
          cases hb'
          rw [hm]
          exact Or.inl hl
        · intro k hs
          rw [hj.state] at hs
          exact hs
      · refine hw.issued (r := x.replica) (m := m)
          (by rw [hreg]; exact hnew) hothers ?_ hall
        intro j k m' hh
        rcases held_set hi hslots hr hh with hh | ⟨rfl, b, hb', rfl, rfl⟩
        · exact Or.inl hh
        · rw [ha] at hb'
          cases hb'
          exact Or.inr ⟨rfl, hgen, hm⟩
  | @released a =>
      refine hless ?_ ?_ (Registry.release_length _ _) ?_
      · intro k m' hl
        rw [Registry.release_lookup] at hl
        split at hl
        · cases hl
        · exact hl
      · intro b hb'
        rw [ha] at hb'
        cases hb'
      · intro k hs
        rw [Registry.release_signal] at hs
        split at hs
        · rename_i hk
          rw [hk.1]
          exact (Registry.lowered_allocated _ _).mp hs
        · exact hs

/-- What an event can be to the signals and to those who hold them. -/
inductive Gripped (f : Fleet) : Event → Fleet → Prop
  /-- A call begins, without a hold. -/
  | begun {e : Event} {x : Slot} {g : Fleet} (hx : x.hold? = none)
      (hslots : g.slots = f.slots ++ [x])
      (hreg : g.registries = f.registries) : Gripped f e g
  /-- A call takes hold, lets go, or keeps to what it has. -/
  | moved {e : Event} {i : Nat} {x x' : Slot} {m : String} {g : Fleet}
      (hi : f.slots[i]? = some x) (hslots : g.slots = f.slots.set i x')
      (hr : x'.replica = x.replica)
      (hgrip : Grip m (f.registries x.replica) (g.registries x.replica)
        x.hold? x'.hold?)
      (hothers : ∀ j, j ≠ x.replica → g.registries j = f.registries j) :
      Gripped f e g
  | aside {a : Aside} {g : Fleet} (h : AsideStep f a g) :
      Gripped f (.aside a) g
  | idle {e : Event} : Gripped f e f

/-- A call that ends or is given up lets go of its hold. -/
theorem gripped_vacated {t : Task} (hi : f.slots[i]? = some ⟨r, t, false⟩)
    (hr : x'.replica = r) (hx : x'.hold? = none)
    (hg : Still (f.setRegistry r
      ((f.registries r).vacated t.hold?)) g) (e : Event) :
    Gripped f e (g.setSlot i x') := by
  have hframe := frame_vacated hg
  refine .moved (m := t.machine) hi ?_ hr ?_ hframe.others
  · show g.slots.set i x' = _
    rw [hframe.slots]
  · rw [hx]
    show Grip t.machine _ (g.registries r) t.hold? none
    rw [registry_still hg, setRegistry_self]
    exact Grip.vacated _ _ _

theorem gripped (f : Fleet) (e : Event) : Gripped f e (f.step e) := by
  have hh := happened f e
  generalize f.step e = g at hh
  cases hh with
  | submitted => exact .begun rfl rfl rfl
  | awaited => exact .begun rfl rfl rfl
  | @advanced i r ch t t' g hi ht =>
      have hframe := ht.frame
      have hslots : (g.setSlot i ⟨r, t', false⟩).slots
          = f.slots.set i ⟨r, t', false⟩ := by
        show g.slots.set i _ = _
        rw [hframe.slots]
      exact .moved hi hslots rfl ht.grip hframe.others
  | expired hi hu hg => exact gripped_vacated hi rfl rfl hg _
  | dropped hi hg => exact gripped_vacated hi rfl rfl hg _
  | aside ha => exact .aside ha
  | idle he => exact .idle

/-- What an event can make of the signals of replica `r`. -/
inductive Signalled (f g : Fleet) (r : Nat) : Registry → Prop
  | same : Signalled f g r (f.registries r)
  | gripped {i : Nat} {x x' : Slot} {m : String} {reg : Registry}
      (hi : f.slots[i]? = some x) (hi' : g.slots[i]? = some x')
      (hr : x.replica = r)
      (hgrip : Grip m (f.registries r) reg x.hold? x'.hold?) :
      Signalled f g r reg
  | heard {m : String} : Signalled f g r ((f.registries r).notified m)
  | removed {m : String} : Signalled f g r ((f.registries r).remove m)
  | closed {k : Nat} : Signalled f g r ((f.registries r).close k)

theorem signalled_set {reg : Registry} {i : Nat}
    (h : i = r → Signalled f g r reg) :
    Signalled f g r ((f.setRegistry i reg).registries r) := by
  by_cases hir : r = i
  · subst hir
    rw [setRegistry_self]
    exact h rfl
  · rw [setRegistry_of_ne _ hir]
    exact .same

theorem signalled_heard (f g : Fleet) (r i : Nat) (payload : Json) :
    Signalled f g r ((f.heard i payload).registries r) := by
  unfold Fleet.heard
  split
  · apply signalled_set
    rintro rfl
    exact .heard
  · exact .same

theorem signalled (f : Fleet) (e : Event) (r : Nat) :
    Signalled f (f.step e) r ((f.step e).registries r) := by
  have hgrip := gripped f e
  generalize f.step e = g at hgrip
  cases hgrip with
  | begun hx hslots hreg =>
      rw [hreg]
      exact .same
  | idle => exact .same
  | @moved _ i x x' m g hi hslots hr hgrip hothers =>
      by_cases hrx : r = x.replica
      · subst hrx
        refine .gripped hi ?_ rfl hgrip
        obtain ⟨hlt, -⟩ := List.getElem?_eq_some_iff.mp hi
        rw [hslots, List.getElem?_set_self hlt]
      · rw [hothers r hrx]
        exact .same
  | aside ha =>
      cases ha with
      | clock hg =>
          rw [registry_still hg]
          exact .same
      | @delivered n other x i g hk' hg =>
          rw [registry_still hg]
          show Signalled f g r ((f.received i x.payload).registries r)
          rcases f.received_cases i x.payload with hr | ⟨j, -, hr⟩
          · rw [hr]
            exact .same
          · rw [hr]
            exact signalled_heard f g r j _
      | redelivered hk' hg =>
          rw [registry_still hg]
          exact signalled_heard f g r _ _
      | removed =>
          apply signalled_set
          rintro rfl
          exact .removed
      | closed =>
          apply signalled_set
          rintro rfl
          exact .closed
      | _ => exact .same

-- ==================================================== what was told stays

section Told

variable {reg reg' : Registry}

theorem notified_told (hs : (reg.signal k).state = .allocated) :
    ((reg.notified m).signal k).state = .allocated := by
  unfold Registry.notified
  cases hl : reg.lookup m with
  | none => exact hs
  | some n =>
      simp only [Registry.fire_signal]
      split
      · rename_i hk
        rw [hk.1] at hs
        rw [Signal.fire_state, hs]
        rfl
      · exact hs

theorem close_told (hs : (reg.signal k).state = .allocated) (n : Nat) :
    ((reg.close n).signal k).state = .allocated := by
  rw [Registry.close_signal]
  split
  · rename_i hk
    rw [← hk.1]
    exact (Signal.close_allocated _).mpr hs
  · exact hs

theorem remove_told (hs : (reg.signal k).state = .allocated) (m : String) :
    ((reg.remove m).signal k).state = .allocated := by
  rcases reg.remove_cases m with ⟨-, hr⟩ | ⟨n, -, hr⟩
  · rw [hr]
    exact hs
  · rw [hr]
    exact close_told hs n

theorem grip_told {before later : Option Registration}
    (hgrip : Grip m reg reg' before later)
    (hk : k < reg.signals.length)
    (hs : (reg.signal k).state = .allocated) :
    (reg'.signal k).state = .allocated := by
  cases hgrip with
  | free => exact hs
  | kept hm hg => exact hs
  | taken hreg =>
      rcases (Registry.register_ok hreg).2 with
        ⟨-, -, -, hj⟩ | ⟨-, -, hiss⟩
      · rw [hj.state]
        exact hs
      · rw [hiss.others k (Nat.ne_of_lt hk)]
        exact hs
  | released =>
      rw [Registry.release_signal]
      split
      · rename_i hkn
        rw [hkn.1] at hs
        exact (Registry.lowered_allocated _ _).mpr hs
      · exact hs

/-- A signal that says that its machine is allocated says so for ever. -/
theorem told_stays (hk : k < (f.registries r).signals.length)
    (hs : ((f.registries r).signal k).state = .allocated) (e : Event) :
    (((f.step e).registries r).signal k).state = .allocated := by
  have h := signalled f e r
  generalize (f.step e).registries r = reg at h
  cases h with
  | same => exact hs
  | gripped hi hi' hr hgrip => exact grip_told hgrip hk hs
  | heard => exact notified_told hs
  | removed => exact remove_told hs _
  | closed => exact close_told hs _

end Told

end ControlPlane.Fleet
